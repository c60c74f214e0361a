import ClassText.Proofs.Failure.Cursor
import ClassText.Proofs.Viability

/-! How readers move and where they stop. A reader only moves forward. Where it rejects, the error fits
the place: it shows the token or the end that is found there, what has been consumed is viable, and
whatever it expects could have come. And it looks at so little of what lies ahead that more tokens
behind the input change nothing, unless it stops at the last of them. -/
namespace ClassText

open Grammar

namespace Reading

/-- The same with more tokens behind the input. -/
def extend (s : Reading) (more : List Located) : Reading :=
  { s with cursor := ⟨s.cursor.behind, s.cursor.ahead ++ more⟩ }

theorem unread_extend (s : Reading) (more : List Located) :
    (s.extend more).unread = s.unread ++ Token.expand (more.map (·.token)) := by
  simp [unread, extend]

theorem peek?_extend {s : Reading} {more : List Located} {n : Nat} (h : n < s.cursor.ahead.length) :
    (s.extend more).cursor.peek? n = s.cursor.peek? n := by
  simp [extend, TokenCursor.peek?, TokenCursor.get?, List.getElem?_append_left h]

theorem peek?_zero_eq_none {s : Reading} : s.cursor.peek? 0 = none ↔ s.cursor.ahead = [] := by
  simp [TokenCursor.peek?, TokenCursor.get?]

theorem peek?_zero_of_ahead {s : Reading} {l : Located} {ls : List Located}
    (h : s.cursor.ahead = l :: ls) : s.cursor.peek? 0 = some l.token := by
  simp [TokenCursor.peek?, TokenCursor.get?, h]

/-- The current token may be the last. -/
theorem ahead_eq_singleton {s : Reading} {t : Token} (ht : s.cursor.peek? 0 = some t)
    (h : ¬ 1 < s.cursor.ahead.length) : ∃ l, s.cursor.ahead = [l] ∧ l.token = t := by
  cases hs : s.cursor.ahead with
  | nil =>
    rw [peek?_zero_eq_none.2 hs] at ht
    cases ht
  | cons l ls =>
    rw [hs, List.length_cons] at h
    obtain rfl : ls = [] := List.length_eq_zero_iff.1 (by omega)
    rw [peek?_zero_of_ahead hs] at ht
    exact ⟨l, rfl, Option.some.inj ht⟩

theorem unread_eq_nil_iff {s : Reading} : s.unread = [] ↔ s.cursor.ahead = [] := by
  rw [← peek?_zero_eq_none_iff, peek?_zero_eq_none]

end Reading

/-- The error fits a cursor where it stands, with `p` consumed before: it shows what is found there, `p`
is viable, and whatever it expects could have come. -/
inductive SyntaxError.Fits : SyntaxError → List Token → TokenCursor → Prop
  | unexpected : c.get? 0 = some l → (∀ w, x.Admits w → Viable (p ++ w)) →
      Fits (.unexpectedToken x l.token l.position l.span) p c
  | tooFew : c.ahead = [] → Viable p → (∀ x ∈ xs, ∀ w, x.Admits w → Viable (p ++ w)) →
      Fits (.tooFewTokens (.expected xs) c.endSpan) p c
  | inBody : c.ahead = [] → Viable p →
      Fits (.tooFewTokens (.consumed (c.consumed Reader.lastTokenCount)) c.endSpan) p c
  /-- What has been consumed last is a lone variable, in the place of which any statement could have
  come. -/
  | ambiguous : c.behind.head? = some l → l.token = .identifier name → Viable (p ++ [l.token]) →
      Opens DerivesStatement p →
      Fits (.ambiguousStatement l.position ⟨l.span.start, max l.span.stop l.span.start⟩)
        (p ++ [l.token]) c

namespace Reader

variable {α β : Type} {p : List Token} {more : List Located} {s : Reading}

/-- Where a result leaves the reading that began at `s` with `p` consumed before, and what `other`
answers with more tokens behind the input. -/
def Outcome (p : List Token) (more : List Located) (s : Reading) :
    EStateM.Result Stop Reading α → EStateM.Result Stop Reading α → Prop
  | .ok a t, other => s.cursor.Moves t.cursor ∧ (t.cursor.Pending ∨ other = .ok a (t.extend more))
  | .error (.rejected e) t, other => s.cursor.Moves t.cursor ∧
      (t.cursor.Pending ∨ other = .error (.rejected e) (t.extend more)) ∧
      ∃ q, s.unread = q ++ t.unread ∧ e.Fits (p ++ q) t.cursor
  | .error (.broken _) _, _ => True

/-- At `s`, with `p` consumed before, `r` only moves forward and rejects with errors that fit, and `r'`
does the same with more tokens behind the input, unless `r` stops at the last token. -/
def Accords (p : List Token) (more : List Located) (r r' : Reader α) (s : Reading) : Prop :=
  Outcome p more s (r.run s) (r'.run (s.extend more))

namespace Accords

theorem of_ok {r r' : Reader α} (h : Accords p more r r' s) {a : α} {t : Reading}
    (hr : r.run s = .ok a t) : s.cursor.Moves t.cursor ∧
      (t.cursor.Pending ∨ r'.run (s.extend more) = .ok a (t.extend more)) := by
  unfold Accords at h
  rwa [hr] at h

theorem of_rejected {r r' : Reader α} (h : Accords p more r r' s) {e : SyntaxError} {t : Reading}
    (hr : r.run s = .error (.rejected e) t) : s.cursor.Moves t.cursor ∧
      (t.cursor.Pending ∨ r'.run (s.extend more) = .error (.rejected e) (t.extend more)) ∧
      ∃ q, s.unread = q ++ t.unread ∧ e.Fits (p ++ q) t.cursor := by
  unfold Accords at h
  rwa [hr] at h

theorem of_run_eq {r₁ r₁' r₂ r₂' : Reader α} (h : Accords p more r₂ r₂' s) (hr : r₁.run s = r₂.run s)
    (hr' : r₁'.run (s.extend more) = r₂'.run (s.extend more)) : Accords p more r₁ r₁' s := by
  unfold Accords
  rw [hr, hr']
  exact h

/-- Where nothing is ahead, the reader with more tokens does not matter. -/
theorem of_nil {r r' : Reader α} (r'' : Reader α) (h : Accords p more r r' s)
    (hs : s.cursor.ahead = []) : Accords p more r r'' s := by
  unfold Accords at h ⊢
  cases hr : r.run s with
  | ok a t =>
    rw [hr] at h
    exact ⟨h.1, .inl (h.1.pending (.inl hs))⟩
  | error e t =>
    rw [hr] at h
    cases e with
    | rejected e => exact ⟨h.1, .inl (h.1.pending (.inl hs)), h.2.2⟩
    | broken f => trivial

/-- Where a reader refuses at the end of the input, the reader with more tokens does not matter. -/
theorem of_error_at_end {r r' : Reader α} (r'' : Reader α) (h : Accords p more r r' s) {e : SyntaxError}
    {t : Reading} (hr : r.run s = .error (.rejected e) t) (ht : t.cursor.ahead = []) :
    Accords p more r r'' s := by
  unfold Accords at h ⊢
  rw [hr] at h ⊢
  exact ⟨h.1, .inl (.inl ht), h.2.2⟩

theorem pure (a : α) : Accords p more (pure a) (pure a) s := ⟨.stay, .inr rfl⟩

/-- One reader behind another, where it also counts how far the first has moved. -/
theorem bind_moving {x x' : Reader α} {f f' : α → Reader β} {P : Phrase α} (hx : Reads x s P)
    (h : Accords p more x x' s)
    (hf : ∀ a q t, t.Visible → s.cursor.Moves t.cursor → s.unread = q ++ t.unread →
      P q a t.unread → Accords (p ++ q) more (f a) (f' a) t) : Accords p more (x >>= f) (x' >>= f') s := by
  unfold Reads at hx
  unfold Accords at h ⊢
  rw [run_bind, run_bind]
  cases hr : x.run s with
  | ok a t =>
    rw [hr] at hx h
    obtain ⟨ht, ⟨q, hq, hP⟩, -⟩ := hx
    obtain ⟨hm, hx'⟩ := h
    have hfa := hf a q t ht hm hq hP
    unfold Accords at hfa
    dsimp only
    cases hv : (f a).run t with
    | ok b v =>
      rw [hv] at hfa
      obtain ⟨hm', hf'⟩ := hfa
      refine ⟨hm.trans hm', ?_⟩
      obtain hp | hx' := hx'
      · exact .inl (hm'.pending hp)
      · rw [hx']
        exact hf'
    | error e v =>
      rw [hv] at hfa
      cases e with
      | rejected e =>
        obtain ⟨hm', hf', q', hq', hfit⟩ := hfa
        refine ⟨hm.trans hm', ?_, q ++ q', by rw [hq, hq', List.append_assoc], ?_⟩
        · obtain hp | hx' := hx'
          · exact .inl (hm'.pending hp)
          · rw [hx']
            exact hf'
        · rwa [← List.append_assoc]
      | broken f => trivial
  | error e t =>
    rw [hr] at h
    cases e with
    | rejected e =>
      obtain ⟨hm, hx', hfit⟩ := h
      refine ⟨hm, ?_, hfit⟩
      obtain hp | hx' := hx'
      · exact .inl hp
      · rw [hx']
        exact .inr rfl
    | broken f => trivial

theorem bind {x x' : Reader α} {f f' : α → Reader β} {P : Phrase α} (hx : Reads x s P)
    (h : Accords p more x x' s)
    (hf : ∀ a q t, t.Visible → s.unread = q ++ t.unread → P q a t.unread →
      Accords (p ++ q) more (f a) (f' a) t) : Accords p more (x >>= f) (x' >>= f') s :=
  bind_moving hx h fun a q t ht _ hq hP => hf a q t ht hq hP

/-- Behind a reader that always refuses, nothing is reached. -/
theorem bind_refused {x x' : Reader α} {f f' : α → Reader β} (h : Accords p more x x' s)
    (hx : Reads x s fun _ _ _ => False) : Accords p more (x >>= f) (x' >>= f') s :=
  h.bind hx fun _ _ _ _ _ h => h.elim

end Accords
end Reader
end ClassText
