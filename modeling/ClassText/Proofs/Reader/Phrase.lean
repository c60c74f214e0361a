import ClassText.Reader.Basic
import Mathlib.Tactic.Common

/-! What a reader reads, said without the reader. A phrase relates the tokens that are consumed, the
result, and the tokens that follow; compound symbols stand taken apart in all of them. `Reads` ties a
reader to a phrase in both directions, and the rules here carry it through the parts of a reader. -/
namespace ClassText

namespace Token

/-- A token that is no part of a compound symbol with a leading `>`, other than its end, and no such
compound either. -/
def Plain (t : Token) : Prop := t.parts = [t] ∧ t ≠ .symbol .gt

instance (t : Token) : Decidable t.Plain := inferInstanceAs (Decidable (_ ∧ _))

theorem plain_identifier (name : String) : (identifier name).Plain := ⟨rfl, by simp⟩

theorem plain_keyword (k : Keyword) : (keyword k).Plain := ⟨rfl, by simp⟩

theorem parts_ne_nil (t : Token) : t.parts ≠ [] := by
  cases t with
  | symbol s => cases s <;> simp [parts, Symbol.parts]
  | _ => simp [parts]

/-- A compound symbol begins with `>`. -/
theorem parts_eq_or (t : Token) : t.parts = [t] ∨ ∃ ts, t.parts = .symbol .gt :: ts := by
  cases t with
  | symbol s => cases s <;> simp [parts, Symbol.parts]
  | _ => simp [parts]

/-- A plain token is seen at the head of the parts only where it stands itself. -/
theorem Plain.head?_parts_append {t : Token} (ht : t.Plain) (u : Token) (us : List Token) :
    (u.parts ++ us).head? = some t ↔ u = t := by
  constructor
  · intro h
    obtain hu | ⟨ts, hu⟩ := u.parts_eq_or
    · simpa [hu] using h
    · rw [hu] at h
      exact absurd (by simpa using h.symm) ht.2
  · rintro rfl
    simp [ht.1]

end Token

namespace TokenCursor

theorem peek?_zero (c : TokenCursor) : c.peek? 0 = (c.ahead.map (·.token)).head? := by
  simp [peek?, get?, List.head?_eq_getElem?]

end TokenCursor

namespace Reading

/-- No unread identifier is blank. -/
def Visible (s : Reading) : Prop :=
  ∀ name, .identifier name ∈ s.unread → Text.isBlankText name = false

def advance (s : Reading) : Reading := { s with cursor := s.cursor.advance }

theorem Visible.of_suffix {s t : Reading} {p : List Token} (hs : s.Visible)
    (h : s.unread = p ++ t.unread) : t.Visible :=
  fun name hn => hs name (by rw [h]; exact List.mem_append_right p hn)

/-- Either no token is left, or the parts of the current token lead the unread ones. -/
theorem current_cases (s : Reading) :
    (s.cursor.peek? 0 = none ∧ s.unread = []) ∨
    ∃ t, s.cursor.peek? 0 = some t ∧ s.unread = t.parts ++ s.advance.unread := by
  rw [TokenCursor.peek?_zero]
  unfold unread advance TokenCursor.advance
  cases s.cursor.ahead with
  | nil => exact .inl ⟨rfl,rfl⟩
  | cons l ls => exact .inr ⟨l.token,rfl,rfl⟩

theorem peek?_zero_eq_none_iff (s : Reading) : s.cursor.peek? 0 = none ↔ s.unread = [] := by
  obtain ⟨hc, hu⟩ | ⟨t, hc, hu⟩ := s.current_cases
  · simp [hc, hu]
  · simp [hc, hu, t.parts_ne_nil]

theorem head?_unread_iff {s : Reading} {t : Token} (ht : t.Plain) :
    s.unread.head? = some t ↔ s.cursor.peek? 0 = some t := by
  obtain ⟨hc, hu⟩ | ⟨u, hc, hu⟩ := s.current_cases
  · simp [hc, hu]
  · rw [hc, hu, ht.head?_parts_append, Option.some_inj]

theorem peek?_advance (s : Reading) (n : Nat) :
    s.advance.cursor.peek? n = s.cursor.peek? (n + 1) := by
  obtain ⟨⟨behind, ahead⟩, ms⟩ := s
  cases ahead <;> simp [advance, TokenCursor.advance, TokenCursor.peek?, TokenCursor.get?]

/-- Moving over a token without parts takes exactly it from the unread ones. -/
theorem unread_eq_cons {s : Reading} {t : Token} (ht : t.parts = [t])
    (h : s.cursor.peek? 0 = some t) : s.unread = t :: s.advance.unread := by
  obtain ⟨hc, -⟩ | ⟨u, hc, hu⟩ := s.current_cases
  · simp [hc] at h
  · obtain rfl : u = t := by simpa [hc] using h
    rw [hu, ht]
    rfl

end Reading

/-- The tokens consumed, the result, and the tokens that follow. -/
abbrev Phrase (α : Type) := List Token → α → List Token → Prop

namespace Phrase

/-- One phrase behind another. -/
def andThen (P : Phrase α) (Q : α → Phrase β) : Phrase β := fun p b us =>
  ∃ q r a, p = q ++ r ∧ P q a (r ++ us) ∧ Q a r b us

/-- A phrase behind one token. -/
def after (t : Token) (P : Phrase α) : Phrase α := fun p b us => ∃ q, p = t :: q ∧ P q b us

theorem token_andThen {t : Token} {Q : Unit → Phrase β} {p us : List Token} {b : β} :
    (andThen (fun q _ _ => q = [t]) Q) p b us ↔ after t (Q ()) p b us := by
  constructor
  · rintro ⟨_, r, _, rfl, rfl, h⟩
    exact ⟨r, rfl, h⟩
  · rintro ⟨r, rfl, h⟩
    exact ⟨[t], r, (), rfl, rfl, h⟩

theorem identifier_andThen {Q : String → Phrase β} {p us : List Token} {b : β} :
    (andThen (fun q name _ => q = [.identifier name]) Q) p b us ↔
      ∃ name r, p = .identifier name :: r ∧ Q name r b us := by
  constructor
  · rintro ⟨_, r, name, rfl, rfl, h⟩
    exact ⟨name, r, rfl, h⟩
  · rintro ⟨name, r, rfl, h⟩
    exact ⟨_, r, name, rfl, rfl, h⟩

theorem andThen_nil {P : Phrase α} {f : α → β} {p us : List Token} {b : β} :
    (P.andThen fun a q c _ => q = [] ∧ c = f a) p b us ↔ ∃ a, P p a us ∧ b = f a := by
  constructor
  · rintro ⟨q, _, a, rfl, h, rfl, hc⟩
    rw [List.append_nil]
    exact ⟨a,h,hc⟩
  · rintro ⟨a, h, hc⟩
    exact ⟨p, [], a, (List.append_nil p).symm, h, rfl, hc⟩

end Phrase

namespace Reader

/-- An answer to the unread tokens is the only one that the phrase allows, and leaves what the phrase
leaves. The tokens are rejected only if the phrase allows nothing, and nothing is ever broken. -/
def Answers (unread : List Token) (P : Phrase α) : EStateM.Result Stop Reading α → Prop
  | .ok a t =>
    t.Visible ∧ (∃ p, unread = p ++ t.unread ∧ P p a t.unread) ∧
      ∀ p b us, unread = p ++ us → P p b us → b = a ∧ us = t.unread
  | .error (.rejected _) t => t.Visible ∧ ∀ p b us, unread = p ++ us → ¬ P p b us
  | .error (.broken _) _ => False

/-- At `s`, the reader gives exactly what the phrase says. -/
def Reads (r : Reader α) (s : Reading) (P : Phrase α) : Prop := Answers s.unread P (r.run s)

theorem run_bind (x : Reader α) (f : α → Reader β) (s : Reading) :
    (x >>= f).run s = match x.run s with
      | .ok a t => (f a).run t
      | .error e t => .error e t := by
  change EStateM.bind x f s = _
  unfold EStateM.bind EStateM.run
  cases x s <;> rfl

namespace Reads

variable {s : Reading}

theorem run_ok_iff {r : Reader α} {P : Phrase α} (h : Reads r s P) {a : α} {us : List Token} :
    (∃ t, r.run s = .ok a t ∧ t.unread = us) ↔ ∃ p, s.unread = p ++ us ∧ P p a us := by
  unfold Reads at h
  constructor
  · rintro ⟨t, hr, rfl⟩
    rw [hr] at h
    exact h.2.1
  · rintro ⟨p, hp, hP⟩
    match r.run s, h with
    | .ok b t, ⟨_, _, hu⟩ =>
      obtain ⟨rfl, rfl⟩ := hu p a us hp hP
      exact ⟨t,rfl,rfl⟩
    | .error (.rejected _) t, h => exact absurd hP (h.2 p a us hp)

theorem run_rejected {r : Reader α} {P : Phrase α} (h : Reads r s P)
    (hP : ∀ p a us, s.unread = p ++ us → ¬ P p a us) : ∃ e t, r.run s = .error (.rejected e) t := by
  unfold Reads at h
  match r.run s, h with
  | .ok a t, ⟨_, ⟨p, hp, hPa⟩, _⟩ => exact absurd hPa (hP p a t.unread hp)
  | .error (.rejected e) t, _ => exact ⟨e,t,rfl⟩

/-- A reader that fails has refused the input. -/
theorem rejected_of_error {r : Reader α} {P : Phrase α} (h : Reads r s P) {stop : Stop} {t : Reading}
    (hr : r.run s = .error stop t) : ∃ e, stop = .rejected e := by
  unfold Reads at h
  rw [hr] at h
  cases stop with
  | rejected e => exact ⟨e, rfl⟩
  | broken f => exact h.elim

/-- What a reader reads, it allows in one way only. -/
theorem unique {r : Reader α} {P : Phrase α} (h : Reads r s P) {p q us vs : List Token} {a b : α}
    (hp : s.unread = p ++ us) (hPa : P p a us) (hq : s.unread = q ++ vs) (hPb : P q b vs) :
    p = q ∧ a = b := by
  obtain ⟨t, ht, hu⟩ := h.run_ok_iff.2 ⟨p,hp,hPa⟩
  obtain ⟨t', ht', hu'⟩ := h.run_ok_iff.2 ⟨q,hq,hPb⟩
  rw [ht] at ht'
  cases ht'
  subst hu hu'
  exact ⟨List.append_cancel_right (hp.symm.trans hq), rfl⟩

/-- Two phrases that agree on what lies ahead may stand for each other. -/
theorem congr {r : Reader α} {P Q : Phrase α} (h : Reads r s P)
    (hpq : ∀ p b us, s.unread = p ++ us → (P p b us ↔ Q p b us)) : Reads r s Q := by
  unfold Reads at h ⊢
  match r.run s, h with
  | .ok a t, ⟨ht, ⟨p, hp, hP⟩, hu⟩ =>
    exact ⟨ht, ⟨p, hp, (hpq _ _ _ hp).1 hP⟩, fun q b us hq hQ => hu q b us hq ((hpq _ _ _ hq).2 hQ)⟩
  | .error (.rejected _) t, h =>
    exact ⟨h.1, fun q b us hq hQ => h.2 q b us hq ((hpq _ _ _ hq).2 hQ)⟩

/-- A reader that does the same at `s` reads the same. -/
theorem of_run_eq {r r' : Reader α} {P : Phrase α} (h : Reads r' s P) (hr : r.run s = r'.run s) :
    Reads r s P := by
  unfold Reads
  rw [hr]
  exact h

theorem pure (hs : s.Visible) (a : α) : Reads (pure a) s fun p b _ => p = [] ∧ b = a := by
  refine ⟨hs, ⟨[],rfl,rfl,rfl⟩, ?_⟩
  rintro p b us hp ⟨rfl, rfl⟩
  exact ⟨rfl,hp.symm⟩

/-- Nothing is read where what may be missing does not begin. -/
theorem nothing {P : Phrase (Option α)} (hs : s.Visible) (hnone : P [] none s.unread)
    (hempty : ∀ p us, P p none us → p = [])
    (hsome : ∀ p a us, s.unread = p ++ us → ¬ P p (some a) us) : Reads (Pure.pure none) s P := by
  refine (pure hs none).congr fun p o us hp => ?_
  cases o with
  | none =>
    constructor
    · rintro ⟨rfl, -⟩
      rwa [hp] at hnone
    · exact fun h => ⟨hempty p us h, rfl⟩
  | some a =>
    constructor
    · rintro ⟨-, h⟩
      cases h
    · exact fun h => absurd h (hsome p a us hp)

theorem bind {x : Reader α} {f : α → Reader β} {P : Phrase α} {Q : α → Phrase β}
    (hx : Reads x s P)
    (hf : ∀ a p t, t.Visible → s.unread = p ++ t.unread → P p a t.unread → Reads (f a) t (Q a)) :
    Reads (x >>= f) s (P.andThen Q) := by
  unfold Reads at hx ⊢
  rw [run_bind]
  match x.run s, hx with
  | .ok a t, ⟨ht, ⟨p, hp, hP⟩, hu⟩ =>
    have hb := hf a p t ht hp hP
    unfold Reads at hb
    -- However the phrase divides the tokens, its first half ends where `x` has ended.
    have seam : ∀ q b us, s.unread = q ++ us → P.andThen Q q b us →
        ∃ r, t.unread = r ++ us ∧ Q a r b us := by
      rintro q b us hq ⟨q₁, q₂, a', rfl, hP', hQ⟩
      obtain ⟨rfl, hr⟩ := hu q₁ a' (q₂ ++ us) (by rw [hq, List.append_assoc]) hP'
      exact ⟨q₂, hr.symm, hQ⟩
    dsimp only
    match (f a).run t, hb with
    | .ok c v, ⟨hv, ⟨q, hq, hQ⟩, hw⟩ =>
      refine ⟨hv, ⟨p ++ q, by rw [hp, hq, List.append_assoc], p, q, a, rfl, by rwa [← hq], hQ⟩, ?_⟩
      intro q' b' us hq' hPQ
      obtain ⟨r, hr, hQ'⟩ := seam q' b' us hq' hPQ
      exact hw r b' us hr hQ'
    | .error (.rejected _) v, hb =>
      refine ⟨hb.1, fun q' b' us hq' hPQ => ?_⟩
      obtain ⟨r, hr, hQ'⟩ := seam q' b' us hq' hPQ
      exact hb.2 r b' us hr hQ'
  | .error (.rejected _) t, hx =>
    refine ⟨hx.1, ?_⟩
    rintro q b us hq ⟨q₁, q₂, a, rfl, hP, -⟩
    exact hx.2 q₁ a (q₂ ++ us) (by rw [hq, List.append_assoc]) hP

end Reads
end Reader
end ClassText
