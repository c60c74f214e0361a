import ClassText.Lexeme.Stream
import Mathlib.Tactic.Common

/-! Texts and the tokens that they spell, without places, and how both show in the first step of reading
the text. -/
namespace ClassText.Lexeme

/-- The characters spell the tokens. -/
inductive Spells : List Char → List Token → Prop
  | done : (splitLayout cs).2 = [] → Spells cs []
  | token : (splitLayout cs).2 = c :: ds → splitToken c ds = .ok s → Spells s.rest ts →
      Spells cs (s.token :: ts)

/-- A literal that announces no radix is decimal. -/
theorem splitRadix_cases (cs : List Char) :
    (splitRadix cs).2.1 ≠ [] ∨ splitRadix cs = (.decimal, [], cs) := by
  unfold splitRadix
  split <;> simp

theorem splitInteger_taken_ne_nil {c : Char} {cs : List Char} (hc : c.isDigit = true) :
    (splitInteger (c :: cs)).taken ≠ [] := by
  unfold splitInteger
  obtain h | h := splitRadix_cases (c :: cs)
  · simp [h]
  · simp [h, Radix.accepts, Radix.digit?, hc]

theorem splitToken_taken_ne_nil {c : Char} {cs : List Char} {s : Split}
    (h : splitToken c cs = .ok s) : s.taken ≠ [] := by
  unfold splitToken at h
  have quoted {quote : Char} {make : String → Token} (h : splitQuoted quote make cs = .ok s) :
      s.taken ≠ [] := by
    unfold splitQuoted at h
    split at h
    · cases h
    · cases h
      simp
  split at h
  · exact quoted h
  split at h
  · exact quoted h
  split at h
  · next hc =>
    cases h
    exact splitInteger_taken_ne_nil hc
  split at h
  · next hc =>
    cases h
    simp [hc]
  split at h
  · cases h
  split at h
  · next sign _ =>
    cases h
    exact sign.spelling_ne_nil
  · cases h

/-- A token and the layout before it shorten the text. -/
theorem length_rest_lt {cs ds : List Char} {c : Char} {s : Split} (hl : (splitLayout cs).2 = c :: ds)
    (hs : splitToken c ds = .ok s) : s.rest.length < cs.length := by
  have hlayout := congrArg List.length (splitLayout_append cs)
  have htoken := congrArg List.length (splitToken_append hs)
  have hne := List.length_pos_iff.2 (splitToken_taken_ne_nil hs)
  rw [List.length_append] at hlayout htoken
  rw [hl] at hlayout
  omega

theorem spells_nil_iff {ts : List Token} : Spells [] ts ↔ ts = [] := by
  constructor
  · intro h
    cases h with
    | done => rfl
    | token hl => cases hl
  · rintro rfl
    exact .done rfl

/-- What a text spells depends on what stands behind its layout only. -/
theorem Spells.of_layout {cs ds : List Char} {ts : List Token} (h : Spells cs ts)
    (he : (splitLayout ds).2 = (splitLayout cs).2) : Spells ds ts := by
  cases h with
  | done hl => exact .done (he.trans hl)
  | token hl hs hr => exact .token (he.trans hl) hs hr

theorem step_of_nil {t : Tail} (hl : (splitLayout t.text).2 = []) : t.step = .done := by
  unfold Tail.step
  simp [hl]

theorem step_of_error {t : Tail} {c : Char} {ds : List Char} {flaw : Flaw}
    (hl : (splitLayout t.text).2 = c :: ds) (hs : splitToken c ds = .error flaw) :
    ∃ e, t.step = .error e := by
  unfold Tail.step
  simp [hl, hs]

theorem step_of_ok {t : Tail} {c : Char} {ds : List Char} {s : Split}
    (hl : (splitLayout t.text).2 = c :: ds) (hs : splitToken c ds = .ok s) :
    ∃ l after, t.step = .token l after ∧ l.token = s.token ∧ after.text = s.rest := by
  unfold Tail.step
  simp [hl, hs]

/-- A step that gives a token has taken it from behind the layout. -/
theorem exists_split_of_step {t after : Tail} {l : Located} (h : t.step = .token l after) :
    ∃ c ds s, (splitLayout t.text).2 = c :: ds ∧ splitToken c ds = .ok s ∧
      l = ⟨s.token, t.position.after (splitLayout t.text).1,
        (t.position.after (splitLayout t.text).1).spanOver s.taken⟩ ∧
      after = ⟨(t.position.after (splitLayout t.text).1).after s.taken, s.rest⟩ := by
  cases hl : (splitLayout t.text).2 with
  | nil =>
    rw [step_of_nil hl] at h
    cases h
  | cons c ds =>
    cases hs : splitToken c ds with
    | error flaw =>
      obtain ⟨e, he⟩ := step_of_error hl hs
      rw [he] at h
      cases h
    | ok s =>
      simp only [Tail.step, hl, hs, Step.token.injEq] at h
      exact ⟨c, ds, s, rfl, hs, h.1.symm, h.2.symm⟩

/-- A step that gives an error has found no token behind the layout. -/
theorem exists_split_of_error {t : Tail} {e : LexicalError} (h : t.step = .error e) :
    ∃ c ds flaw, (splitLayout t.text).2 = c :: ds ∧ splitToken c ds = .error flaw ∧
      e = flaw.toError (t.position.after (splitLayout t.text).1) := by
  cases hl : (splitLayout t.text).2 with
  | nil =>
    rw [step_of_nil hl] at h
    cases h
  | cons c ds =>
    cases hs : splitToken c ds with
    | error flaw =>
      simp only [Tail.step, hl, hs, Step.error.injEq] at h
      exact ⟨c, ds, flaw, rfl, hs, h.symm⟩
    | ok s =>
      obtain ⟨l, after, hstep, -⟩ := step_of_ok hl hs
      rw [hstep] at h
      cases h

/-- The layout, the token behind it and what follows make up the text. -/
theorem text_eq_of_split {text : List Char} {c : Char} {ds : List Char} {s : Split}
    (hl : (splitLayout text).2 = c :: ds) (hs : splitToken c ds = .ok s) :
    text = (splitLayout text).1 ++ s.taken ++ s.rest := by
  rw [List.append_assoc, splitToken_append hs, ← hl, splitLayout_append]

theorem length_lt_of_step {t after : Tail} {l : Located} (h : t.step = .token l after) :
    after.text.length < t.text.length := by
  obtain ⟨c, ds, s, hl, hs, -, rfl⟩ := exists_split_of_step h
  exact length_rest_lt hl hs

theorem splitLayout_of_done {t : Tail} (h : t.step = .done) : (splitLayout t.text).2 = [] := by
  cases hl : (splitLayout t.text).2 with
  | nil => rfl
  | cons c ds =>
    cases hs : splitToken c ds with
    | error flaw =>
      obtain ⟨e, he⟩ := step_of_error hl hs
      rw [h] at he
      cases he
    | ok s =>
      obtain ⟨_, _, he, -, -⟩ := step_of_ok hl hs
      rw [h] at he
      cases he

/-- What a text spells shows in its first step. -/
theorem Spells.step {t : Tail} {ts : List Token} (h : Spells t.text ts) : (t.step = .done ∧ ts = []) ∨
    ∃ l after us, t.step = .token l after ∧ ts = l.token :: us ∧ Spells after.text us := by
  cases h with
  | done hl => exact .inl ⟨step_of_nil hl, rfl⟩
  | token hl hs hr =>
    obtain ⟨l, after, hstep, ht, hafter⟩ := step_of_ok hl hs
    exact .inr ⟨l, after, _, hstep, by rw [ht], by rwa [hafter]⟩

theorem spells_of_token {t after : Tail} {l : Located} {ts : List Token} (h : t.step = .token l after)
    (hts : Spells after.text ts) : Spells t.text (l.token :: ts) := by
  obtain ⟨c, ds, s, hl, hs, rfl, rfl⟩ := exists_split_of_step h
  exact .token hl hs hts

end ClassText.Lexeme
