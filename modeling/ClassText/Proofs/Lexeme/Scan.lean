import ClassText.Proofs.Lexeme.Spelling

/-! The tokens of a text from some place on, without a bound on their number: they come step by step, and
what holds of a text if it holds of what each step leaves of it holds of every text. -/
namespace ClassText.Lexeme

namespace Tail

/-- The tokens of the text, up to its first error. -/
def scan (t : Tail) : Scan := scanWithin t.text.length t

/-- More rounds than the text has characters change nothing. -/
theorem scanWithin_eq_scan {n : Nat} (t : Tail) (h : t.text.length ≤ n) : scanWithin n t = t.scan := by
  have hsucc : ∀ (n : Nat) (t : Tail), t.text.length ≤ n → scanWithin (n + 1) t = scanWithin n t := by
    intro n
    induction n with
    | zero =>
      intro t h
      have hnil : t.text = [] := List.length_eq_zero_iff.1 (by omega)
      have hstep : t.step = .done := step_of_nil (by rw [hnil]; rfl)
      simp only [scanWithin, hstep]
    | succ n ih =>
      intro t h
      rw [scanWithin, scanWithin]
      cases hstep : t.step with
      | done => rfl
      | error e => rfl
      | token l after =>
        have hlt := length_lt_of_step hstep
        simp only [ih after (by omega)]
  induction h with
  | refl => rfl
  | step h ih => rw [hsucc _ t h, ih]

theorem scan_of_done {t : Tail} (h : t.step = .done) : t.scan = ⟨[], none⟩ := by
  rw [← t.scanWithin_eq_scan (Nat.le_succ _), scanWithin, h]

theorem scan_of_error {t : Tail} {e : LexicalError} (h : t.step = .error e) :
    t.scan = ⟨[], some e⟩ := by
  rw [← t.scanWithin_eq_scan (Nat.le_succ _), scanWithin, h]

theorem scan_of_token {t after : Tail} {l : Located} (h : t.step = .token l after) :
    t.scan = ⟨l :: after.scan.tokens, after.scan.error⟩ := by
  have hlt := length_lt_of_step h
  rw [← t.scanWithin_eq_scan (Nat.le_succ _), scanWithin, h]
  simp only [after.scanWithin_eq_scan (Nat.le_of_lt hlt)]

/-- What passes from what a step leaves to the text before it holds of every text. -/
theorem step_induct {P : Tail → Prop} (h : ∀ t, (∀ l after, t.step = .token l after → P after) → P t)
    (t : Tail) : P t := by
  induction hn : t.text.length using Nat.strongRecOn generalizing t with
  | ind n ih =>
    apply h
    intro l after hstep
    have hlt := length_lt_of_step hstep
    exact ih after.text.length (by omega) after rfl

/-- The tokens of a text are those that it spells. -/
theorem scan_iff {t : Tail} {ts : List Token} :
    (t.scan.error = none ∧ t.scan.tokens.map (·.token) = ts) ↔ Spells t.text ts := by
  induction t using step_induct generalizing ts with
  | h t ih =>
    cases hs : t.step with
    | done =>
      rw [scan_of_done hs]
      constructor
      · rintro ⟨-, rfl⟩
        exact .done (splitLayout_of_done hs)
      · intro h
        obtain ⟨-, rfl⟩ | ⟨l, after, us, hstep, -⟩ := h.step
        · exact ⟨rfl, rfl⟩
        · rw [hs] at hstep
          cases hstep
    | error e =>
      rw [scan_of_error hs]
      constructor
      · rintro ⟨he, -⟩
        cases he
      · intro h
        obtain ⟨hstep, -⟩ | ⟨l, after, us, hstep, -⟩ := h.step
        all_goals
          rw [hs] at hstep
          cases hstep
    | token l after =>
      rw [scan_of_token hs]
      constructor
      · rintro ⟨he, rfl⟩
        exact spells_of_token hs ((ih l after hs).1 ⟨he, rfl⟩)
      · intro h
        obtain ⟨hstep, -⟩ | ⟨m, more, us, hstep, rfl, hus⟩ := h.step
        · rw [hs] at hstep
          cases hstep
        · rw [hs] at hstep
          cases hstep
          obtain ⟨he, ht⟩ := (ih l after hs).2 hus
          exact ⟨he, congrArg (l.token :: ·) ht⟩

end Tail

/-- A text without error is cut into the tokens that its steps give. -/
theorem tokenize_eq_ok_iff {source : String} {ls : List Located} :
    tokenize source = .ok ls ↔ (Tail.ofSource source).scan = ⟨ls, none⟩ := by
  have hscan : (Tail.ofSource source).scan = scan source := rfl
  rw [hscan, tokenize]
  cases h : scan source with
  | mk tokens error => cases error <;> simp

theorem tokenize_eq_error_iff {source : String} {e : LexicalError} :
    tokenize source = .error e ↔ (Tail.ofSource source).scan.error = some e := by
  have hscan : (Tail.ofSource source).scan = scan source := rfl
  rw [hscan, tokenize]
  cases h : scan source with
  | mk tokens error => cases error <;> simp

/-- A text is cut into tokens exactly as it spells them. -/
theorem tokenize_iff {source : String} {ts : List Token} :
    (∃ ls, tokenize source = .ok ls ∧ ls.map (·.token) = ts) ↔ Spells source.toList ts := by
  refine Iff.trans ?_ (Tail.ofSource source).scan_iff
  constructor
  · rintro ⟨ls, h, rfl⟩
    rw [tokenize_eq_ok_iff.1 h]
    exact ⟨rfl, rfl⟩
  · rintro ⟨he, rfl⟩
    refine ⟨(Tail.ofSource source).scan.tokens, tokenize_eq_ok_iff.2 ?_, rfl⟩
    rw [← he]

end ClassText.Lexeme
