import ClassText.Proofs.Lexeme.Alone
import Mathlib.Computability.Language

/-! Integer literals as patterns of characters, and that the literal which is taken for a token is the
longest that fits its pattern. -/
namespace ClassText.Lexeme

open scoped Computability

/-- The text of a pattern that stands at the head of another text, where no longer one does. -/
def LongestOf (pattern : Language Char) (lexeme text : List Char) : Prop :=
  lexeme ∈ pattern ∧ lexeme <+: text ∧ ∀ w ∈ pattern, w <+: text → w.length ≤ lexeme.length

/-- One of the given characters. -/
def oneOf (cs : List Char) : Language Char := {w | ∃ c ∈ cs, w = [c]}

namespace Radix

/-- In usual notation the patterns are `0x[0-9a-f]*L?`, `0b[01]*L?` and `[0-9][0-9_]*L?`. -/
def pattern : Radix → Language Char
  | decimal => oneOf decimalDigits * (oneOf decimal.chars)∗ * (1 + {['L']})
  | r => {r.mark} * (oneOf r.chars)∗ * (1 + {['L']})

end Radix

theorem mem_oneOf_star {cs w : List Char} : w ∈ (oneOf cs)∗ ↔ ∀ c ∈ w, c ∈ cs := by
  rw [Language.mem_kstar]
  constructor
  · rintro ⟨ws, rfl, h⟩ c hc
    obtain ⟨w, hw, hcw⟩ := List.mem_flatten.1 hc
    obtain ⟨d, hd, rfl⟩ := h w hw
    rwa [List.mem_singleton.1 hcw]
  · intro h
    refine ⟨w.map fun c => [c], ?_, fun v hv => ?_⟩
    · rw [← List.flatMap_def, List.flatMap_singleton']
    · obtain ⟨c, hc, rfl⟩ := List.mem_map.1 hv
      exact ⟨c, h c hc, rfl⟩

theorem mem_long {w : List Char} : w ∈ (1 + {['L']} : Language Char) ↔ ∃ isLong, w = longMark isLong := by
  rw [Language.mem_add, Language.mem_one]
  constructor
  · rintro (rfl | h)
    · exact ⟨false, rfl⟩
    · exact ⟨true, h⟩
  · rintro ⟨_ | _, rfl⟩
    · exact .inl rfl
    · exact .inr rfl

/-- A beginning, characters of one kind and at most a mark. -/
theorem mem_mul_star_long {start : Language Char} {cs w : List Char} :
    w ∈ start * (oneOf cs)∗ * (1 + {['L']}) ↔ ∃ first ∈ start, ∃ digits isLong,
      w = first ++ digits ++ longMark isLong ∧ ∀ d ∈ digits, d ∈ cs := by
  simp only [Language.mem_mul, mem_oneOf_star, mem_long]
  constructor
  · rintro ⟨_, ⟨first, hf, digits, hd, rfl⟩, _, ⟨isLong, rfl⟩, rfl⟩
    exact ⟨first, hf, digits, isLong, rfl, hd⟩
  · rintro ⟨first, hf, digits, isLong, rfl, hd⟩
    exact ⟨_, ⟨first, hf, digits, hd, rfl⟩, _, ⟨isLong, rfl⟩, rfl⟩

/-- The pattern of a radix are its literals. -/
theorem Radix.mem_pattern {r : Radix} {w : List Char} : w ∈ r.pattern ↔
    ∃ body isLong, w = r.literal body isLong ∧ r.Body body := by
  have announced (hr : r ≠ .decimal) : w ∈ ({r.mark} : Language Char) * (oneOf r.chars)∗ * (1 + {['L']}) ↔
      ∃ body isLong, w = r.literal body isLong ∧ r.Body body := by
    rw [mem_mul_star_long]
    constructor
    · rintro ⟨_, rfl, body, isLong, rfl, hb⟩
      exact ⟨body, isLong, rfl, hb, fun h => absurd h hr⟩
    · rintro ⟨body, isLong, rfl, hb⟩
      exact ⟨_, rfl, body, isLong, rfl, hb.mem_chars⟩
  cases r with
  | hexadecimal => exact announced (by decide)
  | binary => exact announced (by decide)
  | decimal =>
    rw [pattern, mem_mul_star_long]
    constructor
    · rintro ⟨_, ⟨c, hc, rfl⟩, body, isLong, rfl, hb⟩
      refine ⟨c :: body, isLong, rfl, List.forall_mem_cons.2 ⟨List.mem_cons_of_mem _ hc, hb⟩, fun _ => ?_⟩
      exact ⟨c, rfl, mem_decimalDigits_iff.1 hc⟩
    · rintro ⟨body, isLong, rfl, hb⟩
      obtain ⟨c, hc, hd⟩ := hb.first rfl
      obtain ⟨body, rfl⟩ := List.head?_eq_some_iff.1 hc
      exact ⟨[c], ⟨c, mem_decimalDigits_iff.2 hd, rfl⟩, body, isLong, rfl,
        fun d hm => hb.mem_chars d (List.mem_cons_of_mem _ hm)⟩

/-- What a text can go on with after digits is taken, the mark as well. -/
theorem length_le_of_prefix {p : Char → Bool} (hp : p 'L' = false) {digits body : List Char} {isLong : Bool}
    (hd : ∀ d ∈ digits, p d = true) (h : digits ++ longMark isLong <+: body) :
    (digits ++ longMark isLong).length ≤
      (body.takeWhile p ++ longMark (splitLong (body.dropWhile p)).1).length := by
  induction digits generalizing body with
  | nil =>
    cases isLong with
    | false => exact Nat.zero_le _
    | true =>
      obtain ⟨rest, rfl⟩ := h
      simp [longMark, hp, splitLong]
  | cons d digits ih =>
    obtain ⟨rest, rfl⟩ := h
    have htail := ih (fun e he => hd e (List.mem_cons_of_mem _ he))
      (List.prefix_append (digits ++ longMark isLong) rest)
    have hpd := hd d List.mem_cons_self
    simpa [hpd] using htail

/-- The literal at the head of a text is the longest of the pattern that the text announces. -/
theorem longestOf_splitInteger {c : Char} {cs : List Char} (hc : c.isDigit = true) :
    LongestOf (Radix.announcedBy (c :: cs)).pattern (splitInteger (c :: cs)).taken (c :: cs) := by
  obtain ⟨r, body, hr, htext, hb, hi⟩ := @splitInteger_of_isDigit c cs hc
  have happend := splitInteger_append (c :: cs)
  rw [hi] at happend
  rw [← hr, hi]
  refine ⟨Radix.mem_pattern.2 ⟨_, _, rfl, hb⟩, ⟨_, happend⟩, fun w hw hp => ?_⟩
  obtain ⟨digits, isLong, rfl, hd⟩ := Radix.mem_pattern.1 hw
  rw [htext, Radix.literal, List.append_assoc, List.prefix_append_right_inj] at hp
  have hle := length_le_of_prefix (p := r.accepts) (by cases r <;> rfl)
    (fun c hc => r.accepts_iff.2 (hd.mem_chars c hc)) hp
  simp only [Radix.literal, List.append_assoc, List.length_append] at hle ⊢
  omega

end ClassText.Lexeme
