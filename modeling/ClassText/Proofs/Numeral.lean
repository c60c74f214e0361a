import ClassText.Proofs.Munch
import Mathlib.Data.Nat.Digits.Defs

/-! Integer literals and the numbers that they stand for. The digits of a number are read as that number,
and a literal that is read stands for the number with its digits. -/
namespace ClassText.Lexeme

namespace Radix

/-- The digit that a character stands for. -/
def digitValue (c : Char) : Nat := "0123456789abcdef".toList.idxOf c

/-- The number with the digits in a text, where separators do not count. -/
def positional (r : Radix) (cs : List Char) : Nat :=
  Nat.ofDigits r.base ((cs.filter (· ≠ '_')).reverse.map digitValue)

/-- The characters are the digits of the number, with zeros before them and, if they are decimal,
separators anywhere behind the first. -/
structure Writes (r : Radix) (n : Nat) (body : List Char) : Prop where
  digits : ∃ zeros, body.filter (· ≠ '_') = List.replicate zeros '0' ++ Nat.toDigits r.base n
  separators : '_' ∈ body → r = .decimal ∧ body.head? ≠ some '_'

variable {r : Radix} {n : Nat} {body : List Char}

theorem digit?_of_mem_chars {c : Char} (h : c ∈ r.chars) :
    r.digit? c = if c = '_' then none else some (digitValue c) := by
  have hall : r.chars.all (fun c => r.digit? c = if c = '_' then none else some (digitValue c)) = true := by
    cases r <;> decide
  exact of_decide_eq_true (List.all_eq_true.1 hall c h)

/-- Adding up digits from the first to the last gives the number with these digits. -/
theorem value_eq_positional (h : ∀ c ∈ body, c ∈ r.chars) : r.value body = r.positional body := by
  have hdigits : body.filterMap r.digit? = (body.filter (· ≠ '_')).map digitValue := by
    induction body with
    | nil => rfl
    | cons c body ih =>
      have hc := digit?_of_mem_chars (h c List.mem_cons_self)
      have hbody := ih fun d hd => h d (List.mem_cons_of_mem c hd)
      by_cases hs : c = '_'
      · simpa [hs, r.digit?_separator] using hbody
      · rw [if_neg hs] at hc
        rw [List.filterMap_cons_some hc, hbody, List.filter_cons_of_pos (by simpa using hs), List.map_cons]
  rw [value, positional, hdigits, List.map_reverse, Nat.ofDigits_eq_foldr, List.foldr_reverse]
  simp only [Nat.cast_id, Nat.add_comm, Nat.mul_comm]

theorem Writes.value_eq (h : r.Writes n body) : r.value body = n := by
  obtain ⟨zeros, hz⟩ := h.digits
  rw [← r.value_filter, hz, value_zeros_append, value_toDigits]

theorem Writes.isBody (h : r.Writes n body) : r.Body body := by
  obtain ⟨zeros, hz⟩ := h.digits
  have hdigit : ∀ c ∈ body, c ≠ '_' → c ∈ r.chars := by
    intro c hc hne
    have hm : c ∈ List.replicate zeros '0' ++ Nat.toDigits r.base n := hz ▸ List.mem_filter.2 ⟨hc, by simpa⟩
    obtain hm | hm := List.mem_append.1 hm
    · rw [List.eq_of_mem_replicate hm]
      cases r <;> decide
    · exact r.mem_chars_toDigits n c hm
  have hsep : '_' ∈ body → '_' ∈ r.chars := fun hs => by
    rw [(h.separators hs).1]
    decide
  refine ⟨fun c hc => ?_, ?_⟩
  · by_cases hne : c = '_'
    · exact hne ▸ hsep (hne ▸ hc)
    · exact hdigit c hc hne
  · rintro rfl
    cases body with
    | nil => exact absurd (List.append_eq_nil_iff.1 hz.symm).2 Nat.toDigits_ne_nil
    | cons c body =>
      have hne : c ≠ '_' := by
        rintro rfl
        exact (h.separators List.mem_cons_self).2 rfl
      have hm := hdigit c List.mem_cons_self hne
      exact ⟨c, rfl, mem_decimalDigits_iff.1 (List.mem_of_ne_of_mem hne hm)⟩

end Radix

/-- A literal at the head of a text is the first token of it. -/
theorem step_literal {r : Radix} {body rest : List Char} {isLong : Bool} (p : Position) (hb : r.Body body)
    (hrest : isLong = false → r.EndsBefore body rest) :
    Tail.step ⟨p, r.literal body isLong ++ rest⟩ =
      .token ⟨.integer (r.value body) isLong, p, p.spanOver (r.literal body isLong)⟩
        ⟨p.after (r.literal body isLong), rest⟩ := by
  have hsplit := splitInteger_literal hb hrest
  obtain ⟨c, cs, hcs, hc⟩ := hb.literal_cons isLong
  have hlayout : splitLayout (c :: (cs ++ rest)) = ([], c :: (cs ++ rest)) :=
    splitLayout_rest (splitLayout_word (Text.isWordChar_of_isDigit hc))
  have htoken := @splitToken_of_isDigit c (cs ++ rest) hc
  rw [hcs, List.cons_append] at hsplit ⊢
  rw [hsplit] at htoken
  simp only [Tail.step, hlayout, htoken, Position.after_nil]

/-- However a number is written, it is read as that number, whatever follows that is no more of it. And
every integer that is read from a source stands there as a literal with its digits, also before an
error. -/
theorem integers_positional :
    (∀ (r : Radix) (n : Nat) (body rest : List Char) (isLong : Bool) (source : String),
      r.Writes n body → (isLong = false → r.EndsBefore body rest) →
      source.toList = r.literal body isLong ++ rest →
      let lexeme := r.literal body isLong
      let l : Located := ⟨.integer n isLong, .origin, ⟨0, String.utf8Len lexeme⟩⟩
      let place := Position.origin.after lexeme
      Scanner.next.run (.ofSource source) = .ok (some l) ⟨place, rest⟩ ∧
        (Stream.ofSource source).next = (some (.ok l), ⟨⟨place, rest⟩, false⟩)) ∧
    ∀ (source : String) (ls : List Located), Scanner.Gives (.ofSource source) ls →
      ∀ l ∈ ls, ∀ value isLong, l.token = .integer value isLong →
        ∃ (r : Radix) (before body behind : List Char), r.Body body ∧
          source.toList = before ++ r.literal body isLong ++ behind ∧
          l.position = Position.origin.after before ∧
          l.span = ⟨String.utf8Len before,
            String.utf8Len before + String.utf8Len (r.literal body isLong)⟩ ∧
          value = r.positional body := by
  refine ⟨fun r n body rest isLong source hw hrest hsource => ?_, fun source ls hls l hl value isLong ht => ?_⟩
  · have hspan : Position.origin.spanOver (r.literal body isLong) =
        ⟨0, String.utf8Len (r.literal body isLong)⟩ := by
      simpa using Position.spanOver_after_origin [] (r.literal body isLong)
    have hstep := step_literal .origin hw.isBody hrest
    rw [hw.value_eq, ← hsource, hspan] at hstep
    refine ⟨Scanner.run_next_some_iff.2 hstep, ?_⟩
    have hnext : (Tail.ofSource source).step = _ := hstep
    simp only [Stream.next, Stream.ofSource, hnext, Bool.false_eq_true, if_false]
  · have hmem : l ∈ (Tail.ofSource source).scan.tokens := (Scanner.gives_iff.1 hls).subset hl
    obtain ⟨before, lexeme, behind, hsource, hp, hs, hd⟩ := @cutFrom_of_scan _ [] rfl l hmem
    rw [ht] at hd
    obtain ⟨r, body, hb, rfl, hv⟩ := hd.eq_literal
    exact ⟨r, before, body, behind, hb, hsource, hp, Located.CutFrom.span_eq hp hs,
      hv.trans (Radix.value_eq_positional hb.mem_chars)⟩

/-- Zeros and separators count for nothing, and the letters behind the literal belong to a name. -/
theorem integers_positional_separated :
    let body := "00_4__2".toList
    Radix.decimal.Writes 42 body ∧ Radix.decimal.EndsBefore body ['x', 'b'] ∧
      Scanner.next.run (.ofSource "00_4__2xb") =
        .ok (some ⟨.integer 42 false, .origin, ⟨0, 7⟩⟩) ⟨⟨1, 8, 7⟩, ['x', 'b']⟩ ∧
      ∃ l, Scanner.Gives (.ofSource "00_4__2xb") [l] ∧ l.token = .integer 42 false ∧
        ∃ (r : Radix) (before body behind : List Char), r.Body body ∧
          "00_4__2xb".toList = before ++ r.literal body false ++ behind ∧
          l.position = Position.origin.after before ∧
          l.span = ⟨String.utf8Len before,
            String.utf8Len before + String.utf8Len (r.literal body false)⟩ ∧
          42 = r.positional body := by
  intro body
  have hw : Radix.decimal.Writes 42 body := ⟨⟨2, by decide⟩, fun _ => ⟨rfl, by decide⟩⟩
  have hends : Radix.decimal.EndsBefore body ['x', 'b'] := by
    intro c hc
    obtain rfl : 'x' = c := by simpa using hc
    decide
  obtain ⟨hnext, -⟩ := integers_positional.1 .decimal 42 body ['x', 'b'] false "00_4__2xb" hw
    (fun _ => hends) rfl
  refine ⟨hw, hends, hnext, _, .cons hnext .nil, rfl, ?_⟩
  exact integers_positional.2 "00_4__2xb" _ (.cons hnext .nil) _ List.mem_cons_self 42 false rfl

end ClassText.Lexeme
