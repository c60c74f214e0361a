import ClassText.Proofs.Lexeme.Word

/-! Integer literals: what announces a radix, the characters of its digits, and a mark for the long ones.
A literal at the head of a text is split off whole where what follows cannot be taken for more of it, and
the digits of a number have that number as their value. -/
namespace ClassText.Lexeme

def decimalDigits : List Char := ['0', '1', '2', '3', '4', '5', '6', '7', '8', '9']

theorem mem_of_toNat_mem {c : Char} {cs : List Char} (h : c.toNat ∈ cs.map Char.toNat) : c ∈ cs := by
  obtain ⟨d, hd, he⟩ := List.mem_map.1 h
  rwa [← Char.toNat_inj.1 he]

theorem mem_decimalDigits_iff {c : Char} : c ∈ decimalDigits ↔ c.isDigit = true := by
  constructor
  · have h : decimalDigits.all Char.isDigit = true := by decide
    exact List.all_eq_true.1 h c
  · intro h
    simp only [Char.isDigit, Bool.and_eq_true, decide_eq_true_eq, ge_iff_le,
      UInt32.le_iff_toNat_le] at h
    have hr : decimalDigits.map Char.toNat = List.range' 48 10 := by decide
    refine mem_of_toNat_mem ?_
    rw [hr, List.mem_range'_1]
    exact ⟨h.1, Nat.lt_succ_of_le h.2⟩

theorem mem_hexadecimalLetters {c : Char} (h : 'a' ≤ c ∧ c ≤ 'f') :
    c ∈ ['a', 'b', 'c', 'd', 'e', 'f'] := by
  simp only [Char.le_def, UInt32.le_iff_toNat_le] at h
  have hr : ['a', 'b', 'c', 'd', 'e', 'f'].map Char.toNat = List.range' 97 6 := by decide
  refine mem_of_toNat_mem ?_
  rw [hr, List.mem_range'_1]
  exact ⟨h.1, Nat.lt_succ_of_le h.2⟩

namespace Radix

/-- The characters that announce the radix. -/
def mark : Radix → List Char
  | hexadecimal => ['0', 'x']
  | binary => ['0', 'b']
  | decimal => []

/-- The characters of a literal behind what announces it. -/
def chars : Radix → List Char
  | hexadecimal => decimalDigits ++ ['a', 'b', 'c', 'd', 'e', 'f']
  | binary => ['0', '1']
  | decimal => '_' :: decimalDigits

theorem decimal_accepts_of_isDigit {c : Char} (h : c.isDigit = true) : decimal.accepts c = true := by
  simp [accepts, digit?, h]

theorem accepts_iff (r : Radix) {c : Char} : r.accepts c = true ↔ c ∈ r.chars := by
  constructor
  · intro h
    cases r with
    | binary =>
      by_cases h0 : c = '0'
      · simp [chars, h0]
      · have h1 : c = '1' := by simpa [accepts, digit?, h0] using h
        simp [chars, h1]
    | decimal =>
      by_cases hd : c.isDigit = true
      · exact List.mem_cons_of_mem _ (mem_decimalDigits_iff.2 hd)
      · have hsep : c = '_' := by simpa [accepts, digit?, hd] using h
        simp [chars, hsep]
    | hexadecimal =>
      by_cases hd : c.isDigit = true
      · exact List.mem_append_left _ (mem_decimalDigits_iff.2 hd)
      · have hl : 'a' ≤ c ∧ c ≤ 'f' := by simpa [accepts, digit?, hd] using h
        exact List.mem_append_right _ (mem_hexadecimalLetters hl)
  · have h : r.chars.all r.accepts = true := by cases r <;> decide
    exact List.all_eq_true.1 h c

/-- What may stand in a literal may stand in a word. -/
theorem isWordChar_of_mem_chars {r : Radix} {c : Char} (h : c ∈ r.chars) : Text.isWordChar c = true := by
  have hall : r.chars.all Text.isWordChar = true := by cases r <;> decide
  exact List.all_eq_true.1 hall c h

/-! The value of digits. -/

theorem digit?_digitChar (r : Radix) {d : Nat} (h : d < r.base) : r.digit? (Nat.digitChar d) = some d := by
  have hall : ∀ d < r.base, r.digit? (Nat.digitChar d) = some d := by cases r <;> decide
  exact hall d h

theorem digit?_separator (r : Radix) : r.digit? '_' = none := by cases r <;> rfl

/-- One more digit stands for units, and moves the others up by one place. -/
theorem value_append_digit {r : Radix} {c : Char} {d : Nat} (h : r.digit? c = some d) (cs : List Char) :
    r.value (cs ++ [c]) = r.value cs * r.base + d := by
  simp [value, List.filterMap_append, h]

theorem one_lt_base (r : Radix) : 1 < r.base := by cases r <;> decide

/-- The digits of a number have that number as their value. -/
theorem value_toDigits (r : Radix) (n : Nat) : r.value (Nat.toDigits r.base n) = n := by
  induction n using Nat.strongRecOn with
  | ind n ih =>
    have hb := r.one_lt_base
    by_cases hn : n < r.base
    · rw [Nat.toDigits_of_lt_base hn]
      simp [value, r.digit?_digitChar hn]
    · have hdiv : n / r.base < n := Nat.div_lt_self (by omega) hb
      rw [Nat.toDigits_of_base_le hb (Nat.le_of_not_lt hn),
        value_append_digit (r.digit?_digitChar (Nat.mod_lt n (by omega))), ih _ hdiv, Nat.div_add_mod']

/-- Leading zeros change nothing. -/
theorem value_zeros_append (r : Radix) (zeros : Nat) (cs : List Char) :
    r.value (List.replicate zeros '0' ++ cs) = r.value cs := by
  have hzero : r.digit? '0' = some 0 := by cases r <;> rfl
  induction zeros with
  | zero => rfl
  | succ zeros ih => simpa [value, List.replicate_succ, hzero] using ih

/-- Separators change nothing. -/
theorem value_filter (r : Radix) (cs : List Char) : r.value (cs.filter (· ≠ '_')) = r.value cs := by
  simp only [value, List.filterMap_filter]
  congr 2
  funext c
  by_cases hc : c = '_'
  · simp [hc, r.digit?_separator]
  · simp [hc]

end Radix

/-- The mark of a long integer, where there is one. -/
def longMark (isLong : Bool) : List Char := if isLong then ['L'] else []

namespace Radix

/-- The text of a literal: what announces its radix, the characters behind that, and its mark. -/
def literal (r : Radix) (body : List Char) (isLong : Bool) : List Char :=
  r.mark ++ body ++ longMark isLong

/-- What may stand between what announces a radix and the mark. Where nothing announces it, it begins
with a digit, which is no separator. -/
structure Body (r : Radix) (body : List Char) : Prop where
  mem_chars : ∀ c ∈ body, c ∈ r.chars
  first : r = .decimal → ∃ c ∈ body.head?, c.isDigit = true

/-- What follows cannot be taken for more of a literal without a mark. Behind a lone zero it could also
announce a radix. -/
def EndsBefore (r : Radix) (body rest : List Char) : Prop :=
  ∀ c ∈ rest.head?, c ∉ r.chars ∧ c ≠ 'L' ∧ (r = .decimal → body = ['0'] → c ≠ 'x' ∧ c ≠ 'b')

/-- The radix that the first two characters of a text announce. -/
def announcedBy (text : List Char) : Radix :=
  if hexadecimal.mark <+: text then hexadecimal
  else if binary.mark <+: text then binary
  else decimal

end Radix

section Literal

variable {r : Radix} {body rest : List Char} {isLong : Bool} {c : Char} {cs : List Char}

theorem splitLong_of_stops {cs : List Char} (h : Stops (· == 'L') cs) :
    splitLong cs = (false, [], cs) := by
  unfold splitLong
  split
  · simp [Stops] at h
  · rfl

theorem splitLong_of_not {cs : List Char} (h : (splitLong cs).1 = false) :
    (splitLong cs).2.2 = cs ∧ 'L' ∉ cs.head? := by
  unfold splitLong at h ⊢
  split at h
  · cases h
  · next hl =>
    refine ⟨rfl, fun hm => ?_⟩
    obtain ⟨more, hmore⟩ := List.head?_eq_some_iff.1 hm
    exact hl more hmore

theorem splitLong_taken (cs : List Char) : (splitLong cs).2.1 = longMark (splitLong cs).1 := by
  unfold splitLong
  split <;> rfl

/-- A digit behind which no letter announces a radix is decimal. -/
theorem splitRadix_decimal (h : ∀ d ∈ cs.head?, d ≠ 'x' ∧ d ≠ 'b') :
    splitRadix ('0' :: cs) = (.decimal, [], '0' :: cs) := by
  unfold splitRadix
  split
  · next hcs =>
    cases hcs
    exact absurd rfl (h 'x' rfl).1
  · next hcs =>
    cases hcs
    exact absurd rfl (h 'b' rfl).2
  · rfl

/-- A literal announces its own radix. -/
theorem splitRadix_literal (hb : r.Body body) (hrest : isLong = false → r.EndsBefore body rest) :
    splitRadix (r.literal body isLong ++ rest) = (r, r.mark, body ++ (longMark isLong ++ rest)) := by
  cases r with
  | hexadecimal | binary => simp [Radix.literal, Radix.mark, splitRadix]
  | decimal =>
    obtain ⟨c, hc, hd⟩ := hb.first rfl
    obtain ⟨digits, rfl⟩ := List.head?_eq_some_iff.1 hc
    simp only [Radix.literal, Radix.mark, List.nil_append, List.append_assoc, List.cons_append]
    by_cases h0 : c = '0'
    · subst h0
      refine splitRadix_decimal fun d hd => ?_
      cases digits with
      | cons e digits =>
        obtain rfl : e = d := by simpa using hd
        have he := hb.mem_chars e (by simp)
        constructor
        all_goals
          rintro rfl
          exact absurd he (by decide)
      | nil =>
        cases isLong with
        | true =>
          obtain rfl : 'L' = d := by simpa [longMark] using hd
          decide
        | false => exact (hrest rfl d (by simpa [longMark] using hd)).2.2 rfl rfl
    · refine splitRadix.eq_3 _ ?_ ?_
      all_goals
        intro es he
        exact h0 (List.cons.inj he).1

/-- A literal is split off whole where what follows cannot be taken for more of it. -/
theorem splitInteger_literal (hb : r.Body body) (hrest : isLong = false → r.EndsBefore body rest) :
    splitInteger (r.literal body isLong ++ rest) =
      ⟨r.value body, isLong, r.literal body isLong, rest⟩ := by
  have hstops : Stops r.accepts (longMark isLong ++ rest) := by
    intro c hc
    cases isLong with
    | true =>
      obtain rfl : 'L' = c := by simpa [longMark] using hc
      cases r <;> rfl
    | false => exact Bool.eq_false_iff.2 fun ha => (hrest rfl c hc).1 (r.accepts_iff.1 ha)
  have hlong : splitLong (longMark isLong ++ rest) = (isLong, longMark isLong, rest) := by
    cases isLong with
    | true => rfl
    | false => exact splitLong_of_stops fun c hc => beq_eq_false_iff_ne.2 (hrest rfl c hc).2.1
  obtain ⟨ht, hr⟩ := takeWhile_append_of_stops (fun c hc => r.accepts_iff.2 (hb.mem_chars c hc)) hstops
  simp only [splitInteger, splitRadix_literal hb hrest, ht, hr, hlong]
  rfl

/-- What a text announces is split off it. -/
theorem splitRadix_eq (text : List Char) : ∃ body,
    splitRadix text = (Radix.announcedBy text, (Radix.announcedBy text).mark, body) ∧
      text = (Radix.announcedBy text).mark ++ body := by
  unfold splitRadix
  split
  · next cs => exact ⟨cs, by simp [Radix.announcedBy, Radix.mark]⟩
  · next cs => exact ⟨cs, by simp [Radix.announcedBy, Radix.mark]⟩
  · next hx hb =>
    have hnot : Radix.announcedBy text = .decimal := by
      unfold Radix.announcedBy
      rw [if_neg, if_neg]
      · rintro ⟨cs, rfl⟩
        exact hb cs rfl
      · rintro ⟨cs, rfl⟩
        exact hx cs rfl
    rw [hnot]
    exact ⟨text, rfl, rfl⟩

/-- Where a digit stands a literal is split off, of the radix that is announced there. -/
theorem splitInteger_of_isDigit (hc : c.isDigit = true) : ∃ r body,
    r = Radix.announcedBy (c :: cs) ∧ c :: cs = r.mark ++ body ∧ r.Body (body.takeWhile r.accepts) ∧
      splitInteger (c :: cs) = ⟨r.value (body.takeWhile r.accepts),
        (splitLong (body.dropWhile r.accepts)).1,
        r.literal (body.takeWhile r.accepts) (splitLong (body.dropWhile r.accepts)).1,
        (splitLong (body.dropWhile r.accepts)).2.2⟩ := by
  obtain ⟨body, hsplit, htext⟩ := splitRadix_eq (c :: cs)
  generalize Radix.announcedBy (c :: cs) = r at hsplit htext ⊢
  have hbody : r.Body (body.takeWhile r.accepts) := by
    refine ⟨fun d hd => r.accepts_iff.1 (List.all_eq_true.1 List.all_takeWhile d hd), ?_⟩
    rintro rfl
    obtain rfl : c :: cs = body := htext
    rw [List.takeWhile_cons_of_pos (Radix.decimal_accepts_of_isDigit hc)]
    exact ⟨c, rfl, hc⟩
  refine ⟨r, body, rfl, htext, hbody, ?_⟩
  simp only [splitInteger, hsplit, splitLong_taken]
  rfl

/-- Where no mark is split off, no more of the literal follows. -/
theorem endsBefore_dropWhile (htext : r.mark ++ body = cs) (hr : r = Radix.announcedBy cs)
    (hl : (splitLong (body.dropWhile r.accepts)).1 = false) :
    r.EndsBefore (body.takeWhile r.accepts) (splitLong (body.dropWhile r.accepts)).2.2 := by
  obtain ⟨hrest, hlong⟩ := splitLong_of_not hl
  rw [hrest]
  intro c hc
  refine ⟨fun hm => ?_, fun he => hlong (he ▸ hc), ?_⟩
  · have hn := List.head?_dropWhile_not r.accepts body
    rw [Option.mem_def.1 hc] at hn
    simp [r.accepts_iff.2 hm] at hn
  · rintro rfl hzero
    have hcs : ∃ more, cs = '0' :: c :: more := by
      obtain ⟨more, hmore⟩ := List.head?_eq_some_iff.1 hc
      refine ⟨more, ?_⟩
      rw [← htext, Radix.mark, List.nil_append, ← @List.takeWhile_append_dropWhile _ _ body, hzero, hmore]
      rfl
    obtain ⟨more, rfl⟩ := hcs
    constructor
    all_goals
      rintro rfl
      simp [Radix.announcedBy, Radix.mark] at hr

/-- What is taken for an integer is a literal of which no more follows, and its value is that of the
digits there. -/
theorem exists_literal (hc : c.isDigit = true) : ∃ r body isLong rest, Radix.Body r body ∧
    (isLong = false → r.EndsBefore body rest) ∧
    splitInteger (c :: cs) = ⟨r.value body, isLong, r.literal body isLong, rest⟩ := by
  obtain ⟨r, body, hr, htext, hb, hi⟩ := @splitInteger_of_isDigit c cs hc
  exact ⟨r, _, _, _, hb, endsBefore_dropWhile htext.symm hr, hi⟩

/-- What is taken for an integer literal is the same literal alone. -/
theorem splitInteger_alone (hc : c.isDigit = true) :
    let i := splitInteger (c :: cs)
    splitInteger i.taken = ⟨i.value, i.isLong, i.taken, []⟩ := by
  obtain ⟨r, body, isLong, rest, hb, -, hi⟩ := @exists_literal c cs hc
  have hrest : r.EndsBefore body [] := fun d hd => by cases hd
  have halone : splitInteger (r.literal body isLong ++ []) = _ := splitInteger_literal hb fun _ => hrest
  rw [hi]
  rwa [List.append_nil] at halone

/-- A literal begins with a digit. -/
theorem Radix.Body.literal_cons (hb : r.Body body) (isLong : Bool) :
    ∃ c cs, r.literal body isLong = c :: cs ∧ c.isDigit = true := by
  cases r with
  | hexadecimal | binary => exact ⟨'0', _, rfl, rfl⟩
  | decimal =>
    obtain ⟨c, hc, hd⟩ := hb.first rfl
    obtain ⟨digits, rfl⟩ := List.head?_eq_some_iff.1 hc
    exact ⟨c, _, rfl, hd⟩

/-- Where a digit stands, the token is an integer. -/
theorem splitToken_of_isDigit (hc : c.isDigit = true) :
    let i := splitInteger (c :: cs)
    splitToken c cs = .ok ⟨.integer i.value i.isLong, i.taken, i.rest⟩ := by
  obtain ⟨hq, hq'⟩ := isWordChar_of_quote (Text.isWordChar_of_isDigit hc)
  simp [splitToken, hq, hq', hc]

end Literal

/-! The canonical text of an integer. -/

theorem Radix.mem_chars_toDigits (r : Radix) (n : Nat) : ∀ c ∈ Nat.toDigits r.base n, c ∈ r.chars := by
  have hchar (d : Nat) (hd : d < r.base) : Nat.digitChar d ∈ r.chars := by
    have hall : ∀ d < r.base, Nat.digitChar d ∈ r.chars := by cases r <;> decide
    exact hall d hd
  induction n using Nat.strongRecOn with
  | ind n ih =>
    have hb := r.one_lt_base
    intro c hc
    by_cases hn : n < r.base
    · rw [Nat.toDigits_of_lt_base hn, List.mem_singleton] at hc
      exact hc ▸ hchar n hn
    · rw [Nat.toDigits_of_base_le hb (Nat.le_of_not_lt hn), List.mem_append, List.mem_singleton] at hc
      obtain hc | rfl := hc
      · exact ih _ (Nat.div_lt_self (by omega) hb) c hc
      · exact hchar _ (Nat.mod_lt n (by omega))

theorem integerText_toList (value : Nat) (isLong : Bool) :
    (integerText value isLong).toList = Radix.decimal.literal (Nat.toDigits 10 value) isLong := by
  cases isLong <;> simp [integerText, Radix.literal, Radix.mark, longMark]

/-- The digits of a number are the characters of a literal. -/
theorem body_toDigits (value : Nat) : Radix.decimal.Body (Nat.toDigits 10 value) where
  mem_chars := Radix.decimal.mem_chars_toDigits value
  first _ := by
    obtain ⟨c, cs, hv⟩ := List.exists_cons_of_ne_nil (Nat.toDigits_ne_nil (n := value) (b := 10))
    have hc : c ∈ Nat.toDigits 10 value := by simp [hv]
    exact ⟨c, by rw [hv]; rfl, Nat.isDigit_of_mem_toDigits (by omega) (by omega) hc⟩

theorem splitInteger_integerText (value : Nat) (isLong : Bool) {ds : List Char}
    (hs : Stops Text.isWordChar ds) :
    splitInteger ((integerText value isLong).toList ++ ds) =
      ⟨value, isLong, (integerText value isLong).toList, ds⟩ := by
  have hends : Radix.decimal.EndsBefore (Nat.toDigits 10 value) ds := by
    intro c hc
    have hw := hs c hc
    refine ⟨fun hm => ?_, ?_, fun _ _ => ⟨?_, ?_⟩⟩
    · rw [Radix.isWordChar_of_mem_chars hm] at hw
      cases hw
    all_goals
      rintro rfl
      cases hw
  have hvalue : Radix.decimal.value (Nat.toDigits 10 value) = value := Radix.decimal.value_toDigits value
  rw [integerText_toList, splitInteger_literal (body_toDigits value) fun _ => hends, hvalue]

theorem integerText_cons (value : Nat) (isLong : Bool) :
    ∃ c cs, (integerText value isLong).toList = c :: cs ∧ c.isDigit = true := by
  rw [integerText_toList]
  exact (body_toDigits value).literal_cons isLong

theorem Spells.integer (value : Nat) (isLong : Bool) {ds : List Char} {ts : List Token}
    (h : Spells ds ts) (hs : Stops Text.isWordChar ds) :
    Spells ((integerText value isLong).toList ++ ds) (.integer value isLong :: ts) := by
  have hi := splitInteger_integerText value isLong hs
  obtain ⟨c, cs, hv, hc⟩ := integerText_cons value isLong
  rw [hv, List.cons_append] at hi ⊢
  have ht := @splitToken_of_isDigit c (cs ++ ds) hc
  rw [hi] at ht
  exact h.cons (splitLayout_word (Text.isWordChar_of_isDigit hc)) ht

end ClassText.Lexeme
