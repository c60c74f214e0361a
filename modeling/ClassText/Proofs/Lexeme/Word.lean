import ClassText.Proofs.Lexeme.Scan

/-! Which characters stand where: words and numbers at the head of a text, as far as they reach. -/
namespace ClassText

namespace Text

theorem exists_range_of_within {rs : List (Nat × Nat)} {n : Nat} (h : within rs n = true) :
    ∃ r ∈ rs, r.1 ≤ n ∧ n ≤ r.2 := by
  induction rs with
  | nil => cases h
  | cons r rs ih =>
    obtain ⟨low, high⟩ := r
    by_cases hlow : n < low
    · simp [within, hlow] at h
    · by_cases hhigh : n ≤ high
      · exact ⟨(low,high), List.mem_cons_self, Nat.le_of_not_lt hlow, hhigh⟩
      · simp only [within, hlow, if_false, hhigh, decide_false, Bool.false_or] at h
        obtain ⟨r, hr, hb⟩ := ih h
        exact ⟨r, List.mem_cons_of_mem _ hr, hb⟩

/-- The numbers of a table of ranges, one by one. -/
def members (rs : List (Nat × Nat)) : List Nat :=
  rs.flatMap fun r => List.range' r.1 (r.2 + 1 - r.1)

theorem mem_members {rs : List (Nat × Nat)} {n : Nat} (h : within rs n = true) : n ∈ members rs := by
  obtain ⟨r, hr, hlow, hhigh⟩ := exists_range_of_within h
  refine List.mem_flatMap.2 ⟨r, hr, List.mem_range'_1.2 ?_⟩
  omega

/-- No blank character is part of a word. -/
theorem isWordChar_of_isBlank {c : Char} (h : isBlank c = true) : isWordChar c = false := by
  have hc := mem_members h
  have hn : ∀ n ∈ members blankRanges, within alphanumericRanges n = false ∧ n ≠ '_'.toNat := by
    decide +kernel
  obtain ⟨ha, hu⟩ := hn c.toNat hc
  have hne : c ≠ '_' := fun he => hu (congrArg Char.toNat he)
  rw [isWordChar, isAlphanumeric, ha, Bool.or_false]
  exact beq_eq_false_iff_ne.2 hne

theorem within_head {low high n : Nat} {rs : List (Nat × Nat)} (hlow : low ≤ n) (hhigh : n ≤ high) :
    within ((low,high) :: rs) n = true := by
  simp [within, Nat.not_lt.2 hlow, hhigh]

theorem isWordChar_of_isDigit {c : Char} (h : c.isDigit = true) : isWordChar c = true := by
  simp only [Char.isDigit, Bool.and_eq_true, decide_eq_true_eq, ge_iff_le,
    UInt32.le_iff_toNat_le] at h
  have hw : isAlphanumeric c = true := within_head h.1 h.2
  rw [isWordChar, hw, Bool.or_true]

end Text
namespace Lexeme

/-- A run of word characters that does not begin with a digit and spells no reserved word. -/
def isWord (s : String) : Bool :=
  match s.toList with
  | [] => false
  | c :: cs =>
    !c.isDigit && (c :: cs).all Text.isWordChar && (Keyword.ofSpelling? s).isNone

theorem isWord_iff {s : String} : isWord s = true ↔ ∃ c cs, s.toList = c :: cs ∧ c.isDigit = false ∧
    (∀ d ∈ c :: cs, Text.isWordChar d = true) ∧ Keyword.ofSpelling? s = none := by
  unfold isWord
  cases s.toList with
  | nil => simp
  | cons c cs => simp [and_assoc]

theorem isBlankText_of_isWord {s : String} (h : isWord s = true) : Text.isBlankText s = false := by
  obtain ⟨c, cs, hs, -, hw, -⟩ := isWord_iff.1 h
  have hc : Text.isBlank c = false := by
    cases hb : Text.isBlank c with
    | false => rfl
    | true =>
      have := hw c List.mem_cons_self
      rw [Text.isWordChar_of_isBlank hb] at this
      cases this
  simp [Text.isBlankText, hs, hc]

/-- No character that a predicate accepts stands at the head of the text. -/
def Stops (p : Char → Bool) (cs : List Char) : Prop := ∀ c ∈ cs.head?, p c = false

theorem Stops.of_implies {p q : Char → Bool} {cs : List Char} (h : Stops p cs)
    (hq : ∀ c, q c = true → p c = true) : Stops q cs := by
  intro c hc
  cases hqc : q c with
  | false => rfl
  | true => exact absurd (hq c hqc) (by simp [h c hc])

theorem takeWhile_append_of_stops {p : Char → Bool} {cs ds : List Char} (hc : ∀ c ∈ cs, p c = true)
    (hd : Stops p ds) : (cs ++ ds).takeWhile p = cs ∧ (cs ++ ds).dropWhile p = ds := by
  rw [List.takeWhile_append_of_pos hc, List.dropWhile_append_of_pos hc]
  cases ds with
  | nil => simp
  | cons d ds => simp [hd d rfl]

theorem isWordChar_of_quote {c : Char} (h : Text.isWordChar c = true) : c ≠ '\x27' ∧ c ≠ '\x22' := by
  constructor
  · rintro rfl
    cases h
  · rintro rfl
    cases h

/-- A word ends where no further character can belong to it. -/
theorem splitToken_word {c : Char} {cs ds : List Char} (hd : c.isDigit = false)
    (hw : ∀ d ∈ c :: cs, Text.isWordChar d = true) (hs : Stops Text.isWordChar ds) :
    splitToken c (cs ++ ds) = .ok ⟨wordToken (String.ofList (c :: cs)), c :: cs, ds⟩ := by
  have hc := hw c List.mem_cons_self
  obtain ⟨hq, hq'⟩ := isWordChar_of_quote hc
  obtain ⟨ht, hr⟩ := takeWhile_append_of_stops hw hs
  rw [List.cons_append] at ht hr
  simp [splitToken, hq, hq', hd, hc, ht, hr]

/-- Layout ends where a character that is neither blank nor a slash stands. -/
theorem splitLayout_cons {c : Char} {cs : List Char} (hb : Text.isBlank c = false) (hs : c ≠ '/') :
    (splitLayout (c :: cs)).2 = c :: cs := by
  unfold splitLayout
  split <;> simp_all

theorem splitLayout_blank {c : Char} {cs : List Char} (hb : Text.isBlank c = true) (hs : c ≠ '/') :
    (splitLayout (c :: cs)).2 = (splitLayout cs).2 := by
  conv_lhs => unfold splitLayout
  split <;> simp_all

theorem wordToken_keyword (k : Keyword) : wordToken k.spelling = .keyword k := by
  simp [wordToken]

theorem wordToken_of_isWord {s : String} (h : isWord s = true) : wordToken s = .identifier s := by
  obtain ⟨_, _, _, _, _, hk⟩ := isWord_iff.1 h
  simp [wordToken, hk]

/-- Every identifier of a text is a word. -/
theorem isWord_of_splitToken {c : Char} {cs : List Char} {s : Split} {x : String}
    (h : splitToken c cs = .ok s) (hx : s.token = .identifier x) : isWord x = true := by
  have quoted {quote : Char} {make : String → Token} (hm : ∀ t, make t ≠ .identifier x)
      (h : splitQuoted quote make cs = .ok s) : False := by
    unfold splitQuoted at h
    split at h
    · cases h
    · cases h
      exact hm _ hx
  unfold splitToken at h
  split at h
  · exact (quoted (by simp) h).elim
  split at h
  · exact (quoted (by simp) h).elim
  split at h
  · cases h
    cases hx
  split at h
  · next hd hc =>
    cases h
    simp only [wordToken] at hx
    split at hx
    · cases hx
    · next hk =>
      cases hx
      refine isWord_iff.2 ⟨c, cs.takeWhile Text.isWordChar, by simp [hc], by simpa using hd, ?_, hk⟩
      intro d hm
      obtain rfl | hm := List.mem_cons.1 hm
      · exact hc
      · exact List.all_eq_true.1 List.all_takeWhile d hm
  split at h
  · cases h
  split at h
  · cases h
    cases hx
  · cases h

theorem isWord_of_spells {cs : List Char} {ts : List Token} (h : Spells cs ts) {x : String}
    (hx : .identifier x ∈ ts) : isWord x = true := by
  induction h with
  | done => cases hx
  | token _ hs _ ih =>
    obtain he | hx := List.mem_cons.1 hx
    · exact isWord_of_splitToken hs he.symm
    · exact ih hx

/-- A token that is split off in front of a text. -/
theorem Spells.cons {c : Char} {cs ds taken : List Char} {t : Token} {ts : List Token}
    (hl : (splitLayout (c :: cs)).2 = c :: cs) (ht : splitToken c cs = .ok ⟨t, taken, ds⟩)
    (h : Spells ds ts) : Spells (c :: cs) (t :: ts) :=
  .token hl ht h

theorem splitLayout_word {c : Char} {cs : List Char} (h : Text.isWordChar c = true) :
    (splitLayout (c :: cs)).2 = c :: cs := by
  refine splitLayout_cons ?_ ?_
  · cases hb : Text.isBlank c with
    | false => rfl
    | true => rw [Text.isWordChar_of_isBlank hb] at h; cases h
  · rintro rfl
    cases h

theorem Spells.word {s : String} {c : Char} {cs ds : List Char} {ts : List Token}
    (h : Spells ds ts) (hw : s.toList = c :: cs) (hd : c.isDigit = false)
    (hc : ∀ d ∈ c :: cs, Text.isWordChar d = true) (hs : Stops Text.isWordChar ds) :
    Spells (s.toList ++ ds) (wordToken s :: ts) := by
  have ht := splitToken_word hd hc hs
  rw [← hw, String.ofList_toList] at ht
  rw [hw]
  exact h.cons (splitLayout_word (hc c List.mem_cons_self)) ht

theorem Spells.identifier {x : String} {ds : List Char} {ts : List Token} (h : Spells ds ts)
    (hx : isWord x = true) (hs : Stops Text.isWordChar ds) :
    Spells (x.toList ++ ds) (.identifier x :: ts) := by
  obtain ⟨c, cs, hw, hd, hc, -⟩ := isWord_iff.1 hx
  rw [← wordToken_of_isWord hx]
  exact h.word hw hd hc hs

/-- Reserved words are spelled with letters. -/
theorem keyword_spelling (k : Keyword) : ∃ c cs, k.spelling.toList = c :: cs ∧ c.isDigit = false ∧
    ∀ d ∈ c :: cs, Text.isWordChar d = true := by
  have h : ∀ k ∈ Keyword.all, (k.spelling.toList.head?.any fun c => !c.isDigit) = true ∧
      k.spelling.toList.all Text.isWordChar = true := by decide +kernel
  obtain ⟨hd, hc⟩ := h k k.mem_all
  cases hk : k.spelling.toList with
  | nil => simp [hk] at hd
  | cons c cs =>
    rw [hk] at hd hc
    exact ⟨c, cs, rfl, by simpa using hd, List.all_eq_true.1 hc⟩

theorem Spells.keyword {k : Keyword} {ds : List Char} {ts : List Token} (h : Spells ds ts)
    (hs : Stops Text.isWordChar ds) : Spells (k.spelling.toList ++ ds) (.keyword k :: ts) := by
  obtain ⟨c, cs, hw, hd, hc⟩ := keyword_spelling k
  rw [← wordToken_keyword k]
  exact h.word hw hd hc hs

end Lexeme
end ClassText
