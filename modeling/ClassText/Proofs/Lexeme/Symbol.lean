import ClassText.Proofs.Lexeme.Word

/-! Symbols at the head of a text. A symbol is read alone where what follows can neither lengthen it
nor make a comment of it. Closing angles are read in groups of at most three. -/
namespace ClassText

namespace Symbol

/-- The characters with which a longer symbol goes on where this one ends. -/
def nexts (s : Symbol) : List Char :=
  all.filterMap fun t =>
    if s.spelling.toList.isPrefixOf t.spelling.toList then t.spelling.toList[s.spelling.toList.length]?
    else none

/-- Whether a character must not follow the symbol, since the two would be read as one. -/
def absorbs (s : Symbol) (c : Char) : Bool :=
  s.nexts.contains c || (s = .slash && (c == '/' || c == '*'))

theorem length_spelling (s : Symbol) : s.spelling.toList.length ∈ [4, 3, 2, 1] := by
  have h : ∀ s ∈ all, s.spelling.toList.length ∈ [4, 3, 2, 1] := by decide +kernel
  exact h s s.mem_all

theorem newline_notMem_spelling (s : Symbol) : '\n' ∉ s.spelling.toList := by
  have h : ∀ s ∈ all, '\n' ∉ s.spelling.toList := by decide +kernel
  exact h s s.mem_all

theorem spelling_injective {s t : Symbol} (h : s.spelling = t.spelling) : s = t :=
  Option.some.inj (by rw [← ofSpelling?_spelling s, h, ofSpelling?_spelling])

/-- No longer symbol stands where the text cannot go on with the one that does. -/
theorem length_le_of_prefix {s t : Symbol} {ds : List Char} (hs : Lexeme.Stops s.absorbs ds)
    (h : t.spelling.toList <+: s.spelling.toList ++ ds) :
    t.spelling.toList.length ≤ s.spelling.toList.length := by
  by_contra hlt
  have hp : s.spelling.toList <+: t.spelling.toList :=
    List.prefix_of_prefix_length_le (List.prefix_append _ _) h (by omega)
  obtain ⟨e, he⟩ := hp
  cases e with
  | nil => rw [← he, List.append_nil] at hlt; omega
  | cons d e =>
    have hd : ds.head? = some d := by
      rw [← he, List.prefix_append_right_inj] at h
      obtain ⟨r, rfl⟩ := h
      rfl
    have hn : d ∈ s.nexts := by
      refine List.mem_filterMap.2 ⟨t, t.mem_all, ?_⟩
      simp [← he]
    have := hs d hd
    simp [absorbs, hn] at this

theorem findSome?_of_descending {f : Nat → Option β} {b : β} {k : Nat} (hk : f k = some b)
    (hf : ∀ n, k ≤ n → f n = none ∨ f n = some b) :
    ∀ l : List Nat, l.Pairwise (· > ·) → k ∈ l → l.findSome? f = some b := by
  intro l hl hm
  induction l with
  | nil => cases hm
  | cons n l ih =>
    obtain ⟨hn, hl⟩ := List.pairwise_cons.1 hl
    rw [List.findSome?_cons]
    obtain rfl | hm := List.mem_cons.1 hm
    · rw [hk]
    · obtain h | h := hf n (Nat.le_of_lt (hn k hm))
      · rw [h]
        exact ih hl hm
      · rw [h]

/-- The symbol that stands at the head of the text and is no shorter than any other that does. -/
theorem longestAt?_eq_some {s : Symbol} {cs : List Char} (hs : s.spelling.toList <+: cs)
    (hmax : ∀ t : Symbol, t.spelling.toList <+: cs →
      t.spelling.toList.length ≤ s.spelling.toList.length) : longestAt? cs = some s := by
  have htake : cs.take s.spelling.toList.length = s.spelling.toList :=
    (List.prefix_iff_eq_take.1 hs).symm
  refine findSome?_of_descending (k := s.spelling.toList.length) ?_ ?_ _ (by decide) s.length_spelling
  · rw [htake, String.ofList_toList, ofSpelling?_spelling]
  · intro n hn
    cases h : ofSpelling? (String.ofList (cs.take n)) with
    | none => exact .inl rfl
    | some t =>
      right
      have ht := congrArg String.toList (spelling_of_ofSpelling? h)
      rw [String.toList_ofList] at ht
      have hle := hmax t (ht ▸ List.take_prefix n cs)
      have hst : s.spelling.toList <+: t.spelling.toList := by
        rw [ht, ← htake]
        exact List.take_prefix_take_left hn
      have heq := hst.eq_of_length_le hle
      rw [spelling_injective (String.toList_inj.1 heq)]

/-- The first result of a descending list is none of a smaller number than one that has a result. -/
theorem exists_ge_of_descending {f : Nat → Option β} {b : β} {k : Nat} (hk : f k ≠ none) :
    ∀ l : List Nat, l.Pairwise (· > ·) → k ∈ l → l.findSome? f = some b → ∃ n, k ≤ n ∧ f n = some b := by
  intro l hl hm h
  induction l with
  | nil => cases hm
  | cons n l ih =>
    obtain ⟨hn, hl⟩ := List.pairwise_cons.1 hl
    have hle : k ≤ n := by
      obtain rfl | hm := List.mem_cons.1 hm
      · exact Nat.le_refl _
      · exact Nat.le_of_lt (hn k hm)
    rw [List.findSome?_cons] at h
    cases hf : f n with
    | some c =>
      rw [hf] at h
      exact ⟨n, hle, hf.trans h⟩
    | none =>
      rw [hf] at h
      obtain rfl | hm := List.mem_cons.1 hm
      · exact absurd hf hk
      · exact ih hl hm h

/-- No symbol at the head of the text is longer than the one that is found there. -/
theorem length_le_of_longestAt? {s t : Symbol} {cs : List Char} (h : longestAt? cs = some s)
    (ht : t.spelling.toList <+: cs) : t.spelling.toList.length ≤ s.spelling.toList.length := by
  have htake : cs.take t.spelling.toList.length = t.spelling.toList :=
    (List.prefix_iff_eq_take.1 ht).symm
  have hfound : ofSpelling? (String.ofList (cs.take t.spelling.toList.length)) ≠ none := by
    rw [htake, String.ofList_toList, ofSpelling?_spelling]
    exact Option.some_ne_none t
  obtain ⟨n, hn, hs⟩ := exists_ge_of_descending hfound _ (by decide) t.length_spelling h
  have hspelling := congrArg String.toList (spelling_of_ofSpelling? hs)
  rw [String.toList_ofList] at hspelling
  have hle := ht.length_le
  rw [hspelling, List.length_take]
  omega

/-- There is a symbol at the head of a text exactly if its first character is that of a symbol: every
such character is a symbol itself. -/
theorem longestAt?_cons_eq_none_iff {c : Char} {cs : List Char} :
    longestAt? (c :: cs) = none ↔ ∀ s : Symbol, s.spelling.toList.head? ≠ some c := by
  constructor
  · intro h s hs
    have hall : ∀ s ∈ all, ∃ t ∈ all, t.spelling.toList = s.spelling.toList.take 1 := by decide +kernel
    obtain ⟨t, -, ht⟩ := hall s s.mem_all
    obtain ⟨more, hmore⟩ := List.head?_eq_some_iff.1 hs
    have hlength : t.spelling.toList = [c] := by rw [ht, hmore]; rfl
    have hnone := List.findSome?_eq_none_iff.1 h 1 (by decide)
    have hfound : String.ofList ((c :: cs).take 1) = t.spelling := by
      rw [← t.spelling.ofList_toList, hlength]
      rfl
    rw [hfound, ofSpelling?_spelling] at hnone
    cases hnone
  · intro h
    cases hs : longestAt? (c :: cs) with
    | none => rfl
    | some s =>
      obtain ⟨d, ds, hd⟩ := List.exists_cons_of_ne_nil s.spelling_ne_nil
      have hp := spelling_prefix_of_longestAt? hs
      rw [hd] at hp
      obtain rfl := (List.cons_prefix_cons.1 hp).1
      exact absurd (by rw [hd]; rfl) (h s)

theorem longestAt?_append {s : Symbol} {ds : List Char} (hs : Lexeme.Stops s.absorbs ds) :
    longestAt? (s.spelling.toList ++ ds) = some s :=
  longestAt?_eq_some (List.prefix_append _ _) fun _ => length_le_of_prefix hs

end Symbol

namespace Lexeme

/-- What the first character of a symbol is not. Only two symbols begin with a slash. -/
theorem symbol_spelling (s : Symbol) : ∃ c cs, s.spelling.toList = c :: cs ∧
    c.isDigit = false ∧ Text.isWordChar c = false ∧ Text.isBlank c = false ∧ c ≠ '\x27' ∧ c ≠ '\x22' ∧
    (c = '/' → s = .slash ∨ cs = ['=']) := by
  have h : ∀ s ∈ Symbol.all, (s.spelling.toList.head?.any fun c => !c.isDigit && !Text.isWordChar c &&
      !Text.isBlank c && c ≠ '\x27' && c ≠ '\x22' &&
      (c ≠ '/' || s = .slash || s.spelling.toList.tail = ['='])) = true := by decide +kernel
  have hs := h s s.mem_all
  cases hc : s.spelling.toList with
  | nil => exact absurd hc s.spelling_ne_nil
  | cons c cs =>
    refine ⟨c, cs, rfl, ?_⟩
    simp only [hc, List.head?_cons, Option.any_some, List.tail_cons, Bool.and_eq_true,
      Bool.or_eq_true, Bool.not_eq_true', decide_eq_true_eq] at hs
    obtain ⟨⟨⟨⟨⟨h₁, h₂⟩, h₃⟩, h₄⟩, h₅⟩, h₆⟩ := hs
    refine ⟨h₁, h₂, h₃, h₄, h₅, fun hc => ?_⟩
    obtain (h₆ | h₆) | h₆ := h₆
    · exact absurd hc h₆
    · exact .inl h₆
    · exact .inr h₆

/-- A slash begins no comment where neither a slash nor a star follows. -/
theorem not_comment_of_head? {cs : List Char} (h : ∀ c ∈ cs.head?, c ≠ '/' ∧ c ≠ '*') :
    (splitLayout ('/' :: cs)).2 = '/' :: cs ∧ opensBlock ('/' :: cs) = false := by
  have hb : Text.isBlank '/' = false := rfl
  cases cs with
  | nil => simp [splitLayout, opensBlock, hb]
  | cons d ds =>
    obtain ⟨h₁, h₂⟩ := h d rfl
    constructor
    · unfold splitLayout
      split
      · simp_all
      · simp_all
      · simp_all
      · next h =>
        cases h
        rw [hb]
        rfl
    · unfold opensBlock
      split <;> simp_all

/-- A symbol that absorbs nothing of what follows begins no comment. -/
theorem not_comment {s : Symbol} {c : Char} {cs ds : List Char} (hc : s.spelling.toList = c :: cs)
    (hs : Stops s.absorbs ds) : (splitLayout (c :: (cs ++ ds))).2 = c :: (cs ++ ds) ∧
    opensBlock (c :: (cs ++ ds)) = false := by
  obtain ⟨_, _, hc', -, -, hb, -, -, hslash⟩ := symbol_spelling s
  rw [hc] at hc'
  cases hc'
  by_cases hcs : c = '/'
  · subst hcs
    apply not_comment_of_head?
    obtain rfl | rfl := hslash rfl
    · obtain rfl : cs = [] := by simpa [Symbol.spelling] using hc.symm
      intro d hd
      have := hs d hd
      simp only [Symbol.absorbs, decide_true, Bool.true_and, Bool.or_eq_false_iff] at this
      exact ⟨beq_eq_false_iff_ne.1 this.2.1, beq_eq_false_iff_ne.1 this.2.2⟩
    · intro d hd
      obtain rfl : '=' = d := by simpa using hd
      decide
  · refine ⟨splitLayout_cons hb hcs, ?_⟩
    unfold opensBlock
    split
    · next h => exact absurd (List.cons.inj h).1 hcs
    · rfl

/-- The longest symbol at the head of a text is the token there. -/
theorem splitToken_of_longestAt? {x : Char} {cs ds : List Char} {s : Symbol}
    (h : Symbol.longestAt? (x :: cs) = some s) (hds : x :: cs = s.spelling.toList ++ ds)
    (hb : opensBlock (x :: cs) = false) : splitToken x cs = .ok ⟨.symbol s, s.spelling.toList, ds⟩ := by
  obtain ⟨y, ys, hy, hd, hw, -, hq, hq', -⟩ := symbol_spelling s
  have hrest : (x :: cs).drop s.spelling.toList.length = ds := by
    rw [hds, List.drop_left]
  obtain rfl : x = y := by
    rw [hy] at hds
    exact (List.cons.inj hds).1
  unfold splitToken
  rw [if_neg hq, if_neg hq', if_neg (by simp [hd]), if_neg (by simp [hw]), if_neg (by simp [hb]), h]
  dsimp only
  rw [hrest]

theorem Spells.symbol {s : Symbol} {ds : List Char} {ts : List Token} (h : Spells ds ts)
    (hs : Stops s.absorbs ds) : Spells (s.spelling.toList ++ ds) (.symbol s :: ts) := by
  obtain ⟨c, cs, hc, -⟩ := symbol_spelling s
  have hl := Symbol.longestAt?_append hs
  obtain ⟨hlayout, hblock⟩ := not_comment hc hs
  rw [hc, List.cons_append] at hl ⊢
  exact h.cons hlayout (splitToken_of_longestAt? hl (by rw [hc]; rfl) hblock)

/-- What lengthens several closing angles would lengthen one. -/
theorem absorbs_angle {s : Symbol} {c : Char} (hs : s ∈ [Symbol.shr, .uShr])
    (h : s.absorbs c = true) : Symbol.gt.absorbs c = true := by
  have hn : ∀ s ∈ [Symbol.shr, .uShr], s ≠ .slash ∧ s.nexts.all Symbol.gt.nexts.contains = true := by
    decide +kernel
  obtain ⟨hslash, hsub⟩ := hn s hs
  have hc : c ∈ s.nexts := by simpa [Symbol.absorbs, hslash] using h
  rw [Symbol.absorbs, List.all_eq_true.1 hsub c hc, Bool.true_or]

/-- Closing angles spell themselves, though several of them may be one symbol. -/
theorem Spells.angles {ds : List Char} {ts : List Token} (h : Spells ds ts)
    (hs : Stops Symbol.gt.absorbs ds) : (n : Nat) → ∃ us,
      Spells (List.replicate n '>' ++ ds) (us ++ ts) ∧
      Token.expand us = List.replicate n (.symbol .gt)
  | 0 => ⟨[], h, rfl⟩
  | 1 => ⟨[.symbol .gt], h.symbol hs, rfl⟩
  | 2 => by
    have hstop : Stops Symbol.shr.absorbs ds := hs.of_implies fun _ => absorbs_angle (by decide)
    exact ⟨[.symbol .shr], h.symbol hstop, rfl⟩
  | n + 3 => by
    obtain ⟨us, hus, he⟩ := angles h hs n
    have hstop : Stops Symbol.uShr.absorbs (List.replicate n '>' ++ ds) := by
      cases n with
      | zero => exact hs.of_implies fun _ => absorbs_angle (by decide)
      | succ n =>
        intro c hc
        obtain rfl : '>' = c := by simpa [List.replicate_succ] using hc
        decide +kernel
    refine ⟨.symbol .uShr :: us, hus.symbol hstop, ?_⟩
    simp [he, Token.parts, Symbol.parts, List.replicate_succ]

end Lexeme
end ClassText
