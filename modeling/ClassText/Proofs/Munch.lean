import ClassText.Proofs.Lexeme.Pattern
import ClassText.Proofs.Lexeme.Place
import ClassText.Proofs.Lexeme.Scanner

/-! Maximal munch: the characters that are taken for a token are as many as can be, whatever follows
them. What can be is said here without the way in which tokens are found. -/
namespace ClassText

theorem Keyword.eq_of_spelling_eq {j k : Keyword} (h : j.spelling = k.spelling) : j = k :=
  Option.some.inj (by rw [← ofSpelling?_spelling j, h, ofSpelling?_spelling])

namespace Lexeme

/-- A run of word characters as far as it reaches, and the keyword or identifier that it is. -/
structure WholeWord (lexeme behind : List Char) (t : Token) : Prop where
  run : lexeme = (lexeme ++ behind).takeWhile Text.isWordChar
  keyword : ∀ k ∈ Keyword.all, t = .keyword k ↔ lexeme = k.spelling.toList
  identifier : (∀ k ∈ Keyword.all, lexeme ≠ k.spelling.toList) → t = .identifier (String.ofList lexeme)

/-- The characters up to the first quote like the one that opens them. -/
structure Quoted (quote : Char) (raw : String) (lexeme : List Char) : Prop where
  closed : lexeme = quote :: raw.toList ++ [quote]
  first : quote ∉ raw.toList

/-- Nothing longer could be taken for a token than these characters before `behind`, and they are
that token. -/
def Munched (lexeme behind : List Char) : Token → Prop
  | .symbol s => lexeme = s.spelling.toList ∧ ∀ t ∈ Symbol.all,
      t.spelling.toList <+: lexeme ++ behind → t.spelling.toList.length ≤ lexeme.length
  | .keyword k => WholeWord lexeme behind (.keyword k)
  | .identifier x => WholeWord lexeme behind (.identifier x)
  | .integer _ _ =>
    LongestOf (Radix.announcedBy (lexeme ++ behind)).pattern lexeme (lexeme ++ behind)
  | .character raw => Quoted '\x27' raw lexeme
  | .string raw => Quoted '\x22' raw lexeme

theorem wordToken_of_ne_keyword {lexeme : List Char} (h : ∀ k : Keyword, lexeme ≠ k.spelling.toList) :
    wordToken (String.ofList lexeme) = .identifier (String.ofList lexeme) := by
  unfold wordToken
  cases hk : Keyword.ofSpelling? (String.ofList lexeme) with
  | none => rfl
  | some k =>
    have hspelled : lexeme = k.spelling.toList := by
      rw [Keyword.spelling_of_ofSpelling? hk, String.toList_ofList]
    exact absurd hspelled (h k)

/-- A word is a keyword exactly if it is spelled like one. -/
theorem munched_word {lexeme behind : List Char}
    (h : lexeme = (lexeme ++ behind).takeWhile Text.isWordChar) :
    Munched lexeme behind (wordToken (String.ofList lexeme)) := by
  by_cases hk : ∃ k : Keyword, lexeme = k.spelling.toList
  · obtain ⟨k, rfl⟩ := hk
    rw [String.ofList_toList, wordToken_keyword]
    have hspelled (j : Keyword) : Token.keyword k = .keyword j ↔ k.spelling.toList = j.spelling.toList := by
      rw [Token.keyword.injEq, String.toList_inj]
      exact ⟨congrArg Keyword.spelling, Keyword.eq_of_spelling_eq⟩
    exact ⟨h, fun j _ => hspelled j, fun hnot => absurd rfl (hnot k k.mem_all)⟩
  · have hnot : ∀ k : Keyword, lexeme ≠ k.spelling.toList := fun k he => hk ⟨k,he⟩
    rw [wordToken_of_ne_keyword hnot]
    exact ⟨h, fun k _ => iff_of_false (by simp) (hnot k), fun _ => rfl⟩

theorem quoted_of_splitQuoted {quote : Char} {make : String → Token} {cs : List Char} {s : Split}
    (h : splitQuoted quote make cs = .ok s) :
    ∃ raw, Quoted quote raw s.taken ∧ s.token = make raw := by
  obtain ⟨raw, hraw, ht, hm⟩ := denotes_of_splitQuoted h
  exact ⟨String.ofList raw, ⟨by rw [ht, String.toList_ofList], by rwa [String.toList_ofList]⟩, hm⟩

/-- What is taken for a token could not be longer. -/
theorem munched_of_splitToken {c : Char} {cs : List Char} {s : Split} (h : splitToken c cs = .ok s) :
    Munched s.taken s.rest s.token := by
  have htext := splitToken_append h
  unfold splitToken at h
  split at h
  · next hc =>
    subst hc
    obtain ⟨raw, hq, ht⟩ := quoted_of_splitQuoted h
    rw [ht]
    exact hq
  split at h
  · next hc =>
    subst hc
    obtain ⟨raw, hq, ht⟩ := quoted_of_splitQuoted h
    rw [ht]
    exact hq
  split at h
  · next hd =>
    cases h
    dsimp only [Munched] at htext ⊢
    rw [htext]
    exact longestOf_splitInteger hd
  split at h
  · cases h
    exact munched_word (congrArg (List.takeWhile Text.isWordChar) htext.symm)
  split at h
  · cases h
  split at h
  · next sign hs =>
    cases h
    refine ⟨rfl, fun t _ ht => ?_⟩
    rw [htext] at ht
    exact Symbol.length_le_of_longestAt? hs ht
  · cases h

end Lexeme

/-- A located token is the longest that begins at its place in a text. -/
def Located.MunchedFrom (l : Located) (text : List Char) : Prop :=
  ∃ before lexeme behind, text = before ++ lexeme ++ behind ∧
    l.position = Position.origin.after before ∧
    l.span = ⟨String.utf8Len before, String.utf8Len before + String.utf8Len lexeme⟩ ∧
    Lexeme.Munched lexeme behind l.token

namespace Lexeme

/-- A step that gives a token takes layout and the longest token behind it off the text. -/
theorem exists_munched_of_step {t after : Tail} {l : Located} (h : t.step = .token l after) :
    ∃ gap lexeme, t.text = gap ++ lexeme ++ after.text ∧ l.position = t.position.after gap ∧
      l.span = l.position.spanOver lexeme ∧ Munched lexeme after.text l.token := by
  obtain ⟨c, ds, s, hl, hs, rfl, rfl⟩ := exists_split_of_step h
  exact ⟨_, s.taken, text_eq_of_split hl hs, rfl, rfl, munched_of_splitToken hs⟩

theorem munchedFrom_of_scan (t : Tail) {before : List Char}
    (hp : t.position = Position.origin.after before) :
    ∀ l ∈ t.scan.tokens, l.MunchedFrom (before ++ t.text) := by
  intro l hl
  obtain ⟨passed, u, after, htext, hposition, hs⟩ := exists_step_of_mem_scan t hp l hl
  obtain ⟨gap, lexeme, hu, hplace, hspan, hm⟩ := exists_munched_of_step hs
  have hplaced : l.position = Position.origin.after (passed ++ gap) := by
    rw [hplace, hposition, Position.after_append]
  refine ⟨passed ++ gap, lexeme, after.text, ?_, hplaced, Located.CutFrom.span_eq hplaced hspan, hm⟩
  rw [htext, hu]
  simp

namespace Scanner

/-- The tokens that the scanner gives one after the other. -/
inductive Gives : CharacterCursor → List Located → Prop
  | nil : Gives c []
  | cons : next.run c = .ok (some l) d → Gives d ls → Gives c (l :: ls)

theorem run_next_some_iff {c d : CharacterCursor} {l : Located} :
    next.run c = .ok (some l) d ↔ c.tail.step = .token l d.tail := by
  have hstep := run_next c
  constructor
  · intro hr
    rw [hr] at hstep
    cases hs : c.tail.step with
    | token m after =>
      rw [hs] at hstep
      cases hstep
      rfl
    | _ =>
      rw [hs] at hstep
      obtain ⟨_, hstep⟩ := hstep
      cases hstep
  · intro hs
    rw [hs] at hstep
    exact hstep

theorem gives_iff {c : CharacterCursor} {ls : List Located} :
    Gives c ls ↔ ls <+: c.tail.scan.tokens := by
  constructor
  · intro h
    induction h with
    | nil => exact List.nil_prefix
    | cons hr _ ih =>
      rw [Tail.scan_of_token (run_next_some_iff.1 hr)]
      exact List.cons_prefix_cons.2 ⟨rfl, ih⟩
  · intro h
    induction ls generalizing c with
    | nil => exact .nil
    | cons l ls ih =>
      cases hs : c.tail.step with
      | done =>
        rw [Tail.scan_of_done hs] at h
        cases List.prefix_nil.1 h
      | error e =>
        rw [Tail.scan_of_error hs] at h
        cases List.prefix_nil.1 h
      | token m after =>
        rw [Tail.scan_of_token hs] at h
        obtain ⟨rfl, hls⟩ := List.cons_prefix_cons.1 h
        let d : CharacterCursor := ⟨after.position, after.text⟩
        exact .cons (d := d) (run_next_some_iff.2 hs) (ih hls)

end Scanner

/-- Every token of a source is the longest at its place, also before an error. The tokens are what a
scanner gives that looks for operators in its tables. -/
theorem tokens_munched (source : String) :
    (∀ ls, Scanner.Gives (.ofSource source) ls ↔ ls <+: (scan source).tokens) ∧
    ∀ l ∈ (scan source).tokens, l.MunchedFrom source.toList := by
  have hstart : (Tail.ofSource source).position = Position.origin.after [] := rfl
  exact ⟨fun _ => Scanner.gives_iff, munchedFrom_of_scan _ hstart⟩

/-- Angles are taken three at a time, and a literal ends before a letter that is no digit of it. -/
theorem tokens_munched_angles :
    (scan "x>>>>=0x1fLg").tokens.map (·.token) =
      [.identifier "x", .symbol .uShr, .symbol .gtEq, .integer 31 true, .identifier "g"] ∧
    ∀ l ∈ (scan "x>>>>=0x1fLg").tokens, l.MunchedFrom "x>>>>=0x1fLg".toList :=
  ⟨by decide +kernel, (tokens_munched "x>>>>=0x1fLg").2⟩

end Lexeme
end ClassText
