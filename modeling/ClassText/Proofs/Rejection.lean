import ClassText.Proofs.Lexeme.Seam
import ClassText.Proofs.Munch
import Mathlib.Data.List.TakeWhile

/-! Where a text cannot be cut into tokens. There are three ways in which a text fails at its first
character, said here without the way in which tokens are found. An error names the first place where
one of them holds, and all text before that place is cut into tokens as it would be alone. -/
namespace ClassText

open Lexeme

/-- The place behind a text, in lines, in characters on the last of them and in bytes. -/
def placeBehind (before : String) : Position where
  line := 1 + before.toList.count '\n'
  column := 1 + (before.toList.reverse.takeWhile (· ≠ '\n')).length
  offset := before.utf8ByteSize

theorem after_origin_eq_placeBehind (before : String) :
    Position.origin.after before.toList = placeBehind before := by
  have hline := Position.line_after .origin before.toList
  have hcolumn := Position.column_after_origin before.toList
  have hoffset := Position.offset_after .origin before.toList
  rw [String.utf8Len_toList] at hoffset
  cases h : Position.origin.after before.toList with
  | mk line column offset =>
    rw [h] at hline hcolumn hoffset
    simp_all [placeBehind, Position.origin]

theorem spanOver_placeBehind (before : String) (cs : List Char) : (placeBehind before).spanOver cs =
    ⟨before.utf8ByteSize, before.utf8ByteSize + String.utf8Len cs⟩ := by
  rw [Position.spanOver, Position.offset_after]
  rfl

/-- The error with which a text that stands behind `before` fails at its first character. -/
inductive LexicalError.FoundBehind (before : String) : List Char → LexicalError → Prop
  /-- The character is no layout, begins no word and no literal, and no symbol. -/
  | unknown : Text.isBlank c = false → Text.isWordChar c = false → c ≠ '\x27' → c ≠ '\x22' →
      (∀ s : Symbol, s.spelling.toList.head? ≠ some c) →
      FoundBehind before (c :: cs) (.unknownToken c (placeBehind before)
        ⟨before.utf8ByteSize, before.utf8ByteSize + c.utf8Size⟩)
  /-- A quote that does not come again. All of the text is marked. -/
  | literal : quote = '\x27' ∨ quote = '\x22' → quote ∉ raw →
      FoundBehind before (quote :: raw) (.invalidLiteral (String.ofList (quote :: raw))
        (placeBehind before)
        ⟨before.utf8ByteSize, before.utf8ByteSize + String.utf8Len (quote :: raw)⟩)
  /-- A comment that is not closed. Its opening is marked. -/
  | comment : ¬ ['*', '/'] <:+: cs →
      FoundBehind before ('/' :: '*' :: cs) (.unterminatedComment (placeBehind before)
        ⟨before.utf8ByteSize, before.utf8ByteSize + 2⟩)

namespace Lexeme

variable {before : String} {c : Char} {cs : List Char} {flaw : Flaw} {e : LexicalError}

theorem splitQuoted_eq_error_iff {quote : Char} {make : String → Token} :
    splitQuoted quote make cs = .error flaw ↔ quote ∉ cs ∧ flaw = .openLiteral (quote :: cs) := by
  have hopen : cs.dropWhile (· != quote) = [] ↔ quote ∉ cs := by
    rw [List.dropWhile_eq_nil_iff]
    exact ⟨fun h hm => by simpa using h quote hm, fun h d hd => bne_iff_ne.2 fun he => h (he ▸ hd)⟩
  rw [← hopen]
  unfold splitQuoted
  cases hrest : cs.dropWhile (· != quote) with
  | nil =>
    have hraw := List.takeWhile_append_dropWhile (p := (· != quote)) (l := cs)
    rw [hrest, List.append_nil] at hraw
    rw [hraw]
    simp [eq_comm]
  | cons q rest => simp

/-- A character behind layout that begins no comment is no blank. -/
theorem isBlank_of_splitLayout (hl : splitLayout (c :: cs) = ([], c :: cs)) (hc : c ≠ '/') :
    Text.isBlank c = false := by
  have hnot (d : Char) : ¬ ['/', d] <+: c :: cs := fun hp => hc (List.cons_prefix_cons.1 hp).1.symm
  rw [splitLayout_of_not_comment (hnot '/') (hnot '*')] at hl
  cases hb : Text.isBlank c with
  | false => rfl
  | true => simp [hb] at hl

/-- A comment that stands behind layout is not closed. -/
theorem not_closed_of_splitLayout (hl : splitLayout ('/' :: '*' :: cs) = ([], '/' :: '*' :: cs)) :
    ¬ ['*', '/'] <:+: cs := by
  rw [← inBlock_eq_none_iff]
  cases hb : inBlock cs with
  | none => rfl
  | some s => simp [splitLayout, hb] at hl

/-- Where neither layout nor a token can be taken off a text, it fails in one of the three ways. -/
theorem foundBehind_of_splitToken (hl : splitLayout (c :: cs) = ([], c :: cs))
    (hs : splitToken c cs = .error flaw) :
    (flaw.toError (placeBehind before)).FoundBehind before (c :: cs) := by
  unfold splitToken at hs
  split at hs
  · next hq =>
    obtain ⟨hraw, rfl⟩ := splitQuoted_eq_error_iff.1 hs
    rw [Flaw.toError, spanOver_placeBehind]
    exact .literal (.inl hq) hraw
  next hq =>
  split at hs
  · next hq' =>
    obtain ⟨hraw, rfl⟩ := splitQuoted_eq_error_iff.1 hs
    rw [Flaw.toError, spanOver_placeBehind]
    exact .literal (.inr hq') hraw
  next hq' =>
  split at hs
  · cases hs
  split at hs
  · cases hs
  next hw =>
  split at hs
  · next ho =>
    cases hs
    obtain ⟨more, hmore⟩ := opensBlock_iff.1 ho
    rw [← hmore] at hl ⊢
    rw [Flaw.toError, spanOver_placeBehind]
    exact .comment (not_closed_of_splitLayout hl)
  split at hs
  · cases hs
  · next hsign =>
    cases hs
    have hnone := Symbol.longestAt?_cons_eq_none_iff.1 hsign
    have hc : c ≠ '/' := fun he => hnone .slash (by rw [he]; rfl)
    rw [Flaw.toError, spanOver_placeBehind]
    simpa using LexicalError.FoundBehind.unknown (isBlank_of_splitLayout hl hc) (Bool.eq_false_iff.2 hw) hq hq' hnone

/-- What a step finds where there is no layout and no token. -/
theorem step_of_flaw (hl : (splitLayout (c :: cs)).2 = c :: cs) (hs : splitToken c cs = .error flaw)
    (p : Position) : Tail.step ⟨p, c :: cs⟩ = .error (flaw.toError p) := by
  simp only [Tail.step, splitLayout_rest hl, hs, Position.after_nil]

/-- A text that fails in one of the three ways has no token at its head but the error. -/
theorem step_of_foundBehind (h : e.FoundBehind before cs) :
    Tail.step ⟨placeBehind before, cs⟩ = .error e := by
  cases h with
  | @unknown c cs hb hw hq hq' hnone =>
    have hc : c ≠ '/' := fun he => hnone .slash (by rw [he]; rfl)
    have hd : c.isDigit = false := Bool.eq_false_iff.2 fun hd => by
      rw [Text.isWordChar_of_isDigit hd] at hw
      cases hw
    have ho : opensBlock (c :: cs) = false := Bool.eq_false_iff.2 fun ho =>
      hc (List.cons_prefix_cons.1 (opensBlock_iff.1 ho)).1.symm
    have hs : splitToken c cs = .error (.unknown c) := by
      simp [splitToken, hq, hq', hd, hw, ho, Symbol.longestAt?_cons_eq_none_iff.2 hnone]
    have hstep := step_of_flaw (splitLayout_cons hb hc) hs (placeBehind before)
    simpa [Flaw.toError, spanOver_placeBehind] using hstep
  | @literal quote raw hquote hraw =>
    have hbare : Text.isBlank quote = false ∧ quote ≠ '/' := by
      obtain rfl | rfl := hquote
      all_goals decide
    have hs : splitToken quote raw = .error (.openLiteral (quote :: raw)) := by
      obtain rfl | rfl := hquote
      all_goals exact splitQuoted_eq_error_iff.2 ⟨hraw, rfl⟩
    have hstep := step_of_flaw (splitLayout_cons hbare.1 hbare.2) hs (placeBehind before)
    rwa [Flaw.toError, spanOver_placeBehind] at hstep
  | @comment cs hopen =>
    have hl : (splitLayout ('/' :: '*' :: cs)).2 = '/' :: '*' :: cs := by
      simp [splitLayout, inBlock_eq_none_iff.2 hopen]
    have hs : splitToken '/' ('*' :: cs) = .error .openComment := by
      have hw : Text.isWordChar '/' = false := rfl
      simp [splitToken, opensBlock, hw]
    have hstep := step_of_flaw hl hs (placeBehind before)
    rwa [Flaw.toError, spanOver_placeBehind] at hstep

/-- An error tells the first place where the source fails and in which of the three ways, and the tokens
before it are those of the text up to there. Conversely, a text behind one that is cut into tokens and a
newline that fails in one of these ways is refused with the error that says so. -/
theorem rejections_exact :
    (∀ (source : String) (e : LexicalError), tokenize source = .error e →
      ∃ (before behind : String) (ls : List Located), source = before ++ behind ∧
        e.FoundBehind before behind.toList ∧ tokenize before = .ok ls ∧ scan source = ⟨ls, some e⟩ ∧
        ∀ given, Scanner.Gives (.ofSource source) given ↔ given <+: ls) ∧
    ∀ (a b : String) (as : List Located) (e : LexicalError), tokenize a = .ok as →
      e.FoundBehind (a ++ "\n") b.toList → tokenize (a ++ "\n" ++ b) = .error e := by
  refine ⟨fun source e h => ?_, fun a b as e ha hb => ?_⟩
  · have herror := tokenize_eq_error_iff.1 h
    obtain ⟨before, c, cs, flaw, htext, hl, hs, rfl, hcut⟩ := exists_cut_of_scan _ herror
    have hplace : (Tail.ofSource source).position.after before = placeBehind (String.ofList before) := by
      rw [← after_origin_eq_placeBehind, String.toList_ofList]
      rfl
    have hbefore : Tail.ofSource (String.ofList before) = ⟨.origin, before⟩ := by
      simp [Tail.ofSource]
    rw [hplace] at herror ⊢
    refine ⟨String.ofList before, String.ofList (c :: cs), (Tail.ofSource source).scan.tokens, ?_, ?_, ?_,
      ?_, fun _ => Scanner.gives_iff⟩
    · rw [← String.ofList_append, ← htext]
      exact source.ofList_toList.symm
    · rw [String.toList_ofList]
      exact foundBehind_of_splitToken hl hs
    · rw [tokenize_eq_ok_iff, hbefore]
      exact hcut
    · rw [← herror]
      rfl
  · have hseam := scan_append_source a b (by rw [tokenize_eq_ok_iff.1 ha])
    have hplace : Position.origin.after (a.toList ++ ['\n']) = placeBehind (a ++ "\n") := by
      rw [← after_origin_eq_placeBehind, String.toList_append]
      rfl
    rw [hplace, Tail.scan_of_error (step_of_foundBehind hb)] at hseam
    rw [tokenize_eq_error_iff, hseam]
    rfl

/-- The marks of comments and literals do not count inside one another, nor in a line comment. The literal
that is not closed is found behind all of them, and so is a comment of which the opening only seems to
close it. -/
theorem rejections_exact_nested_marks :
    let source := "ä'/*' /*'*/ //\"\n\"*/"
    let e : LexicalError := .invalidLiteral "\"*/" ⟨2, 1, 17⟩ ⟨17, 20⟩
    let d : LexicalError := .unterminatedComment ⟨2, 1, 8⟩ ⟨8, 10⟩
    tokenize source = .error e ∧
      (∃ (before behind : String) (ls : List Located), source = before ++ behind ∧
        e.FoundBehind before behind.toList ∧ tokenize before = .ok ls ∧ scan source = ⟨ls, some e⟩ ∧
        ∀ given, Scanner.Gives (.ofSource source) given ↔ given <+: ls) ∧
      (∃ as, tokenize "a //'/*" = .ok as) ∧
      d.FoundBehind ("a //'/*" ++ "\n") "/*/".toList ∧
      tokenize ("a //'/*" ++ "\n" ++ "/*/") = .error d := by
  intro source e d
  have h : tokenize source = .error e ∧ (tokenize "a //'/*").isOk = true ∧
      d = .unterminatedComment (placeBehind ("a //'/*" ++ "\n"))
        ⟨("a //'/*" ++ "\n").utf8ByteSize, ("a //'/*" ++ "\n").utf8ByteSize + 2⟩ := by
    decide +kernel
  obtain ⟨hsource, hok, hd⟩ := h
  have hfound : d.FoundBehind ("a //'/*" ++ "\n") "/*/".toList := by
    rw [hd]
    exact .comment (by decide)
  cases ha : tokenize "a //'/*" with
  | error f =>
    rw [ha] at hok
    cases hok
  | ok as =>
    exact ⟨hsource, rejections_exact.1 source e hsource, ⟨as, rfl⟩, hfound,
      rejections_exact.2 "a //'/*" "/*/" as d ha hfound⟩

end Lexeme
end ClassText
