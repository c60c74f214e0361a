import ClassText.Proofs.Expectation
import ClassText.Proofs.Lexeme.Place
import ClassText.Proofs.RoundTrip

/-! Errors point at the text that they are about: at the token that is found, even where it is only what
remains of a compound symbol, at the name that begins a statement, or at the end of the input. -/
namespace ClassText

open Grammar Lexeme

namespace Located

/-- What is left of a compound symbol is cut out of the same text. -/
theorem CutFrom.splitTo {l : Located} {cs : List Char} (h : l.CutFrom cs) {x left : Symbol}
    (ht : l.token = .symbol x) (hx : x.afterAngle? = some left) :
    (l.splitTo (.symbol left)).CutFrom cs := by
  obtain ⟨before, lexeme, behind, rfl, hp, hs, hd⟩ := h
  rw [ht] at hd
  obtain rfl := hd.eq_spelling
  have hspelling := Symbol.spelling_of_afterAngle? hx
  have hposition : (l.splitTo (.symbol left)).position = l.position.advance '>' := rfl
  refine ⟨before ++ ['>'], left.spelling.toList, behind, ?_, ?_, ?_, .symbol⟩
  · simp [hspelling]
  · rw [hposition, hp, Position.after_append, Position.after_cons, Position.after_nil]
  · rw [hposition, Located.splitTo, hs, hspelling]
    rfl

namespace Remains

variable {l m : Located} {ls ms : List Located} {cs : List Char}

/-- What remains of a token is cut out of the same text. -/
theorem cutFrom (h : Remains l m) (hl : l.CutFrom cs) : m.CutFrom cs := by
  induction h with
  | whole => exact hl
  | split ht hx _ ih => exact ih (hl.splitTo ht hx)

/-- What is taken off compound symbols is no name. -/
theorem count_identifier (h : Remains l m) (name : String) :
    m.token.parts.count (.identifier name) = l.token.parts.count (.identifier name) := by
  induction h with
  | whole => rfl
  | split ht hx _ ih =>
    rw [ih, token_splitTo, Token.parts_of_afterAngle? ht hx, List.count_cons]
    simp

theorem count_identifier_expand (h : List.Forall₂ Remains ls ms) (name : String) :
    (Token.expand (ms.map (·.token))).count (.identifier name) =
      (Token.expand (ls.map (·.token))).count (.identifier name) := by
  induction h with
  | nil => rfl
  | cons hl _ ih =>
    simp only [List.map_cons, Token.expand_cons, List.count_append, hl.count_identifier, ih]

end Remains
end Located

/-- A sequence is taken apart in one way only, if it is known how often the token at which that is done
stands behind it. -/
theorem Token.eq_of_append_cons_eq {t : Token} {as bs cs ds : List Token}
    (h : as ++ t :: bs = cs ++ t :: ds) (hcount : bs.count t = ds.count t) : as = cs := by
  obtain ⟨m, rfl, hm⟩ | ⟨m, rfl, hm⟩ := List.append_eq_append_iff.1 h
  all_goals
    cases m with
    | nil => simp
    | cons u m =>
      rw [List.cons_append] at hm
      obtain ⟨rfl, rfl⟩ := List.cons.inj hm
      rw [List.count_append, List.count_cons_self] at hcount
      omega

namespace TokenCursor.Moves

variable {c d : TokenCursor} {ls : List Located}

/-- Nothing has been taken off what lies behind the current token. -/
theorem exists_ahead (h : Moves c d) {m : Located} {behind : List Located}
    (hd : d.ahead = m :: behind) :
    ∃ before l, c.ahead = before ++ l :: behind ∧ l.Remains m := by
  induction h with
  | stay => exact ⟨[], m, hd, .whole⟩
  | @skip k _ _ _ _ _ ih =>
    obtain ⟨before, l, hl, hm⟩ := ih hd
    exact ⟨k :: before, l, congrArg (k :: ·) hl, hm⟩
  | @split _ _ _ _ k _ ht hx _ ih =>
    obtain ⟨before, l, hl, hm⟩ := ih hd
    cases before with
    | nil =>
      obtain ⟨rfl, rfl⟩ := List.cons.inj hl
      exact ⟨[], k, rfl, .split ht hx hm⟩
    | cons _ before =>
      obtain ⟨-, rfl⟩ := List.cons.inj hl
      exact ⟨k :: before, l, rfl, hm⟩

/-- A name that has been moved over last stands in the input behind what has been consumed before. -/
theorem exists_name (hm : (ofTokens ls).Moves c) {l : Located} (hl : c.behind.head? = some l)
    {name : String} (hname : l.token = .identifier name) {p : List Token}
    (hp : Token.expand (ls.map (·.token)) = p ++ [l.token] ++ Token.expand (c.ahead.map (·.token))) :
    ∃ before behind, ls = before ++ l :: behind ∧ Token.expand (before.map (·.token)) = p := by
  obtain ⟨b, hb⟩ := List.head?_eq_some_iff.1 hl
  have hremains := hm.remains
  have hinput : c.input = b.reverse ++ l :: c.ahead := by simp [input, hb]
  rw [input_ofTokens, hinput] at hremains
  have hlast := List.forall₂_drop_append ls b.reverse (l :: c.ahead) hremains
  obtain ⟨k, behind, hk, hbehind, hdrop⟩ := List.forall₂_cons_right_iff.1 hlast
  obtain rfl | ⟨x, left, -, hsymbol⟩ := hk.eq_or_symbol
  · have hls : ls = ls.take b.reverse.length ++ l :: behind := by
      rw [← hdrop, List.take_append_drop]
    -- What lies behind may have lost characters, but no name, so the name is found by counting.
    have hcount := Located.Remains.count_identifier_expand hbehind name
    rw [← hname] at hcount
    refine ⟨_, behind, hls, Token.eq_of_append_cons_eq ?_ hcount.symm⟩
    have hparts : l.token.parts = [l.token] := by rw [hname]; rfl
    calc _ = Token.expand (ls.map (·.token)) := by
          conv_rhs => rw [hls]
          simp [hparts]
      _ = p ++ l.token :: Token.expand (c.ahead.map (·.token)) := by simp [hp]
  · rw [hname] at hsymbol
    cases hsymbol

end TokenCursor.Moves

/-- An error points at the text of a source with these tokens that it is about. -/
inductive SyntaxError.PointsInto (source : String) : List Located → SyntaxError → Prop
  /-- What is found is a token, or what remains of one, in the place of which the expected could have
  come. -/
  | unexpected : ls = before ++ l :: behind → l.Remains m → m.StandsIn source →
      Token.expand (ls.map (·.token)) = p ++ Token.expand ((m :: behind).map (·.token)) →
      (∀ w, x.Admits w → Viable (p ++ w)) →
      PointsInto source ls (.unexpectedToken x m.token m.position m.span)
  /-- An ambiguous statement is pointed at by the name with which it begins. -/
  | ambiguous : ls = before ++ l :: behind →
      Opens DerivesStatement (Token.expand (before.map (·.token))) →
      l.token = .identifier (l.span.textIn source) → l.StandsIn source →
      PointsInto source ls (.ambiguousStatement l.position l.span)
  /-- What comes too early is the end of the last token. -/
  | tooFew : ls.getLast? = some l → l.StandsIn source →
      PointsInto source ls (.tooFewTokens shortage ⟨l.span.stop, l.span.stop⟩)
  /-- Without any token, it is the end of the source. -/
  | noToken : PointsInto source []
      (.tooFewTokens shortage ⟨source.utf8ByteSize, source.utf8ByteSize⟩)

namespace SyntaxError

variable {source : String} {ls : List Located} {e : SyntaxError}

theorem PointsInto.within (h : e.PointsInto source ls) : e.span.Within source := by
  cases h with
  | unexpected _ _ hm _ _ => exact hm.within
  | ambiguous _ _ _ hl => exact hl.within
  | tooFew _ hl => exact hl.within.at_stop
  | noToken =>
    have h : source.toList = source.toList ++ [] ++ [] := by simp
    have hend := (Span.within_of_append h).at_stop
    rwa [String.utf8Len_nil, Nat.add_zero, String.utf8Len_toList] at hend

/-- Where everything has been moved over, the input ends where its last token does. -/
theorem endSpan_eq {c : TokenCursor} (hm : (TokenCursor.ofTokens ls).Moves c) (hc : c.ahead = [])
    (hls : ls ≠ []) : ∃ l, ls.getLast? = some l ∧ c.endSpan = ⟨l.span.stop, l.span.stop⟩ := by
  obtain ⟨before, l, rfl⟩ := List.eq_nil_or_concat ls |>.resolve_left hls
  have hremains := hm.remains
  rw [TokenCursor.input_ofTokens, TokenCursor.input, hc, List.append_nil] at hremains
  have hreverse := List.forall₂_reverse_iff.2 hremains
  rw [List.reverse_reverse, List.concat_eq_append, List.reverse_append] at hreverse
  obtain ⟨m, b, hl, -, hb⟩ := List.forall₂_cons_left_iff.1 hreverse
  refine ⟨l, by simp, ?_⟩
  simp [TokenCursor.endSpan, TokenCursor.inputEnd, hc, TokenCursor.consumedEnd, hb, hl.span_stop]

/-- An error that fits the place to which a reader of the tokens of a source has moved points into the
source. -/
theorem Fits.pointsInto {c : TokenCursor} {p : List Token} (h : e.Fits p c)
    (hsource : tokenize source = .ok ls) (hls : ls ≠ []) (hm : (TokenCursor.ofTokens ls).Moves c)
    (hp : Token.expand (ls.map (·.token)) = p ++ Token.expand (c.ahead.map (·.token))) :
    e.PointsInto source ls := by
  have hcut := cutFrom_of_tokenize hsource
  cases h with
  | @unexpected m _ _ _ hget hadmits =>
    obtain ⟨behind, hahead⟩ : ∃ behind, c.ahead = m :: behind := by
      rw [TokenCursor.get?, ← List.head?_eq_getElem?] at hget
      exact List.head?_eq_some_iff.1 hget
    obtain ⟨before, l, hsplit, hlm⟩ := hm.exists_ahead hahead
    have hl : l ∈ ls := by
      rw [show ls = before ++ l :: behind from hsplit]
      exact List.mem_append_right _ List.mem_cons_self
    rw [hahead] at hp
    exact .unexpected hsplit hlm (hlm.cutFrom (hcut l hl)).standsIn hp hadmits
  | tooFew hahead | inBody hahead =>
    obtain ⟨l, hl, hend⟩ := endSpan_eq hm hahead hls
    rw [hend]
    exact .tooFew hl (hcut l (List.mem_of_getLast? hl)).standsIn
  | @ambiguous l _ _ name hl hname _ hopens =>
    obtain ⟨before, behind, hsplit, hbefore⟩ := hm.exists_name hl hname hp
    have hlcut := hcut l (by rw [hsplit]; simp)
    have hstands := hlcut.standsIn
    have hspan : (⟨l.span.start, max l.span.stop l.span.start⟩ : Span) = l.span := by
      rw [max_eq_left hstands.within.ordered]
    rw [hspan]
    refine .ambiguous hsplit (hbefore ▸ hopens) ?_ hstands
    rw [hlcut.textIn_of_name hname, hname]

end SyntaxError

/-- Where the tokens of a source are no class, the error points at the text that it is about. -/
theorem pointsInto_of_parseTokens {source : String} {ls : List Located} {e : SyntaxError}
    (hls : tokenize source = .ok ls) (h : (parseTokens source ls).1 = .error (.grammatical e)) :
    e.PointsInto source ls := by
  have hts := visible_of_tokenize hls
  unfold parseTokens at h
  split at h
  · cases h
  · next r hr =>
    have hnil : ls = [] := by
      by_contra hne
      obtain ⟨-, -, c, hc, -⟩ := (Reader.reads_nextDeclaration hts hne).run_ok_iff.1 ⟨r, hr, rfl⟩
      cases hc
    subst hnil
    cases h
    exact .noToken
  · next stop r hr =>
    obtain ⟨hm, rejected, p, rfl, hp, hfit⟩ := Reader.fits_of_error hts hr
    cases h
    have hne : ls ≠ [] := by
      rintro rfl
      cases hr
    exact hfit.pointsInto hls hne hm hp

/-- Where a source is cut into tokens but is no class, the error points at the text that it is about. -/
theorem pointsInto_of_parse {source : String} {e : SyntaxError}
    (h : parse source = .error (.grammatical e)) : ∃ ls, tokenize source = .ok ls ∧
      e.span.Within source ∧ e.PointsInto source ls := by
  unfold parse at h
  split at h
  · cases h
  · next ls hls =>
    have hpoints := pointsInto_of_parseTokens hls h
    exact ⟨ls, hls, hpoints.within, hpoints⟩

/-- Three of the four characters of a symbol close lists of type arguments. What is found behind them is
the last one, on the second line, behind letters of two bytes. -/
theorem pointsInto_of_parse_behind_splits :
    let source := "class Ä\x7b\nB<Ç<D<E>>>= x;\x7d"
    let e : SyntaxError := .unexpectedToken (.identifier Role.memberName) (.symbol .assign)
      ⟨2, 11, 21⟩ ⟨21, 22⟩
    parse source = .error (.grammatical e) ∧ ∃ ls, tokenize source = .ok ls ∧
      e.span.Within source ∧ e.PointsInto source ls := by
  intro source e
  have h : parse source = .error (.grammatical e) := by decide +kernel
  exact ⟨h, pointsInto_of_parse h⟩

end ClassText
