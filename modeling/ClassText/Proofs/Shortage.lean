import ClassText.Proofs.Grouping
import ClassText.Proofs.RoundTrip
import Mathlib.Data.List.DropRight

/-! The tokens that an error about an unfinished body shows. They are the last ones of the source. A
compound symbol of which a leading `>` has closed a list of type arguments was consumed one character at
a time, and its last character stands for it. -/
namespace ClassText

open Lexeme

namespace Token

/-- The last part of a compound symbol. Any other token is its own last part. -/
def lastPart (t : Token) : Token := t.parts.getLast t.parts_ne_nil

theorem lastPart_of_single {t : Token} (h : t.Single) : t.lastPart = t := by
  have hlast : t.parts.getLast? = some t := by rw [show t.parts = [t] from h]; rfl
  exact Option.some.inj ((List.getLast?_eq_some_getLast t.parts_ne_nil).symm.trans hlast)

/-- Without its leading `>`, a compound symbol has the last part that it has with it. -/
theorem lastPart_of_afterAngle? {t : Token} {x left : Symbol} (ht : t = .symbol x)
    (hx : x.afterAngle? = some left) : (symbol left).lastPart = t.lastPart := by
  simp only [lastPart, parts_of_afterAngle? ht hx]
  exact (List.getLast_cons _).symm

end Token

theorem Located.Remains.lastPart_eq {l m : Located} (h : l.Remains m) :
    m.token.lastPart = l.token.lastPart := by
  induction h with
  | whole => rfl
  | split ht hx _ ih => exact ih.trans (Token.lastPart_of_afterAngle? ht hx)

namespace TokenCursor

variable {c : TokenCursor} {ls : List Located}

/-- What has come to lie behind is what is left of each token once nothing of it can be split off. -/
theorem Moves.behind_eq (h : (ofTokens ls).Moves c) (hc : c.ahead = []) :
    c.behind.reverse.map (·.token) = ls.map fun l => l.token.lastPart := by
  have hremains := h.remains
  rw [input_ofTokens, input, hc, List.append_nil] at hremains
  have hlast : c.behind.reverse.map (fun m => m.token.lastPart) = ls.map fun l => l.token.lastPart := by
    rw [← List.forall₂_eq_eq_eq, List.forall₂_map_left_iff, List.forall₂_map_right_iff]
    exact hremains.flip.imp fun _ _ hm => hm.lastPart_eq
  rw [← hlast]
  refine List.map_congr_left fun m hm => (Token.lastPart_of_single ?_).symm
  obtain hm | hm := h.parts_behind m (List.mem_reverse.1 hm)
  · cases hm
  · exact hm

/-- At the end of the input, the tokens consumed last are the last of the input. -/
theorem Moves.consumed_eq (h : (ofTokens ls).Moves c) (hc : c.ahead = []) (n : Nat) :
    c.consumed n = (ls.rtake n).map fun l => l.token.lastPart := by
  calc c.consumed n = (c.behind.reverse.rtake n).map (·.token) := by
        rw [consumed, ← List.map_reverse, List.rtake_eq_reverse_take_reverse, List.reverse_reverse]
    _ = (c.behind.reverse.map (·.token)).rtake n := by simp [List.rtake]
    _ = (ls.rtake n).map fun l => l.token.lastPart := by rw [h.behind_eq hc]; simp [List.rtake]

end TokenCursor

/-- Where the tokens of a source are no class because a body is unfinished, all of them have been
moved over, and the last three are shown. -/
theorem moves_of_parseTokens {source : String} {ls : List Located} {ts : List Token} {span : Span}
    (hls : tokenize source = .ok ls)
    (h : (parseTokens source ls).1 = .error (.grammatical (.tooFewTokens (.consumed ts) span))) :
    ∃ c, (TokenCursor.ofTokens ls).Moves c ∧ c.ahead = [] ∧ ts = c.consumed Reader.lastTokenCount := by
  unfold parseTokens at h
  split at h
  · cases h
  · cases h
  · next stop r hr =>
    obtain ⟨hm, e, p, rfl, -, hfit⟩ := Reader.fits_of_error (visible_of_tokenize hls) hr
    cases h
    cases hfit with
    | inBody hahead => exact ⟨r.cursor, hm, hahead, rfl⟩

/-- An error about an unfinished body shows the last three tokens of the source, or all of them if there
are fewer, in the order of the text: each as it is, but a compound symbol by its last part. -/
theorem consumed_of_parse {source : String} {ts : List Token} {span : Span}
    (h : parse source = .error (.grammatical (.tooFewTokens (.consumed ts) span))) :
    ∃ ls, tokenize source = .ok ls ∧
      ts = (ls.rtake (min 3 ls.length)).map fun l => l.token.lastPart := by
  unfold parse at h
  split at h
  · cases h
  · next ls hls =>
    obtain ⟨c, hm, hc, rfl⟩ := moves_of_parseTokens hls h
    have hlast : ls.rtake (min 3 ls.length) = ls.rtake Reader.lastTokenCount := by
      simp only [List.rtake, Reader.lastTokenCount]
      congr 1
      omega
    exact ⟨ls, hls, by rw [hm.consumed_eq hc, hlast]⟩

/-- Of the symbol that closes two lists of type arguments, the last `>` is shown. -/
theorem consumed_of_parse_behind_split :
    let source := "class A\x7bvoid f()\x7bL<L<A>> x;"
    let ts : List Token := [.symbol .gt, .identifier "x", .symbol .semicolon]
    parse source = .error (.grammatical (.tooFewTokens (.consumed ts) ⟨27, 27⟩)) ∧
      ∃ ls, tokenize source = .ok ls ∧
        ts = (ls.rtake (min 3 ls.length)).map fun l => l.token.lastPart := by
  intro source ts
  have h : parse source = .error (.grammatical (.tooFewTokens (.consumed ts) ⟨27, 27⟩)) := by
    decide +kernel
  exact ⟨h, consumed_of_parse h⟩

/-- The same symbol is `>>` among the tokens of the source: what is shown are not the tokens as they are. -/
theorem consumed_ne_tokens :
    let source := "class A\x7bvoid f()\x7bL<L<A>> x;"
    let ts : List Token := [.symbol .gt, .identifier "x", .symbol .semicolon]
    parse source = .error (.grammatical (.tooFewTokens (.consumed ts) ⟨27, 27⟩)) ∧
      ∃ ls, tokenize source = .ok ls ∧
        (ls.rtake (min 3 ls.length)).map (·.token) =
          [.symbol .shr, .identifier "x", .symbol .semicolon] ∧
        ts ≠ (ls.rtake (min 3 ls.length)).map (·.token) := by
  intro source ts
  have h : parse source = .error (.grammatical (.tooFewTokens (.consumed ts) ⟨27, 27⟩)) ∧
      (tokenize source).toOption.all (fun ls => (ls.rtake (min 3 ls.length)).map (·.token) =
        [.symbol .shr, .identifier "x", .symbol .semicolon]) = true := by
    decide +kernel
  obtain ⟨hparse, hlast⟩ := h
  cases hls : tokenize source with
  | error e =>
    rw [parse, hls] at hparse
    cases hparse
  | ok ls =>
    rw [hls] at hlast
    have hlast := of_decide_eq_true hlast
    refine ⟨hparse, ls, rfl, hlast, ?_⟩
    rw [hlast]
    decide

end ClassText
