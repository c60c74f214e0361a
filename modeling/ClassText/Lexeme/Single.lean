import ClassText.Lexeme.Integer
import ClassText.Lexeme.Layout
import ClassText.Text.Alphanumeric
import ClassText.Token.Error

/-! One token at the head of a text, by maximal munch. -/
namespace ClassText.Lexeme

/-- A token, the characters that spell it, and what follows them. -/
structure Split where
  token : Token
  taken : List Char
  rest : List Char

/-- Why no token begins a text. -/
inductive Flaw where
  | unknown (char : Char)
  | openLiteral (text : List Char)
  | openComment
deriving DecidableEq, Repr

/-- The word in a maximal run of word characters: a reserved word, or else an identifier. -/
def wordToken (s : String) : Token :=
  match Keyword.ofSpelling? s with
  | some k => .keyword k
  | none => .identifier s

/-- The quoted literal behind an opening quote. It ends at the next such quote, whatever stands
before that. -/
def splitQuoted (quote : Char) (make : String → Token) (cs : List Char) : Except Flaw Split :=
  let raw := cs.takeWhile (· != quote)
  match cs.dropWhile (· != quote) with
  | [] => .error (.openLiteral (quote :: raw))
  | _ :: rest => .ok ⟨make (String.ofList raw), quote :: raw ++ [quote], rest⟩

/-- The token at the head of a text that begins with `c` and goes on with `cs`. -/
def splitToken (c : Char) (cs : List Char) : Except Flaw Split :=
  if c = '\x27' then splitQuoted c .character cs
  else if c = '\x22' then splitQuoted c .string cs
  else if c.isDigit then
    let i := splitInteger (c :: cs)
    .ok ⟨.integer i.value i.isLong, i.taken, i.rest⟩
  else if Text.isWordChar c then
    let word := (c :: cs).takeWhile Text.isWordChar
    .ok ⟨wordToken (String.ofList word), word, (c :: cs).dropWhile Text.isWordChar⟩
  else if opensBlock (c :: cs) then .error .openComment
  else
    match Symbol.longestAt? (c :: cs) with
    | some sign =>
      let taken := sign.spelling.toList
      .ok ⟨.symbol sign, taken, (c :: cs).drop taken.length⟩
    | none => .error (.unknown c)

theorem splitQuoted_append {quote : Char} {make : String → Token} {cs : List Char} {s : Split}
    (h : splitQuoted quote make cs = .ok s) : s.taken ++ s.rest = quote :: cs := by
  have hd := List.takeWhile_append_dropWhile (p := (· != quote)) (l := cs)
  unfold splitQuoted at h
  split at h
  · cases h
  · next q rest hq =>
    have hn := List.head?_dropWhile_not (· != quote) cs
    rw [hq] at hd hn
    obtain rfl : q = quote := by simpa using hn
    cases h
    simpa using hd

/-- A token and what follows it make up the text. -/
theorem splitToken_append {c : Char} {cs : List Char} {s : Split} (h : splitToken c cs = .ok s) :
    s.taken ++ s.rest = c :: cs := by
  unfold splitToken at h
  split at h
  · exact splitQuoted_append h
  split at h
  · exact splitQuoted_append h
  split at h
  · cases h
    exact splitInteger_append (c :: cs)
  split at h
  · cases h
    exact List.takeWhile_append_dropWhile
  split at h
  · cases h
  split at h
  · next sign hs =>
    cases h
    obtain ⟨rest, hr⟩ := Symbol.spelling_prefix_of_longestAt? hs
    simp [← hr]
  · cases h

namespace Flaw

/-- The error of a flaw that is found at a place. -/
def toError (p : Position) : Flaw → LexicalError
  | .unknown c => .unknownToken c p (p.spanOver [c])
  | .openLiteral text => .invalidLiteral (String.ofList text) p (p.spanOver text)
  | .openComment => .unterminatedComment p (p.spanOver ['/', '*'])

end Flaw
end ClassText.Lexeme
