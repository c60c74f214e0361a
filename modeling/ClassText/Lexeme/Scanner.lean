import ClassText.Cursor.Character
import ClassText.Lexeme.Stream

/-! Tokens read with a character cursor, one look and one move at a time. The cursor faults where it is
asked for a character that is not there, so each look stands behind the question whether there is
something to look at. -/
namespace ClassText.Lexeme

/-- Why a scanner stops. -/
inductive Halt where
  | rejected (error : LexicalError)
  | broken (fault : Fault)
  /-- What is taken for the beginning of an operator begins none. -/
  | noOperator (lead : Char)
deriving DecidableEq

abbrev Scanner := EStateM Halt CharacterCursor

namespace Scanner

def ask (question : CharacterCursor → Except Fault α) : Scanner α := do
  match question (← get) with
  | .ok a => pure a
  | .error f => throw (.broken f)

def hasNextAt (n : Nat) : Scanner Bool := ask (·.hasNextAt n)

def currentAt (n : Nat) : Scanner Char := ask (·.currentAt n)

def advanceBy (n : Nat) : Scanner Unit := do
  let (moved, c) := CharacterCursor.advanceBy n (← get)
  set c
  ask fun _ => moved

def position : Scanner Position := return (← get).position

/-- Whether there is a current character and it satisfies the test. -/
def currentIs (test : Char → Bool) : Scanner Bool := do
  if ← hasNextAt 1 then return test (← currentAt 0) else return false

/-- Whether the next two characters are these. -/
def pairIs (a b : Char) : Scanner Bool := do
  if ← hasNextAt 2 then return (← currentAt 0) == a && (← currentAt 1) == b else return false

/-- At most `n` results of a step, up to the first round in which it gives none. -/
def collectWithin (step : Scanner (Option α)) : Nat → Scanner (List α)
  | 0 => pure []
  | n + 1 => do
    match ← step with
    | none => return []
    | some a => return a :: (← collectWithin step n)

/-- The results of a step that takes at least one character whenever it gives one. -/
def collect (step : Scanner (Option α)) : Scanner (List α) := do
  collectWithin step ((← get).ahead.length + 1)

/-- The current character, if it satisfies the test. -/
def takeIf (test : Char → Bool) : Scanner (Option Char) := do
  if ← currentIs test then
    let c ← currentAt 0
    advanceBy 1
    return some c
  else return none

/-- Characters as far as they satisfy the test. -/
def takeRun (test : Char → Bool) : Scanner (List Char) := collect (takeIf test)

/-- One more character of a line comment. The newline is taken and ends it. -/
def lineStep : Scanner (Option Unit) := do
  if ← hasNextAt 1 then
    let c ← currentAt 0
    advanceBy 1
    return if c = '\n' then none else some ()
  else return none

/-- A comment up to the end of its line, or of the text. -/
def lineComment : Scanner Unit := do
  advanceBy 2
  let _ ← collect lineStep

/-- One more character of the block comment that begins at `p`. Its closing mark is taken and ends it. -/
def blockStep (p : Position) : Scanner (Option Unit) := do
  if ← hasNextAt 2 then
    if ← pairIs '*' '/' then
      advanceBy 2
      return none
    else
      advanceBy 1
      return some ()
  else throw (.rejected (.unterminatedComment p ⟨p.offset, p.offset + 2⟩))

/-- A comment up to its closing mark. -/
def blockComment : Scanner Unit := do
  let p ← position
  advanceBy 2
  let _ ← collect (blockStep p)

/-- A comment that begins with these two characters, if it is there. Tells whether it was. -/
def passComment (a b : Char) (comment : Scanner Unit) : Scanner Bool := do
  if ← pairIs a b then
    comment
    return true
  else return false

/-- Blanks, a line comment and a block comment, as far as they are there. -/
def layoutStep : Scanner (Option Unit) := do
  let blanks ← takeRun Text.isBlank
  let line ← passComment '/' '/' lineComment
  let block ← passComment '/' '*' blockComment
  return if !blanks.isEmpty || line || block then some () else none

/-- Blanks and comments in any order. -/
def layout : Scanner Unit := do
  let _ ← collect layoutStep

def word : Scanner Token := return wordToken (String.ofList (← takeRun Text.isWordChar))

def radix : Scanner Radix := do
  if ← pairIs '0' 'x' then
    advanceBy 2
    return .hexadecimal
  else if ← pairIs '0' 'b' then
    advanceBy 2
    return .binary
  else return .decimal

def long : Scanner Bool := do
  let there ← currentIs (· == 'L')
  if there then advanceBy 1
  return there

def integer : Scanner Token := do
  let r ← radix
  let digits ← takeRun r.accepts
  return .integer (r.value digits) (← long)

/-- A quoted literal, of which the opening quote is the current character. -/
def quoted (quote : Char) (make : String → Token) : Scanner Token := do
  let p ← position
  advanceBy 1
  let raw ← takeRun (· != quote)
  if ← hasNextAt 1 then
    advanceBy 1
    return make (String.ofList raw)
  else
    let stop := (← position).offset
    throw (.rejected (.invalidLiteral (String.ofList (quote :: raw)) p ⟨p.offset, stop⟩))

/-- The symbols of one character that no longer symbol begins with. -/
def separator? : Char → Option Symbol
  | '\x7b' => some .leftBrace | '\x7d' => some .rightBrace
  | '[' => some .leftBracket | ']' => some .rightBracket
  | '(' => some .leftParen | ')' => some .rightParen
  | '.' => some .dot | ',' => some .comma | ':' => some .colon | ';' => some .semicolon
  | '~' => some .tilde | '!' => some .not | '?' => some .question | '@' => some .at
  | _ => none

/-- The characters with which an operator may begin. -/
def operatorLeads : List Char := ['<', '>', '+', '-', '*', '/', '%', '^', '|', '&', '=']

/-- The operator that is its first character alone, and what makes a longer one of it, the longest
first. -/
def operators? : Char → Option (Symbol × List (List Char × Symbol))
  | '<' => some (.lt, [(['<', '='], .shlAssign), (['='], .ltEq), (['<'], .shl)])
  | '>' => some (.gt, [(['>', '>', '='], .uShrAssign), (['>', '='], .shrAssign),
      (['>', '>'], .uShr), (['='], .gtEq), (['>'], .shr)])
  | '+' => some (.plus, [(['='], .plusAssign), (['+'], .plusPlus)])
  | '-' => some (.minus, [(['='], .minusAssign), (['-'], .minusMinus), (['>'], .arrow)])
  | '*' => some (.star, [(['='], .starAssign)])
  | '/' => some (.slash, [(['='], .slashAssign)])
  | '%' => some (.percent, [(['='], .percentAssign)])
  | '^' => some (.caret, [(['='], .caretAssign)])
  | '|' => some (.pipe, [(['='], .pipeAssign), (['|'], .orOr)])
  | '&' => some (.ampersand, [(['='], .ampersandAssign), (['&'], .andAnd)])
  | '=' => some (.assign, [(['='], .eqEq)])
  | _ => none

/-- Whether the characters from the `n`-th on are these. -/
def standsAt (n : Nat) : List Char → Scanner Bool
  | [] => return true
  | c :: cs => do if (← currentAt n) = c then standsAt (n + 1) cs else return false

/-- Whether the characters behind the current one are these. -/
def followedBy (suffix : List Char) : Scanner Bool := do
  if ← hasNextAt (suffix.length + 1) then standsAt 1 suffix else return false

/-- The first of the longer operators that stands here, or else the plain one. -/
def operatorAmong (plain : Symbol) : List (List Char × Symbol) → Scanner Symbol
  | [] => do
    advanceBy 1
    return plain
  | (suffix, longer) :: more => do
    if ← followedBy suffix then
      advanceBy (1 + suffix.length)
      return longer
    else operatorAmong plain more

def operator (lead : Char) : Scanner Symbol :=
  match operators? lead with
  | some (plain, longer) => operatorAmong plain longer
  | none => throw (.noOperator lead)

def token : Scanner Token := do
  let c ← currentAt 0
  match separator? c with
  | some s =>
    advanceBy 1
    return .symbol s
  | none =>
    if operatorLeads.contains c then return .symbol (← operator c)
    else if c = '\x27' then quoted c .character
    else if c = '\x22' then quoted c .string
    else if c.isDigit then integer
    else if Text.isWordChar c then word
    else
      let p ← position
      throw (.rejected (.unknownToken c p ⟨p.offset, p.offset + c.utf8Size⟩))

/-- The next token, if one is left. -/
def next : Scanner (Option Located) := do
  layout
  if ← hasNextAt 1 then
    let p ← position
    let t ← token
    return some ⟨t, p, ⟨p.offset, (← position).offset⟩⟩
  else return none

/-- All tokens. -/
def tokens : Scanner (List Located) := collect next

end Scanner
end ClassText.Lexeme
