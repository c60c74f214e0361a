import ClassText.Cursor.Token
import ClassText.Reader.Error
import ClassText.Tree.Declaration

/-! Readers of tokens. A reader that stops keeps the state in which it stopped: what it has consumed
stays consumed. -/
namespace ClassText

/-- What a reader has come to the end of. -/
inductive Milestone where
  | statement (read : Statement)
  | field (name : Name)
  | method (name : Name)
  | declaration (name : Name) (fields methods : Nat)
deriving DecidableEq, Repr

/-- The tokens, and the milestones passed so far, latest first. -/
structure Reading where
  cursor : TokenCursor
  milestones : List Milestone
deriving DecidableEq

namespace Reading

def ofTokens (tokens : List Located) : Reading := ⟨.ofTokens tokens, []⟩

/-- The tokens that have not been consumed, with compound symbols taken apart. -/
def unread (r : Reading) : List Token := Token.expand (r.cursor.ahead.map (·.token))

end Reading

/-- Why a reader stops: the tokens do not fit, or a node cannot be built from them. -/
inductive Stop where
  | rejected (error : SyntaxError)
  | broken (fault : Fault)
deriving DecidableEq, Repr

abbrev Reader := EStateM Stop Reading

namespace Reader

def reject (e : SyntaxError) : Reader α := throw (.rejected e)

/-- The result of a construction that may be faulty. -/
def build (made : Except Fault α) : Reader α :=
  match made with
  | .ok a => pure a
  | .error f => throw (.broken f)

def record (m : Milestone) : Reader Unit :=
  modify fun r => { r with milestones := m :: r.milestones }

/-- The token `n` places ahead, if there is one. -/
def peek? (n : Nat) : Reader (Option Token) := return (← get).cursor.peek? n

def current? : Reader (Option Token) := peek? 0

def atEnd : Reader Bool := return (← current?).isNone

/-- Consume a token, if there is one. -/
def skip : Reader Unit := modify fun r => { r with cursor := r.cursor.advance }

/-- Whether the current token is `t`. -/
def sees (t : Token) : Reader Bool := return (← current?) = some t

/-- Consume the current token if it is `t`, and tell whether it was. -/
def accept (t : Token) : Reader Bool := do
  let there ← sees t
  if there then skip
  return there

/-- The input ends where one of these could have come. -/
def tooFew (alternatives : List Expected) : Reader α := do
  reject (.tooFewTokens (.expected alternatives) (← get).cursor.endSpan)

/-- How many of the last tokens an unfinished body is reported with. -/
def lastTokenCount : Nat := 3

/-- The input ends within a body. -/
def tooFewInBody : Reader α := do
  let c := (← get).cursor
  reject (.tooFewTokens (.consumed (c.consumed lastTokenCount)) c.endSpan)

/-- This token, or the end of the input, stands where something else is expected. -/
def refuse (expected : Expected) : Option Located → Reader α
  | some l => reject (.unexpectedToken expected l.token l.position l.span)
  | none => tooFew [expected]

/-- The current token is not what is expected; or there is none. -/
def unexpected (expected : Expected) : Reader α := do
  refuse expected ((← get).cursor.get? 0)

/-- Consume exactly this token. -/
def expect (t : Token) : Reader Unit := do
  if ← sees t then skip else unexpected (.token t)

/-- Consume an identifier and give its text. -/
def identifier (role : String) : Reader String := do
  match ← current? with
  | some (.identifier s) => skip; return s
  | _ => unexpected (.identifier role)

/-- Put what is left of the current token in its place. -/
def splitCurrent (left : Token) : Reader Unit := do
  let c ← build ((← get).cursor.splitCurrent left)
  modify fun r => { r with cursor := c }

/-- Consume the `>` that closes a list of type arguments. Of a compound symbol only the first character
is consumed, and what is left becomes the current token. -/
def closingAngle : Reader Unit := do
  match ← current? with
  | some (.symbol s) =>
    match s.afterAngle? with
    | some left => splitCurrent (.symbol left)
    | none => expect (.symbol .gt)
  | _ => expect (.symbol .gt)

end Reader
end ClassText
