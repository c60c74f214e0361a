import ClassText.Fault
import ClassText.Position

/-! A forward cursor over the characters of a text. -/
namespace ClassText

structure CharacterCursor where
  position : Position
  ahead : List Char
deriving DecidableEq

namespace CharacterCursor

def ofSource (source : String) : CharacterCursor := ⟨.origin, source.toList⟩

/-- The character `n` places ahead. -/
def currentAt (c : CharacterCursor) (n : Nat) : Except Fault Char :=
  match c.ahead[n]? with
  | some x => .ok x
  | none => .error .outOfBounds

def current (c : CharacterCursor) : Except Fault Char := c.currentAt 0

/-- The character behind the current one. -/
def following (c : CharacterCursor) : Except Fault Char := c.currentAt 1

/-- Whether at least `n` characters are left. It makes no sense to ask this of zero. -/
def hasNextAt (c : CharacterCursor) (n : Nat) : Except Fault Bool :=
  if n = 0 then .error .zeroLookahead else .ok (decide (n ≤ c.ahead.length))

def hasNext (c : CharacterCursor) : Bool := !c.ahead.isEmpty

/-- Whether there is a current character and it satisfies the test. -/
def currentIs (c : CharacterCursor) (test : Char → Bool) : Bool := c.ahead.head?.any test

/-- Move by `n` characters. A move that runs out of text stops at its end and is a fault. -/
def advanceBy : Nat → CharacterCursor → Except Fault Unit × CharacterCursor
  | 0, c => (.ok (), c)
  | n + 1, c =>
    match c.ahead with
    | [] => (.error .outOfBounds, c)
    | x :: xs => advanceBy n ⟨c.position.advance x, xs⟩

def advance (c : CharacterCursor) : Except Fault Unit × CharacterCursor := advanceBy 1 c

/-- What may be asked of a cursor: looks ahead and moves. -/
inductive Operation where
  | currentAt (n : Nat)
  | hasNextAt (n : Nat)
  | currentIs (test : Char → Bool)
  | advance
  | advanceBy (n : Nat)

/-- What an operation tells. -/
inductive Answer where
  | character (found : Char)
  | truth (holds : Bool)
  | moved

def perform (c : CharacterCursor) : Operation → Except Fault Answer × CharacterCursor
  | .currentAt n => ((c.currentAt n).map .character, c)
  | .hasNextAt n => ((c.hasNextAt n).map .truth, c)
  | .currentIs test => (.ok (.truth (c.currentIs test)), c)
  | .advance => c.advance.map (·.map fun _ => .moved) id
  | .advanceBy n => (advanceBy n c).map (·.map fun _ => .moved) id

/-- Operations in turn. Each goes on where the one before has stopped, whether or not that one was a
fault. -/
def performAll (c : CharacterCursor) (os : List Operation) : CharacterCursor :=
  os.foldl (fun c o => (c.perform o).2) c

end CharacterCursor
end ClassText
