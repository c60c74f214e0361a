/-! Broken preconditions: what a caller may not ask of a cursor or put into a tree. -/
namespace ClassText

inductive Fault where
  /-- A name without a visible character, in the given role. -/
  | blankName (role : String)
  /-- A dotted name without segments, in the given role. -/
  | noSegments (role : String)
  /-- A generic type without type arguments. -/
  | noArguments (typeName : String)
  /-- A look or a move beyond the last element. -/
  | outOfBounds
  /-- A question whether no element at all is left. -/
  | zeroLookahead
deriving DecidableEq, Repr

def Fault.message : Fault → String
  | .blankName role => role ++ " must not be blank"
  | .noSegments role => role ++ " needs at least one segment"
  | .noArguments typeName => "generic type '" ++ typeName ++ "' needs at least one argument"
  | .outOfBounds => "out of bounds"
  | .zeroLookahead => "lookahead step must be at least 1"

end ClassText
