import ClassText.Reader.Repetition

/-! Reading types. -/
namespace ClassText.Reader

/-- A type that begins with a name, given a reader for its arguments. -/
def namedType (argument : Reader TypeExpr) : Reader TypeExpr := do
  let name ← identifier Role.typeName
  if ← accept (.symbol .lt) then
    let first ← argument
    let others ← eachBehind (.symbol .comma) argument
    closingAngle
    build (TypeExpr.checkGeneric name (first :: others))
  else
    build (TypeExpr.checkReference name)

/-- A type without its array brackets. -/
def elementType (argument : Reader TypeExpr) : Reader TypeExpr := do
  match ← current? with
  | none => tooFew [.type]
  | some (.identifier _) => namedType argument
  | some (.keyword k) =>
    match Primitive.ofKeyword? k with
    | some p => skip; return .primitive p
    | none => unexpected .type
  | some _ => unexpected .type

/-- One more pair of array brackets. -/
def arrayBrackets (element : TypeExpr) : Reader (Option TypeExpr) := do
  if ← accept (.symbol .leftBracket) then
    expect (.symbol .rightBracket)
    return some (.array element)
  else return none

def typeBody (argument : Reader TypeExpr) : Reader TypeExpr := do
  extend arrayBrackets (← elementType argument)

def typeExpr : Reader TypeExpr := nested (tooFew [.type]) typeBody

end ClassText.Reader
