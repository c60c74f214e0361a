import ClassText.Canonical.Tree
import ClassText.Reader.Repetition

/-! Reading expressions: operands with operators between them, nested to the right. -/
namespace ClassText.Reader

/-- Arguments behind an opening parenthesis, and the closing one. -/
def arguments (inner : Reader Expr) : Reader (List Expr) := do
  if ← sees (.symbol .rightParen) then
    expect (.symbol .rightParen)
    return []
  else
    let first ← inner
    let others ← eachBehind (.symbol .comma) inner
    expect (.symbol .rightParen)
    return first :: others

/-- One more link of a chain: a dot and a name, with arguments if a parenthesis follows. A dot without a
name behind it does not belong to the chain. -/
def chainLink (inner : Reader Expr) (base : Expr) : Reader (Option Expr) := do
  let dotted ← sees (.symbol .dot)
  match ← peek? 1 with
  | some (.identifier _) =>
    if dotted then
      skip
      let name ← identifier Role.memberName
      if ← accept (.symbol .leftParen) then
        let given ← arguments inner
        return some (← build (Expr.checkCall base name given))
      else
        return some (← build (Expr.checkField base name))
    else return none
  | _ => return none

/-- A variable and the links behind it. -/
def chain (inner : Reader Expr) : Reader Expr := do
  let name ← identifier Role.variableName
  extend (chainLink inner) (← build (Expr.checkVariable name))

/-- An integer, a chain or an expression in parentheses. -/
def operand (inner : Reader Expr) : Reader Expr := do
  match ← current? with
  | none => tooFew [.expression]
  | some (.integer value isLong) => skip; return .constant value isLong
  | some (.identifier _) => chain inner
  | some (.symbol .leftParen) =>
    skip
    let e ← inner
    expect (.symbol .rightParen)
    return .bracket e
  | some _ => unexpected .expression

/-- One more operator and the operand behind it. -/
def operation (inner : Reader Expr) : Reader (Option (Operator × Expr)) := do
  match (← current?).bind Operator.ofToken? with
  | some op => skip; return some (op, ← operand inner)
  | none => return none

def expressionBody (inner : Reader Expr) : Reader Expr := do
  let first ← operand inner
  return .rightNested first (← collect (operation inner))

def expression : Reader Expr := nested (tooFew [.expression]) expressionBody

end ClassText.Reader
