import ClassText.Reader.Expr
import ClassText.Reader.TypeExpr

/-! Reading statements. -/
namespace ClassText.Reader

/-- The value behind an assignment sign, if there is one. -/
def initializer : Reader (Option Expr) := do
  if ← accept (.symbol .assign) then return some (← expression) else return none

/-- A local declaration, without the word `final`. -/
def localDeclaration (isFinal : Bool) : Reader Statement := do
  let type ← typeExpr
  let name ← identifier Role.variableName
  if ← atEnd then tooFew [.token (.symbol .assign), .token (.symbol .semicolon)]
  let value ← initializer
  expect (.symbol .semicolon)
  return .declareLocal isFinal type (← build (Name.check Role.variableName name)) value

/-- Whether the token behind an identifier shows that a type begins there. -/
def showsType : Option Token → Bool
  | some (.identifier _) => true
  | some (.symbol .lt) => true
  | some (.symbol .leftBracket) => true
  | _ => false

/-- What follows the chain that a statement begins with at the token `l`. A chain that ends in a field is
assigned to, one that ends in a call is a statement of its own. -/
def afterChain (l : Located) : Expr → Reader Statement
  | .field base name => do
    expect (.symbol .assign)
    let value ← expression
    expect (.symbol .semicolon)
    return .assignField base name value
  | .call base name given => do
    expect (.symbol .semicolon)
    return .callMethod base name given
  | _ => do
    let stop := (← get).cursor.consumedEnd
    reject (.ambiguousStatement l.position ⟨l.span.start, max stop l.span.start⟩)

/-- A statement that begins with a chain: it assigns to a field or calls a method. -/
def chainStatement : Reader Statement := do
  match (← get).cursor.get? 0 with
  | none => tooFew [.statement]
  | some l => afterChain l (← chain expression)

/-- A statement, by its first tokens. -/
def statementBody : Reader Statement := do
  match ← current? with
  | none => tooFew [.statement]
  | some (.keyword .final) => skip; localDeclaration true
  | some (.keyword .«return») =>
    skip
    let value ← expression
    expect (.symbol .semicolon)
    return .returnValue value
  | some (.symbol .semicolon) => skip; return .empty
  | some (.keyword k) =>
    if (Primitive.ofKeyword? k).isSome then localDeclaration false else unexpected .statement
  | some (.identifier _) =>
    if showsType (← peek? 1) then localDeclaration false else chainStatement
  | some _ => unexpected .statement

def statement : Reader Statement := do
  let s ← statementBody
  record (.statement s)
  return s

end ClassText.Reader
