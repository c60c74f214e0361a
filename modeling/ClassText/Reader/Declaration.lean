import ClassText.Reader.Statement

/-! Reading members and classes. -/
namespace ClassText.Reader

/-- Segments with dots between them, and a semicolon. -/
def qualifiedName (role : String) : Reader QualifiedName := do
  let first ← identifier role
  let others ← eachBehind (.symbol .dot) (identifier role)
  expect (.symbol .semicolon)
  build (QualifiedName.check role (first :: others))

/-- One more modifier. -/
def modifier? : Reader (Option Modifier) := do
  match ← current? with
  | some (.keyword k) =>
    match Modifier.ofKeyword? k with
    | some m => skip; return some m
    | none => return none
  | _ => return none

/-- Modifiers in the order in which they are written. -/
def modifiers : Reader (List Modifier) := collect modifier?

/-- The rest of a field behind its name. -/
def fieldRest (ms : List Modifier) (type : TypeExpr) (name : String) : Reader Field := do
  if ← atEnd then tooFew [.token (.symbol .assign), .token (.symbol .semicolon)]
  if ← accept (.symbol .semicolon) then
    return ⟨ms, type, ← build (Name.check Role.fieldName name), none⟩
  else
    expect (.symbol .assign)
    let value ← expression
    expect (.symbol .semicolon)
    return ⟨ms, type, ← build (Name.check Role.fieldName name), some value⟩

def parameter : Reader Parameter := do
  let isFinal ← accept (.keyword .final)
  let type ← typeExpr
  let name ← identifier Role.parameterName
  return ⟨isFinal, type, ← build (Name.check Role.parameterName name)⟩

/-- Parameters up to the closing parenthesis. -/
def parameters : Reader (List Parameter) := do
  if ← sees (.symbol .rightParen) then return []
  else
    let first ← parameter
    return first :: (← eachBehind (.symbol .comma) parameter)

/-- Statements up to the closing brace, which is consumed. -/
def body : Reader (List Statement) :=
  collect do
    if ← atEnd then tooFewInBody
    if ← accept (.symbol .rightBrace) then return none else return some (← statement)

/-- The rest of a method behind its name. -/
def methodRest (ms : List Modifier) (result : TypeExpr) (name : String) : Reader Method := do
  expect (.symbol .leftParen)
  let ps ← parameters
  expect (.symbol .rightParen)
  if ← atEnd then tooFew [.token (.symbol .semicolon), .token (.symbol .leftBrace)]
  if ← accept (.symbol .semicolon) then
    return ⟨ms, result, ← build (Name.check Role.methodName name), ps, none⟩
  else
    expect (.symbol .leftBrace)
    let statements ← body
    return ⟨ms, result, ← build (Name.check Role.methodName name), ps, some statements⟩

/-- The rest of a member behind its name. A parenthesis there makes it a method. -/
def memberRest (ms : List Modifier) (type : TypeExpr) (name : String) : Reader Member := do
  if ← sees (.symbol .leftParen) then
    let m ← methodRest ms type name
    record (.method m.name)
    return .method m
  else
    let f ← fieldRest ms type name
    record (.field f.name)
    return .field f

def member : Reader Member := do
  let ms ← modifiers
  let type ← typeExpr
  let name ← identifier Role.memberName
  memberRest ms type name

/-- Members up to the closing brace, which is consumed. -/
def members : Reader (List Member) :=
  collect do
    if ← atEnd then tooFew [.token (.symbol .rightBrace), .type]
    if ← accept (.symbol .rightBrace) then return none else return some (← member)

def package : Reader (Option QualifiedName) := do
  if ← accept (.keyword .package) then return some (← qualifiedName Role.packageName)
  else return none

def imports : Reader (List QualifiedName) :=
  collect do
    if ← accept (.keyword .«import») then return some (← qualifiedName Role.importName)
    else return none

def superclass : Reader (Option String) := do
  if ← accept (.keyword .«extends») then return some (← identifier Role.superclassName)
  else return none

def interfaces : Reader (List String) := do
  if ← accept (.keyword .implements) then
    let first ← identifier Role.interfaceName
    return first :: (← eachBehind (.symbol .comma) (identifier Role.interfaceName))
  else return []

/-- A class with everything before it and in it. Its names are checked when all of it has been read. -/
def classDecl : Reader ClassDecl := do
  let package ← package
  let imports ← imports
  let ms ← modifiers
  expect (.keyword .«class»)
  let name ← identifier Role.className
  let superclass ← superclass
  let interfaces ← interfaces
  expect (.symbol .leftBrace)
  let declared ← members
  let name ← build (Name.check Role.className name)
  let superclass ← build (superclass.mapM (Name.check Role.superclassName))
  let interfaces ← build (interfaces.mapM (Name.check Role.interfaceName))
  return {
    package, imports, modifiers := ms, name, superclass, interfaces
    fields := declared.filterMap Member.field?
    methods := declared.filterMap Member.method? }

/-- The next top-level declaration; nothing if no token is left. -/
def nextDeclaration : Reader (Option ClassDecl) := do
  if ← atEnd then return none
  else
    let c ← classDecl
    record (.declaration c.name c.fields.length c.methods.length)
    return some c

end ClassText.Reader
