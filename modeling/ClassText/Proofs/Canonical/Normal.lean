import ClassText.Canonical.Tree
import ClassText.Proofs.Lexeme.Word

/-! Trees in normal form: their names are words, and their expressions nest as they are read. The names
of a tree are listed in the order in which its canonical text has them. -/
namespace ClassText

open Piece

namespace TypeExpr

mutual

def names : TypeExpr → List Name
  | .primitive _ => []
  | .reference n => [n]
  | .generic n first others => n :: (names first ++ furtherNames others)
  | .array element => names element

def furtherNames : List TypeExpr → List Name
  | [] => []
  | t :: ts => names t ++ furtherNames ts

end

end TypeExpr

namespace Expr

/-- A variable, a field or a call. -/
def isChain : Expr → Bool
  | .variable _ | .field _ _ | .call _ _ _ => true
  | _ => false

def isBinary : Expr → Bool
  | .binary _ _ _ => true
  | _ => false

mutual

def names : Expr → List Name
  | .constant _ _ => []
  | .variable n => [n]
  | .field base n => names base ++ [n]
  | .call base n arguments => names base ++ n :: argumentNames arguments
  | .binary _ left right => names left ++ names right
  | .bracket inner => names inner

def argumentNames : List Expr → List Name
  | [] => []
  | e :: es => names e ++ argumentNames es

end

mutual

/-- Fields and calls have a chain for their base, and no operation stands to the left of another. -/
def isNormal : Expr → Bool
  | .constant _ _ | .variable _ => true
  | .field base _ => base.isChain && isNormal base
  | .call base _ arguments => base.isChain && isNormal base && areNormal arguments
  | .binary _ left right => !left.isBinary && isNormal left && isNormal right
  | .bracket inner => isNormal inner

def areNormal : List Expr → Bool
  | [] => true
  | e :: es => isNormal e && areNormal es

end

end Expr

def initializerNames (value : Option Expr) : List Name := value.toList.flatMap Expr.names

namespace Statement

def names : Statement → List Name
  | .declareLocal _ type n initializer => type.names ++ n :: initializerNames initializer
  | .returnValue value => value.names
  | .empty => []
  | .assignField base n value => (Expr.field base n).names ++ value.names
  | .callMethod base n arguments => (Expr.call base n arguments).names

def isNormal : Statement → Bool
  | .declareLocal _ _ _ initializer => initializer.all Expr.isNormal
  | .returnValue value => value.isNormal
  | .empty => true
  | .assignField base n value => (Expr.field base n).isNormal && value.isNormal
  | .callMethod base n arguments => (Expr.call base n arguments).isNormal

end Statement

namespace Field

def names (f : Field) : List Name := f.type.names ++ f.name :: initializerNames f.initializer

def isNormal (f : Field) : Bool := f.initializer.all Expr.isNormal

end Field

def Parameter.names (p : Parameter) : List Name := p.type.names ++ [p.name]

namespace Method

def names (m : Method) : List Name :=
  m.result.names ++ m.name :: (m.parameters.flatMap Parameter.names ++
    m.body.toList.flatMap (·.flatMap Statement.names))

def isNormal (m : Method) : Bool := m.body.all (·.all Statement.isNormal)

end Method

namespace ClassDecl

def names (c : ClassDecl) : List Name :=
  c.package.toList.flatMap QualifiedName.segments ++ c.imports.flatMap QualifiedName.segments ++
  c.name :: c.superclass.toList ++ c.interfaces ++
  c.fields.flatMap Field.names ++ c.methods.flatMap Method.names

theorem mem_names_iff {c : ClassDecl} {n : Name} : n ∈ c.names ↔
    (∃ q ∈ c.package, n ∈ q.segments) ∨ (∃ q ∈ c.imports, n ∈ q.segments) ∨ n = c.name ∨
    n ∈ c.superclass ∨ n ∈ c.interfaces ∨ (∃ f ∈ c.fields, n ∈ f.names) ∨
    ∃ m ∈ c.methods, n ∈ m.names := by
  simp [names]

/-- The class is what reading its own canonical text can give. -/
def isNormal (c : ClassDecl) : Bool :=
  c.names.all (Lexeme.isWord ·.text) && c.fields.all Field.isNormal && c.methods.all Method.isNormal

theorem isNormal_iff {c : ClassDecl} : c.isNormal = true ↔
    (∀ n ∈ c.names, Lexeme.isWord n.text = true) ∧
    c.fields.all Field.isNormal = true ∧ c.methods.all Method.isNormal = true := by
  rw [isNormal, Bool.and_eq_true, Bool.and_eq_true, List.all_eq_true, and_assoc]

end ClassDecl

namespace Piece

def identifier? : Piece → Option String
  | .lexeme (.identifier x) => some x
  | _ => none

/-- The identifiers among pieces, in their order. -/
def identifiers (ps : List Piece) : List String := ps.filterMap identifier?

@[simp] theorem identifiers_nil : identifiers [] = [] := rfl

@[simp] theorem identifiers_append (ps qs : List Piece) :
    identifiers (ps ++ qs) = identifiers ps ++ identifiers qs := List.filterMap_append

@[simp] theorem identifiers_ident (n : Name) (ps : List Piece) :
    identifiers (ident n :: ps) = n.text :: identifiers ps := rfl

@[simp] theorem identifiers_sign (s : Symbol) (ps : List Piece) :
    identifiers (sign s :: ps) = identifiers ps := rfl

@[simp] theorem identifiers_word (k : Keyword) (ps : List Piece) :
    identifiers (word k :: ps) = identifiers ps := rfl

@[simp] theorem identifiers_space (ps : List Piece) :
    identifiers (Piece.space :: ps) = identifiers ps := rfl

@[simp] theorem identifiers_newline (ps : List Piece) :
    identifiers (Piece.newline :: ps) = identifiers ps := rfl

theorem mem_tokens_of_mem_identifiers {x : String} {ps : List Piece} (h : x ∈ identifiers ps) :
    .identifier x ∈ tokens ps := by
  obtain ⟨p, hp, hx⟩ := List.mem_filterMap.1 h
  refine List.mem_filterMap.2 ⟨p, hp, ?_⟩
  match p with
  | .lexeme (.identifier y) =>
    cases hx
    rfl

theorem identifiers_flatMap (f : α → List Piece) (as : List α) :
    identifiers (as.flatMap f) = as.flatMap fun a => identifiers (f a) := by
  induction as with
  | nil => rfl
  | cons a as ih => simp [ih]

theorem identifiers_nameList (between : Symbol) (ns : List Name) :
    identifiers (nameList between ns) = ns.map (·.text) := by
  cases ns with
  | nil => rfl
  | cons n ns =>
    simp only [nameList, identifiers_ident, identifiers_flatMap, List.map_cons,
      List.map_eq_flatMap (l := ns)]
    rfl

theorem identifiers_modifierList (ms : List Modifier) : identifiers (modifierList ms) = [] := by
  rw [modifierList, identifiers_flatMap]
  simp

end Piece

namespace TypeExpr

mutual

theorem identifiers_pieces : (t : TypeExpr) → identifiers t.pieces = t.names.map (·.text)
  | .primitive _ => rfl
  | .reference _ => rfl
  | .generic n first others => by
    simp [pieces, names, identifiers_pieces first, identifiers_furtherPieces others]
  | .array element => by simp [pieces, names, identifiers_pieces element]

theorem identifiers_furtherPieces : (ts : List TypeExpr) →
    identifiers (furtherPieces ts) = (furtherNames ts).map (·.text)
  | [] => rfl
  | t :: ts => by
    simp [furtherPieces, furtherNames, identifiers_pieces t, identifiers_furtherPieces ts]

end

end TypeExpr

namespace Expr

mutual

theorem identifiers_pieces : (e : Expr) → identifiers e.pieces = e.names.map (·.text)
  | .constant _ _ => rfl
  | .variable _ => rfl
  | .field base n => by simp [pieces, names, identifiers_pieces base]
  | .call base n arguments => by
    simp [pieces, names, identifiers_pieces base, identifiers_argumentPieces arguments]
  | .binary _ left right => by
    simp [pieces, names, identifiers_pieces left, identifiers_pieces right]
  | .bracket inner => by simp [pieces, names, identifiers_pieces inner]

theorem identifiers_argumentPieces : (es : List Expr) →
    identifiers (argumentPieces es) = (argumentNames es).map (·.text)
  | [] => rfl
  | e :: es => by
    simp [argumentPieces, argumentNames, identifiers_pieces e, identifiers_furtherPieces es]

theorem identifiers_furtherPieces : (es : List Expr) →
    identifiers (furtherPieces es) = (argumentNames es).map (·.text)
  | [] => rfl
  | e :: es => by
    simp [furtherPieces, argumentNames, identifiers_pieces e, identifiers_furtherPieces es]

end

end Expr

theorem identifiers_initializerPieces (value : Option Expr) :
    identifiers (initializerPieces value) = (initializerNames value).map (·.text) := by
  cases value with
  | none => rfl
  | some e => simp [initializerPieces, initializerNames, e.identifiers_pieces]

theorem identifiers_finalPieces (isFinal : Bool) : identifiers (finalPieces isFinal) = [] := by
  cases isFinal <;> rfl

theorem Statement.identifiers_pieces (st : Statement) :
    identifiers st.pieces = st.names.map (·.text) := by
  cases st with
  | empty => rfl
  | _ => simp [pieces, names, TypeExpr.identifiers_pieces, Expr.identifiers_pieces,
      identifiers_initializerPieces, identifiers_finalPieces]

theorem Field.identifiers_pieces (f : Field) : identifiers f.pieces = f.names.map (·.text) := by
  simp [pieces, names, TypeExpr.identifiers_pieces, identifiers_initializerPieces,
    identifiers_modifierList]

namespace Parameter

theorem identifiers_pieces (p : Parameter) : identifiers p.pieces = p.names.map (·.text) := by
  simp [pieces, names, TypeExpr.identifiers_pieces, identifiers_finalPieces]

theorem identifiers_listPieces (ps : List Parameter) :
    identifiers (listPieces ps) = (ps.flatMap names).map (·.text) := by
  cases ps with
  | nil => rfl
  | cons p ps => simp [listPieces, identifiers_flatMap, identifiers_pieces, List.map_flatMap]

end Parameter

namespace Method

theorem identifiers_bodyPieces (body : Option (List Statement)) : identifiers (bodyPieces body) =
    (body.toList.flatMap (·.flatMap Statement.names)).map (·.text) := by
  cases body with
  | none => rfl
  | some sts =>
    simp [bodyPieces, identifiers_flatMap, Statement.identifiers_pieces, List.map_flatMap]

theorem identifiers_pieces (m : Method) : identifiers m.pieces = m.names.map (·.text) := by
  simp [pieces, names, TypeExpr.identifiers_pieces, Parameter.identifiers_listPieces,
    identifiers_bodyPieces, identifiers_modifierList]

end Method

namespace ClassDecl

theorem identifiers_headPieces (c : ClassDecl) : identifiers c.headPieces =
    (c.package.toList.flatMap QualifiedName.segments ++ c.imports.flatMap QualifiedName.segments ++
      c.name :: c.superclass.toList ++ c.interfaces).map (·.text) := by
  have hover : identifiers (superclassPieces c.superclass) =
      c.superclass.toList.map (·.text) := by
    cases c.superclass <;> rfl
  have htypes : identifiers (interfacePieces c.interfaces) = c.interfaces.map (·.text) := by
    cases c.interfaces with
    | nil => rfl
    | cons n ns => simp [interfacePieces, identifiers_nameList]
  simp [headPieces, hover, htypes, identifiers_flatMap, identifiers_modifierList,
    identifiers_nameList, QualifiedName.packagePieces, QualifiedName.importPieces,
    QualifiedName.piecesAfter, List.map_flatMap]

/-- The canonical text of a class has the names of the class, and no other identifier. -/
theorem identifiers_pieces (c : ClassDecl) : identifiers c.pieces = c.names.map (·.text) := by
  simp [pieces, names, identifiers_headPieces, identifiers_flatMap, Field.identifiers_pieces,
    Method.identifiers_pieces, List.map_flatMap]

end ClassDecl
end ClassText
