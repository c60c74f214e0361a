import ClassText.Canonical.Piece
import ClassText.Tree.Declaration

/-! The canonical text of every kind of tree. No token is written that the tree does not determine, and
members stand fields first. -/
namespace ClassText

open Piece

namespace TypeExpr

mutual

def pieces : TypeExpr → List Piece
  | .primitive p => [word p.keyword]
  | .reference n => [ident n]
  | .generic n first others =>
    ident n :: sign .lt :: (pieces first ++ furtherPieces others ++ [sign .gt])
  | .array element => pieces element ++ [sign .leftBracket, sign .rightBracket]

/-- Types behind a first one, each with a comma before it. -/
def furtherPieces : List TypeExpr → List Piece
  | [] => []
  | t :: ts => sign .comma :: (pieces t ++ furtherPieces ts)

end

def render (t : TypeExpr) : String := join t.pieces

end TypeExpr

namespace Operator

def symbol : Operator → Symbol
  | .plus => .plus
  | .minus => .minus
  | .times => .star
  | .divide => .slash

def all : List Operator := [.plus, .minus, .times, .divide]

/-- The operator that a token stands for. -/
def ofToken? (t : Token) : Option Operator := all.find? fun op => t = .symbol op.symbol

end Operator

namespace Expr

mutual

def pieces : Expr → List Piece
  | .constant value isLong => [.lexeme (.integer value isLong)]
  | .variable n => [ident n]
  | .field base n => pieces base ++ [sign .dot, ident n]
  | .call base n arguments =>
    pieces base ++ sign .dot :: ident n :: sign .leftParen ::
      (argumentPieces arguments ++ [sign .rightParen])
  | .binary op left right => pieces left ++ sign op.symbol :: pieces right
  | .bracket inner => sign .leftParen :: (pieces inner ++ [sign .rightParen])

/-- Arguments with commas between them. -/
def argumentPieces : List Expr → List Piece
  | [] => []
  | e :: es => pieces e ++ furtherPieces es

/-- Arguments behind a first one, each with a comma before it. -/
def furtherPieces : List Expr → List Piece
  | [] => []
  | e :: es => sign .comma :: (pieces e ++ furtherPieces es)

end

def render (e : Expr) : String := join e.pieces

end Expr

/-- An initial value, if there is one, with the sign before it. -/
def initializerPieces : Option Expr → List Piece
  | none => []
  | some e => sign .assign :: e.pieces

/-- The word `final`, if it is there, with a space behind it. -/
def finalPieces (isFinal : Bool) : List Piece := if isFinal then [word .final, Piece.space] else []

namespace Statement

def pieces : Statement → List Piece
  | .declareLocal isFinal type n initializer =>
    finalPieces isFinal ++ type.pieces ++ Piece.space :: ident n ::
      (initializerPieces initializer ++ [sign .semicolon])
  | .returnValue value => word .«return» :: Piece.space :: (value.pieces ++ [sign .semicolon])
  | .empty => [sign .semicolon]
  | .assignField base n value =>
    (Expr.field base n).pieces ++ sign .assign :: (value.pieces ++ [sign .semicolon])
  | .callMethod base n arguments => (Expr.call base n arguments).pieces ++ [sign .semicolon]

def render (s : Statement) : String := join s.pieces

end Statement

namespace QualifiedName

/-- A dotted name as a declaration of its own, opened by a reserved word. -/
def piecesAfter (opening : Keyword) (q : QualifiedName) : List Piece :=
  word opening :: Piece.space :: (nameList .dot q.segments ++ [sign .semicolon])

def packagePieces (q : QualifiedName) : List Piece := q.piecesAfter .package

def importPieces (q : QualifiedName) : List Piece := q.piecesAfter .«import»

def renderPackage (q : QualifiedName) : String := join q.packagePieces

def renderImport (q : QualifiedName) : String := join q.importPieces

end QualifiedName

namespace Field

def pieces (f : Field) : List Piece :=
  modifierList f.modifiers ++ f.type.pieces ++ Piece.space :: ident f.name ::
    (initializerPieces f.initializer ++ [sign .semicolon])

def render (f : Field) : String := join f.pieces

end Field

namespace Parameter

def pieces (p : Parameter) : List Piece :=
  finalPieces p.isFinal ++ p.type.pieces ++ [Piece.space, ident p.name]

def render (p : Parameter) : String := join p.pieces

/-- Parameters with commas between them. -/
def listPieces : List Parameter → List Piece
  | [] => []
  | p :: ps => p.pieces ++ ps.flatMap fun q => sign .comma :: q.pieces

end Parameter

namespace Method

/-- A body in braces, or a semicolon where there is none. -/
def bodyPieces : Option (List Statement) → List Piece
  | none => [sign .semicolon]
  | some body => sign .leftBrace :: (body.flatMap Statement.pieces ++ [sign .rightBrace])

def pieces (m : Method) : List Piece :=
  modifierList m.modifiers ++ m.result.pieces ++ Piece.space :: ident m.name :: sign .leftParen ::
    (Parameter.listPieces m.parameters ++ sign .rightParen :: bodyPieces m.body)

def render (m : Method) : String := join m.pieces

end Method

namespace ClassDecl

def superclassPieces : Option Name → List Piece
  | none => []
  | some n => [Piece.space, word .«extends», Piece.space, ident n]

def interfacePieces : List Name → List Piece
  | [] => []
  | n :: ns => Piece.space :: word .implements :: Piece.space :: nameList .comma (n :: ns)

/-- Everything up to the opening brace of the body. -/
def headPieces (c : ClassDecl) : List Piece :=
  c.package.toList.flatMap (fun q => q.packagePieces ++ [Piece.newline]) ++
  c.imports.flatMap (fun q => q.importPieces ++ [Piece.newline]) ++
  modifierList c.modifiers ++ [word .«class», Piece.space, ident c.name] ++
  superclassPieces c.superclass ++ interfacePieces c.interfaces ++ [sign .leftBrace]

def pieces (c : ClassDecl) : List Piece :=
  c.headPieces ++ Piece.newline ::
    (c.fields.flatMap (fun f => f.pieces ++ [Piece.newline]) ++
     c.methods.flatMap (fun m => m.pieces ++ [Piece.newline]) ++ [sign .rightBrace])

/-- The canonical text of a class. -/
def render (c : ClassDecl) : String := join c.pieces

end ClassDecl
end ClassText
