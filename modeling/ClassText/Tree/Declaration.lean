import ClassText.Tree.Statement

/-! Fields, methods and classes. -/
namespace ClassText

structure Field where
  modifiers : List Modifier
  type : TypeExpr
  name : Name
  initializer : Option Expr
deriving DecidableEq, Repr

structure Parameter where
  isFinal : Bool
  type : TypeExpr
  name : Name
deriving DecidableEq, Repr

/-- A method without a body is only declared. -/
structure Method where
  modifiers : List Modifier
  result : TypeExpr
  name : Name
  parameters : List Parameter
  body : Option (List Statement)
deriving DecidableEq, Repr

/-- A top-level class. Without a package it belongs to the default package. -/
structure ClassDecl where
  package : Option QualifiedName
  imports : List QualifiedName
  modifiers : List Modifier
  name : Name
  superclass : Option Name
  interfaces : List Name
  fields : List Field
  methods : List Method
deriving DecidableEq, Repr

/-- A field or a method, as they stand mixed in the body of a class. -/
inductive Member where
  | field (declaration : Field)
  | method (declaration : Method)
deriving DecidableEq, Repr

namespace Member

def field? : Member → Option Field
  | .field f => some f
  | .method _ => none

def method? : Member → Option Method
  | .field _ => none
  | .method m => some m

end Member
end ClassText
