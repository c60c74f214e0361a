import ClassText.Tree.Expr
import ClassText.Tree.TypeExpr

/-! Statements. -/
namespace ClassText

inductive Statement where
  | declareLocal (isFinal : Bool) (type : TypeExpr) (name : Name) (initializer : Option Expr)
  | returnValue (value : Expr)
  | empty
  /-- A value for the field `name` of `base`. -/
  | assignField (base : Expr) (name : Name) (value : Expr)
  /-- A call of the method `name` of `base`, for its effect. -/
  | callMethod (base : Expr) (name : Name) (arguments : List Expr)
deriving DecidableEq, Repr

end ClassText
