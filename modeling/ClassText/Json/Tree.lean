import ClassText.Json.Value
import ClassText.Tree.Declaration

/-! Trees as JSON values. A node of a kind with alternatives is an object with one member, named for the
alternative; any other node is an object with its parts in order. -/
namespace ClassText

namespace Json

def tagged (tag : String) (content : Json) : Json := .object [(tag, content)]

def option (f : α → Json) : Option α → Json
  | none => .null
  | some a => f a

def list (f : α → Json) (xs : List α) : Json := .array (xs.map f)

def ofNat (n : Nat) : Json := list .number (limbs n)

def ofName (n : Name) : Json := .string n.text

def ofModifiers (ms : List Modifier) : Json := list (fun m => .string m.label) ms

end Json

namespace TypeExpr

mutual

def toJson : TypeExpr → Json
  | .primitive p => .tagged "Primitive" (.string p.label)
  | .reference n => .tagged "Reference" (.object [("name", .ofName n)])
  | .generic n first others =>
    .tagged "GenericReference"
      (.object [("name", .ofName n), ("arguments", .array (toJson first :: listToJson others))])
  | .array element => .tagged "Array" (toJson element)

def listToJson : List TypeExpr → List Json
  | [] => []
  | t :: ts => toJson t :: listToJson ts

end

end TypeExpr

def Operator.label : Operator → String
  | .plus => "Plus"
  | .minus => "Minus"
  | .times => "Multiply"
  | .divide => "Divide"

namespace Expr

mutual

def toJson : Expr → Json
  | .constant value isLong =>
    .tagged "Constant" (.object [("value", .ofNat value), ("is_long", .bool isLong)])
  | .variable n => .tagged "VariableReference" (.object [("name", .ofName n)])
  | .field base n =>
    .tagged "FieldAccess" (.object [("base", toJson base), ("field_name", .ofName n)])
  | .call base n arguments =>
    .tagged "MethodInvocation" (.object [("base", toJson base), ("method_name", .ofName n),
      ("arguments", .array (listToJson arguments))])
  | .binary op left right => .tagged op.label (.array [toJson left, toJson right])
  | .bracket inner => .tagged "Bracket" (toJson inner)

def listToJson : List Expr → List Json
  | [] => []
  | e :: es => toJson e :: listToJson es

end

end Expr

def Statement.toJson : Statement → Json
  | .declareLocal isFinal type n value =>
    .tagged "VariableDeclaration" (.object [("is_final", .bool isFinal),
      ("variable_type", type.toJson), ("name", .ofName n), ("initializer", .option Expr.toJson value)])
  | .returnValue value => .tagged "Return" value.toJson
  | .empty => .string "Empty"
  | .assignField base n value =>
    .tagged "FieldAssignment" (.object [
      ("target", .object [("base", base.toJson), ("field_name", .ofName n)]),
      ("value", value.toJson)])
  | .callMethod base n arguments =>
    .tagged "MethodInvocation" (.object [("base", base.toJson), ("method_name", .ofName n),
      ("arguments", .list Expr.toJson arguments)])

def QualifiedName.toJson (q : QualifiedName) : Json :=
  .object [("segments", .list .ofName q.segments)]

def Field.toJson (f : Field) : Json :=
  .object [("modifiers", .ofModifiers f.modifiers), ("field_type", f.type.toJson),
    ("name", .ofName f.name), ("initializer", .option Expr.toJson f.initializer)]

def Parameter.toJson (p : Parameter) : Json :=
  .object [("is_final", .bool p.isFinal), ("parameter_type", p.type.toJson),
    ("name", .ofName p.name)]

def Method.toJson (m : Method) : Json :=
  .object [("modifiers", .ofModifiers m.modifiers), ("return_type", m.result.toJson),
    ("name", .ofName m.name), ("parameters", .list Parameter.toJson m.parameters),
    ("body", .option (.list Statement.toJson) m.body)]

def ClassDecl.toJson (c : ClassDecl) : Json :=
  .object [("package", .option QualifiedName.toJson c.package),
    ("imports", .list QualifiedName.toJson c.imports), ("modifiers", .ofModifiers c.modifiers),
    ("name", .ofName c.name), ("superclass", .option .ofName c.superclass),
    ("interfaces", .list .ofName c.interfaces), ("fields", .list Field.toJson c.fields),
    ("methods", .list Method.toJson c.methods)]

end ClassText
