import ClassText.Canonical.Tree
import ClassText.Json.Tree
import Mathlib.Data.Nat.Digits.Defs

/-! Trees from their JSON values. For each kind of tree a decoder reads back what has been written, so
different trees have different values. -/
namespace ClassText

namespace Json

/-- What is decoded from the value of anything is the thing itself. -/
def Recovers (decode : Json → Option α) (encode : α → Json) : Prop := ∀ a, decode (encode a) = some a

theorem Recovers.injective {decode : Json → Option α} {encode : α → Json} (h : Recovers decode encode) :
    Function.Injective encode := by
  intro a b hab
  have ha := h a
  rw [hab, h b] at ha
  exact (Option.some.inj ha).symm

/-- A text to which something is assigned. -/
def string? (make : String → Option α) : Json → Option α
  | .string s => make s
  | _ => none

def bool? : Json → Option Bool
  | .bool b => some b
  | _ => none

def list? (decode : Json → Option α) : Json → Option (List α)
  | .array items => items.mapM decode
  | _ => none

/-- Nothing where there is no value. -/
def option? (decode : Json → Option α) : Json → Option (Option α)
  | .null => some none
  | j => (decode j).map some

def number? : Json → Option Nat
  | .number n => some n
  | _ => none

/-- The number with these digits in base 2³², least significant first. -/
def nat? (j : Json) : Option Nat := (list? number? j).map (Nat.ofDigits 0x100000000)

def name? : Json → Option Name := string? fun s => (Name.check "" s).toOption

/-- The one of finitely many things that has the label. -/
def labelled? (all : List α) (label : α → String) : Json → Option α :=
  string? fun s => all.find? (label · = s)

def modifiers? : Json → Option (List Modifier) := list? (labelled? Modifier.all Modifier.label)

variable {decode : Json → Option α} {encode : α → Json}

theorem recovers_list (h : Recovers decode encode) : Recovers (list? decode) (list encode) := by
  intro xs
  simp only [list?, list]
  induction xs with
  | nil => rfl
  | cons x xs ih => simp [List.mapM_cons, h x, ih]

/-- An absent value is told from any other, which is not null. -/
theorem recovers_option (h : Recovers decode encode) (hnull : ∀ a, encode a ≠ .null) :
    Recovers (option? decode) (option encode) := by
  intro o
  cases o with
  | none => rfl
  | some a =>
    have hsome : option? decode (encode a) = (decode (encode a)).map some :=
      option?.eq_2 _ _ (hnull a)
    rw [option, hsome, h a]
    rfl

theorem recovers_number : Recovers number? number := fun _ => rfl

theorem limbs_eq_digits (n : Nat) : limbs n = Nat.digits 0x100000000 n := by
  induction n using Nat.strongRecOn with
  | ind n ih =>
    rw [limbs]
    by_cases hn : n = 0
    · simp [hn]
    · rw [if_neg hn, ih _ (Nat.div_lt_self (by omega) (by decide))]
      exact (Nat.digits_def' (by decide) (Nat.pos_of_ne_zero hn)).symm

theorem recovers_nat : Recovers nat? ofNat := by
  intro n
  have hdigits := recovers_list recovers_number (limbs n)
  rw [nat?, ofNat, hdigits, limbs_eq_digits]
  exact congrArg some (Nat.ofDigits_digits _ n)

theorem recovers_name : Recovers name? ofName := by
  intro n
  simp [name?, ofName, string?, Except.toOption]

theorem recovers_modifiers : Recovers modifiers? ofModifiers := by
  refine recovers_list fun m => ?_
  cases m <;> rfl

theorem recovers_operator :
    Recovers (labelled? Operator.all Operator.label) fun op => .string op.label := by
  intro op
  cases op <;> rfl

end Json

/-! Each decoder knows the alternatives by their tags and the parts by their names, in the order in which
they are written. -/

open Json

namespace TypeExpr

mutual

def ofJson? : Json → Option TypeExpr
  | .object [("Primitive", kind)] => (labelled? Primitive.all Primitive.label kind).map .primitive
  | .object [("Reference", .object [("name", n)])] => (name? n).map .reference
  | .object [("GenericReference", .object [("name", n), ("arguments", .array (first :: others))])] =>
    return .generic (← name? n) (← ofJson? first) (← listOfJson? others)
  | .object [("Array", element)] => return .array (← ofJson? element)
  | _ => none

def listOfJson? : List Json → Option (List TypeExpr)
  | [] => some []
  | j :: js => return (← ofJson? j) :: (← listOfJson? js)

end

mutual

theorem ofJson?_toJson : (t : TypeExpr) → ofJson? t.toJson = some t
  | .primitive p => by cases p <;> rfl
  | .reference n => by simp [toJson, tagged, ofJson?, recovers_name n]
  | .generic n first others => by
    simp [toJson, tagged, ofJson?, recovers_name n, ofJson?_toJson first, listOfJson?_listToJson others]
  | .array element => by simp [toJson, tagged, ofJson?, ofJson?_toJson element]

theorem listOfJson?_listToJson : (ts : List TypeExpr) → listOfJson? (listToJson ts) = some ts
  | [] => rfl
  | t :: ts => by simp [listToJson, listOfJson?, ofJson?_toJson t, listOfJson?_listToJson ts]

end

end TypeExpr

namespace Expr

mutual

def ofJson? : Json → Option Expr
  | .object [("Constant", .object [("value", value), ("is_long", isLong)])] =>
    return .constant (← nat? value) (← bool? isLong)
  | .object [("VariableReference", .object [("name", n)])] => return .variable (← name? n)
  | .object [("FieldAccess", .object [("base", base), ("field_name", n)])] =>
    return .field (← ofJson? base) (← name? n)
  | .object [("MethodInvocation", .object [("base", base), ("method_name", n),
      ("arguments", .array arguments)])] =>
    return .call (← ofJson? base) (← name? n) (← listOfJson? arguments)
  | .object [("Bracket", inner)] => return .bracket (← ofJson? inner)
  | .object [(label, .array [left, right])] =>
    return .binary (← labelled? Operator.all Operator.label (.string label)) (← ofJson? left) (← ofJson? right)
  | _ => none

def listOfJson? : List Json → Option (List Expr)
  | [] => some []
  | j :: js => return (← ofJson? j) :: (← listOfJson? js)

end

mutual

theorem ofJson?_toJson : (e : Expr) → ofJson? e.toJson = some e
  | .constant value isLong => by simp [toJson, tagged, ofJson?, recovers_nat value, bool?]
  | .variable n => by simp [toJson, tagged, ofJson?, recovers_name n]
  | .field base n => by simp [toJson, tagged, ofJson?, ofJson?_toJson base, recovers_name n]
  | .call base n arguments => by
    simp [toJson, tagged, ofJson?, ofJson?_toJson base, recovers_name n, listOfJson?_listToJson arguments]
  | .binary op left right => by
    -- The label of an operator is that of no other alternative.
    have hbinary (l r : Json) : ofJson? (.object [(op.label, .array [l, r])]) = (do
        return .binary (← labelled? Operator.all Operator.label (.string op.label)) (← ofJson? l)
          (← ofJson? r)) := by
      cases op <;> simp [Operator.label, ofJson?]
    simp [toJson, tagged, hbinary, recovers_operator op, ofJson?_toJson left, ofJson?_toJson right]
  | .bracket inner => by simp [toJson, tagged, ofJson?, ofJson?_toJson inner]

theorem listOfJson?_listToJson : (es : List Expr) → listOfJson? (listToJson es) = some es
  | [] => rfl
  | e :: es => by simp [listToJson, listOfJson?, ofJson?_toJson e, listOfJson?_listToJson es]

end

end Expr

theorem Json.recovers_type : Recovers TypeExpr.ofJson? TypeExpr.toJson := TypeExpr.ofJson?_toJson

theorem Json.recovers_expr : Recovers Expr.ofJson? Expr.toJson := Expr.ofJson?_toJson

theorem Expr.toJson_ne_null (e : Expr) : e.toJson ≠ .null := by cases e <;> simp [toJson, tagged]

namespace Json

/-- An expression that may be absent. -/
theorem recovers_initializer : Recovers (option? Expr.ofJson?) (option Expr.toJson) :=
  recovers_option recovers_expr Expr.toJson_ne_null

end Json

def Statement.ofJson? : Json → Option Statement
  | .object [("VariableDeclaration", .object [("is_final", isFinal), ("variable_type", type),
      ("name", n), ("initializer", value)])] =>
    return .declareLocal (← bool? isFinal) (← TypeExpr.ofJson? type) (← name? n)
      (← option? Expr.ofJson? value)
  | .object [("Return", value)] => return .returnValue (← Expr.ofJson? value)
  | .string "Empty" => some .empty
  | .object [("FieldAssignment", .object [("target", .object [("base", base), ("field_name", n)]),
      ("value", value)])] =>
    return .assignField (← Expr.ofJson? base) (← name? n) (← Expr.ofJson? value)
  | .object [("MethodInvocation", .object [("base", base), ("method_name", n),
      ("arguments", arguments)])] =>
    return .callMethod (← Expr.ofJson? base) (← name? n) (← list? Expr.ofJson? arguments)
  | _ => none

theorem Json.recovers_statement : Recovers Statement.ofJson? Statement.toJson := by
  intro st
  cases st with
  | declareLocal isFinal type n value =>
    simp [Statement.toJson, tagged, Statement.ofJson?, bool?, recovers_type type, recovers_name n,
      recovers_initializer value]
  | returnValue value => simp [Statement.toJson, tagged, Statement.ofJson?, recovers_expr value]
  | empty => rfl
  | assignField base n value =>
    simp [Statement.toJson, tagged, Statement.ofJson?, recovers_expr base, recovers_name n,
      recovers_expr value]
  | callMethod base n arguments =>
    simp [Statement.toJson, tagged, Statement.ofJson?, recovers_expr base, recovers_name n,
      recovers_list recovers_expr arguments]

def QualifiedName.ofJson? : Json → Option QualifiedName
  | .object [("segments", .array (first :: others))] =>
    return ⟨← name? first, ← others.mapM name?⟩
  | _ => none

def Field.ofJson? : Json → Option Field
  | .object [("modifiers", modifiers), ("field_type", type), ("name", n), ("initializer", value)] =>
    return ⟨← modifiers? modifiers, ← TypeExpr.ofJson? type, ← name? n, ← option? Expr.ofJson? value⟩
  | _ => none

def Parameter.ofJson? : Json → Option Parameter
  | .object [("is_final", isFinal), ("parameter_type", type), ("name", n)] =>
    return ⟨← bool? isFinal, ← TypeExpr.ofJson? type, ← name? n⟩
  | _ => none

def Method.ofJson? : Json → Option Method
  | .object [("modifiers", modifiers), ("return_type", result), ("name", n),
      ("parameters", parameters), ("body", body)] =>
    return ⟨← modifiers? modifiers, ← TypeExpr.ofJson? result, ← name? n,
      ← list? Parameter.ofJson? parameters, ← option? (list? Statement.ofJson?) body⟩
  | _ => none

def ClassDecl.ofJson? : Json → Option ClassDecl
  | .object [("package", package), ("imports", imports), ("modifiers", modifiers), ("name", n),
      ("superclass", superclass), ("interfaces", interfaces), ("fields", fields),
      ("methods", methods)] =>
    return ⟨← option? QualifiedName.ofJson? package, ← list? QualifiedName.ofJson? imports,
      ← modifiers? modifiers, ← name? n, ← option? name? superclass, ← list? name? interfaces,
      ← list? Field.ofJson? fields, ← list? Method.ofJson? methods⟩
  | _ => none

namespace Json

theorem recovers_qualifiedName : Recovers QualifiedName.ofJson? QualifiedName.toJson := by
  intro q
  have hothers : (q.others.map ofName).mapM name? = some q.others := recovers_list recovers_name q.others
  simp [QualifiedName.toJson, QualifiedName.segments, list, QualifiedName.ofJson?, recovers_name q.first,
    hothers]

theorem recovers_field : Recovers Field.ofJson? Field.toJson := by
  intro f
  simp [Field.toJson, Field.ofJson?, recovers_modifiers f.modifiers, recovers_type f.type,
    recovers_name f.name, recovers_initializer f.initializer]

theorem recovers_parameter : Recovers Parameter.ofJson? Parameter.toJson := by
  intro p
  simp [Parameter.toJson, Parameter.ofJson?, bool?, recovers_type p.type, recovers_name p.name]

/-- No body at all is told from a body without statements. -/
theorem recovers_method : Recovers Method.ofJson? Method.toJson := by
  intro m
  have hbody := recovers_option (recovers_list recovers_statement) (fun _ => by simp [list]) m.body
  simp [Method.toJson, Method.ofJson?, recovers_modifiers m.modifiers, recovers_type m.result,
    recovers_name m.name, recovers_list recovers_parameter m.parameters, hbody]

theorem recovers_class : Recovers ClassDecl.ofJson? ClassDecl.toJson := by
  intro c
  have hpackage := recovers_option recovers_qualifiedName (fun _ => by simp [QualifiedName.toJson]) c.package
  have hsuperclass := recovers_option recovers_name (fun _ => by simp [ofName]) c.superclass
  simp [ClassDecl.toJson, ClassDecl.ofJson?, hpackage, recovers_list recovers_qualifiedName c.imports,
    recovers_modifiers c.modifiers, recovers_name c.name, hsuperclass,
    recovers_list recovers_name c.interfaces, recovers_list recovers_field c.fields,
    recovers_list recovers_method c.methods]

/-- No part of a tree is lost in its JSON value: types, expressions, statements and classes are all read
back, so equal values come from equal trees. -/
theorem recovers_trees :
    (Recovers TypeExpr.ofJson? TypeExpr.toJson ∧ Recovers Expr.ofJson? Expr.toJson ∧
      Recovers Statement.ofJson? Statement.toJson ∧ Recovers ClassDecl.ofJson? ClassDecl.toJson) ∧
    Function.Injective TypeExpr.toJson ∧ Function.Injective Expr.toJson ∧
      Function.Injective Statement.toJson ∧ Function.Injective ClassDecl.toJson :=
  ⟨⟨recovers_type, recovers_expr, recovers_statement, recovers_class⟩, recovers_type.injective,
    recovers_expr.injective, recovers_statement.injective, recovers_class.injective⟩

end Json
end ClassText
