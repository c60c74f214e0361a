import ClassText.Tree.Name

/-! Expressions. -/
namespace ClassText

inductive Operator where
  | plus | minus | times | divide
deriving DecidableEq, Repr

/-- Any expression may be the base of a field access or a call. -/
inductive Expr where
  | constant (value : Nat) (isLong : Bool)
  | variable (name : Name)
  | field (base : Expr) (name : Name)
  | call (base : Expr) (name : Name) (arguments : List Expr)
  | binary (op : Operator) (left right : Expr)
  | bracket (inner : Expr)
deriving Repr

namespace Expr

mutual

/-- Whether two expressions are the same. -/
def same : Expr → Expr → Bool
  | .constant v k, .constant w l => v = w && k = l
  | .variable m, .variable n => m = n
  | .field a m, .field b n => same a b && m = n
  | .call a m as, .call b n bs => same a b && m = n && sameList as bs
  | .binary o a b, .binary p c d => o = p && same a c && same b d
  | .bracket a, .bracket b => same a b
  | _, _ => false

def sameList : List Expr → List Expr → Bool
  | [], [] => true
  | a :: as, b :: bs => same a b && sameList as bs
  | _, _ => false

end

mutual

theorem same_iff : (a b : Expr) → (same a b = true ↔ a = b)
  | .constant v k, b => by cases b <;> simp [same]
  | .variable m, b => by cases b <;> simp [same]
  | .field a m, b => by cases b <;> simp [same, same_iff a]
  | .call a m as, b => by cases b <;> simp [same, and_assoc, same_iff a, sameList_iff as]
  | .binary o l r, b => by cases b <;> simp [same, and_assoc, same_iff l, same_iff r]
  | .bracket a, b => by cases b <;> simp [same, same_iff a]

theorem sameList_iff : (as bs : List Expr) → (sameList as bs = true ↔ as = bs)
  | [], bs => by cases bs <;> simp [sameList]
  | a :: as, bs => by cases bs <;> simp [sameList, same_iff a, sameList_iff as]

end

instance : DecidableEq Expr := fun a b => decidable_of_iff _ (same_iff a b)

def checkVariable (name : String) : Except Fault Expr :=
  return .variable (← Name.check Role.variableName name)

def checkField (base : Expr) (name : String) : Except Fault Expr :=
  return .field base (← Name.check Role.fieldName name)

def checkCall (base : Expr) (name : String) (arguments : List Expr) : Except Fault Expr :=
  return .call base (← Name.check Role.methodName name) arguments

/-- An operand and the operators and operands behind it, read as one expression. All operators bind
alike and to the right: `a*b+c` is `a*(b+c)`. -/
def rightNested : Expr → List (Operator × Expr) → Expr
  | e, [] => e
  | e, (op, next) :: more => .binary op e (rightNested next more)

end Expr
end ClassText
