import ClassText.Token.Modifier
import ClassText.Tree.Name

/-! Types as they are written. -/
namespace ClassText

/-- A generic type always has a first argument. -/
inductive TypeExpr where
  | primitive (kind : Primitive)
  | reference (name : Name)
  | generic (name : Name) (first : TypeExpr) (others : List TypeExpr)
  | array (element : TypeExpr)
deriving Repr

namespace TypeExpr

mutual

/-- Whether two types are the same. -/
def same : TypeExpr → TypeExpr → Bool
  | .primitive p, .primitive q => p = q
  | .reference m, .reference n => m = n
  | .generic m a as, .generic n b bs => m = n && same a b && sameList as bs
  | .array a, .array b => same a b
  | _, _ => false

def sameList : List TypeExpr → List TypeExpr → Bool
  | [], [] => true
  | a :: as, b :: bs => same a b && sameList as bs
  | _, _ => false

end

mutual

theorem same_iff : (a b : TypeExpr) → (same a b = true ↔ a = b)
  | .primitive p, b => by cases b <;> simp [same]
  | .reference m, b => by cases b <;> simp [same]
  | .generic m a as, b => by
    cases b <;> simp [same, and_assoc, same_iff a, sameList_iff as]
  | .array a, b => by cases b <;> simp [same, same_iff a]

theorem sameList_iff : (as bs : List TypeExpr) → (sameList as bs = true ↔ as = bs)
  | [], bs => by cases bs <;> simp [sameList]
  | a :: as, bs => by cases bs <;> simp [sameList, same_iff a, sameList_iff as]

end

instance : DecidableEq TypeExpr := fun a b => decidable_of_iff _ (same_iff a b)

/-- The reference to a type by name. -/
def checkReference (name : String) : Except Fault TypeExpr :=
  return .reference (← Name.check Role.typeName name)

/-- The generic type with this name and these arguments. The name is checked first. -/
def checkGeneric (name : String) (arguments : List TypeExpr) : Except Fault TypeExpr := do
  let n ← Name.check Role.typeName name
  match arguments with
  | [] => .error (.noArguments name)
  | a :: as => return .generic n a as

end TypeExpr
end ClassText
