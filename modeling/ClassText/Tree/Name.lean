import ClassText.Fault
import ClassText.Text.Blank

/-! Names, which always show something, and dotted names, which always have a segment. -/
namespace ClassText

namespace Role

/-! What a name is for, in the words of messages. -/

def packageName : String := "package name"
def importName : String := "import name"
def className : String := "class name"
def superclassName : String := "superclass name"
def interfaceName : String := "interface name"
def memberName : String := "member name"
def fieldName : String := "field name"
def methodName : String := "method name"
def parameterName : String := "parameter name"
def variableName : String := "variable name"
def typeName : String := "type name"

end Role

/-- A text with at least one character that is not blank. -/
structure Name where
  text : String
  visible : Text.isBlankText text = false
deriving DecidableEq, Repr

namespace Name

/-- The name with this text; a fault in its role if there is nothing to see in it. -/
def check (role : String) (s : String) : Except Fault Name :=
  if h : Text.isBlankText s = false then .ok ⟨s, h⟩ else .error (.blankName role)

@[simp] theorem check_text (role : String) (n : Name) : check role n.text = .ok n := by
  simp [check, n.visible]

end Name

/-- Names joined by dots. -/
structure QualifiedName where
  first : Name
  others : List Name
deriving DecidableEq, Repr

namespace QualifiedName

def segments (q : QualifiedName) : List Name := q.first :: q.others

/-- The dotted name with these segments. That there are any is checked before the segments are. -/
def check (role : String) : List String → Except Fault QualifiedName
  | [] => .error (.noSegments role)
  | s :: ss => return ⟨← Name.check role s, ← ss.mapM (Name.check role)⟩

end QualifiedName
end ClassText
