/-! The reserved words. -/
namespace ClassText

inductive Keyword where
  | «public» | «private» | «protected» | static | final | volatile | synchronized | strictfp
  | transient | «abstract» | native | sealed
  | «class» | enum | interface | record | permits | «extends» | implements | package | «import»
  | throws
  | boolean | byte | char | short | int | float | long | double | void | null | true | false
  | «if» | «else» | «do» | «while» | «for» | «try» | «catch» | «finally» | «throw» | goto | «return»
  | switch | case | «break» | default | «continue» | assert | new | instanceof | this | super | const
deriving DecidableEq, Repr

namespace Keyword

/-- Every reserved word, modifiers first, then declarations, types and constants, and control. -/
def all : List Keyword := [
  .«public», .«private», .«protected», .static, .final, .volatile, .synchronized, .strictfp,
  .transient, .«abstract», .native, .sealed,
  .«class», .enum, .interface, .record, .permits, .«extends», .implements, .package, .«import»,
  .throws,
  .boolean, .byte, .char, .short, .int, .float, .long, .double, .void, .null, .true, .false,
  .«if», .«else», .«do», .«while», .«for», .«try», .«catch», .«finally», .«throw», .goto, .«return»,
  .switch, .case, .«break», .default, .«continue», .assert, .new, .instanceof, .this, .super, .const]

def spelling : Keyword → String
  | .«public» => "public" | .«private» => "private" | .«protected» => "protected"
  | .static => "static" | .final => "final" | .volatile => "volatile"
  | .synchronized => "synchronized" | .strictfp => "strictfp" | .transient => "transient"
  | .«abstract» => "abstract" | .native => "native" | .sealed => "sealed"
  | .«class» => "class" | .enum => "enum" | .interface => "interface" | .record => "record"
  | .permits => "permits" | .«extends» => "extends" | .implements => "implements"
  | .package => "package" | .«import» => "import" | .throws => "throws"
  | .boolean => "boolean" | .byte => "byte" | .char => "char" | .short => "short" | .int => "int"
  | .float => "float" | .long => "long" | .double => "double" | .void => "void" | .null => "null"
  | .true => "true" | .false => "false"
  | .«if» => "if" | .«else» => "else" | .«do» => "do" | .«while» => "while" | .«for» => "for"
  | .«try» => "try" | .«catch» => "catch" | .«finally» => "finally" | .«throw» => "throw"
  | .goto => "goto" | .«return» => "return" | .switch => "switch" | .case => "case"
  | .«break» => "break" | .default => "default" | .«continue» => "continue" | .assert => "assert"
  | .new => "new" | .instanceof => "instanceof" | .this => "this" | .super => "super"
  | .const => "const"

/-- The name by which logs and trees refer to the word: its spelling with a capital. -/
def label (k : Keyword) : String := k.spelling.capitalize

/-- The reserved word that is spelled exactly so. -/
def ofSpelling? (s : String) : Option Keyword := all.find? (·.spelling == s)

theorem mem_all (k : Keyword) : k ∈ all := by cases k <;> decide

@[simp] theorem ofSpelling?_spelling (k : Keyword) : ofSpelling? k.spelling = some k := by
  have h : ∀ k ∈ all, ofSpelling? k.spelling = some k := by decide +kernel
  exact h k k.mem_all

theorem spelling_of_ofSpelling? {w : String} {k : Keyword} (h : ofSpelling? w = some k) :
    k.spelling = w := by simpa using List.find?_some h

end Keyword
end ClassText
