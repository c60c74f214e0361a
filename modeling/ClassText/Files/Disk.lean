import ClassText.Error
import ClassText.Files.Tree

/-! What a run may ask of the files it works on. -/
namespace ClassText

/-- Why the text of a file cannot be had. -/
inductive LoadFault where
  | path (fault : PathFault)
  | directory
  /-- The bytes are not UTF-8. -/
  | notText
  | other (reason : String)
deriving DecidableEq, Repr

def LoadFault.text : LoadFault → String
  | .path fault => fault.text
  | .directory => "Is a directory (os error 21)"
  | .notText => "stream did not contain valid UTF-8"
  | .other reason => reason

/-- The error of a file that cannot be loaded. -/
def LoadFault.toError (path : String) (f : LoadFault) : Error := .io (path ++ ": " ++ f.text)

/-- The text of a file with this content. -/
def textOf (content : ByteArray) : Except LoadFault String :=
  match String.fromUTF8? content with
  | some s => .ok s
  | none => .error .notText

/-- A directory walk from a path, and the text of a file. -/
structure Disk where
  walk : String → Except WalkFault (List Entry)
  load : String → Except LoadFault String

namespace Disk

/-- The paths of the sources below a root, in ascending order. -/
def sources (d : Disk) (root extension : String) : Except WalkFault (List String) :=
  (d.walk root).map fun walk => (sourcePaths extension walk).map Path.text

end Disk

namespace FileTree

def load (t : FileTree) (path : String) : Except LoadFault String :=
  match t.resolve (Path.ofText path) with
  | .ok (_, .file content) => textOf content
  | .ok _ => .error .directory
  | .error fault => .error (.path fault)

def disk (t : FileTree) : Disk := ⟨fun root => t.walk (Path.ofText root), t.load⟩

end FileTree
end ClassText
