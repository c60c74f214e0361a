/-! Paths: names with slashes between them, ordered name by name. -/
namespace ClassText

/-- Why a path leads to nothing. -/
inductive PathFault where
  | notFound
  | notDirectory
  /-- More links on the way than are followed. -/
  | tooManyLinks
  | tooLong
  /-- A NUL ends every path, so no name has one in it. -/
  | nul
deriving DecidableEq, Repr

def PathFault.text : PathFault → String
  | .notFound => "No such file or directory (os error 2)"
  | .notDirectory => "Not a directory (os error 20)"
  | .tooManyLinks => "Too many levels of symbolic links (os error 40)"
  | .tooLong => "File name too long (os error 36)"
  | .nul => "file name contained an unexpected NUL byte"

/-- The names along a path. The path of an absolute file begins with the empty name. -/
abbrev Path := List String

namespace Path

def ofText (s : String) : Path := s.splitOn "/"

def text (p : Path) : String := "/".intercalate p

/-- The most bytes that one name may have. -/
def maxName : Nat := 255

/-- The most bytes that a whole path may have. -/
def maxText : Nat := 4095

/-- What is wrong with a path by its looks alone. -/
def fault? (p : Path) : Option PathFault :=
  let s := p.text
  if s = "" then some .notFound
  else if s.toList.contains '\x00' then some .nul
  else if maxText < s.utf8ByteSize then some .tooLong
  else none

/-- Name by name, and a directory before what it contains. -/
def precedes : Path → Path → Bool
  | _, [] => false
  | [], _ :: _ => true
  | a :: as, b :: bs => decide (a < b) || (a == b && precedes as bs)

/-- What a file name has behind its last dot. A dot at the very front does not count. -/
def extension? (name : String) : Option String :=
  let cs := name.toList.reverse
  let after := cs.takeWhile (· != '.')
  match cs.dropWhile (· != '.') with
  | _ :: _ :: _ => if name = ".." then none else some (String.ofList after.reverse)
  | _ => none

/-- The last name of a path, slashes at its end aside. -/
def fileName (p : Path) : String := (p.filter (· ≠ "")).getLast?.getD ""

end Path
end ClassText
