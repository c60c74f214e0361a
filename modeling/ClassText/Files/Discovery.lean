import ClassText.Files.Path

/-! Which files of a directory walk are sources. -/
namespace ClassText

/-- One step of a directory walk: the path by which something was visited, whether it is a regular file,
and the path of what it really is once links are followed. -/
structure Entry where
  visited : Path
  isFile : Bool
  resolved : Path
deriving DecidableEq, Repr

/-- Why a walk cannot be completed. -/
inductive WalkFault where
  /-- A path on the walk that leads to nothing. -/
  | path (fault : PathFault)
  /-- A linked directory that contains itself. -/
  | loop
deriving DecidableEq, Repr

namespace Entry

/-- Whether a visited file bears the extension. -/
def bears (extension : String) (e : Entry) : Bool :=
  e.isFile && Path.extension? (Path.fileName e.visited) == some extension

end Entry

/-- The files of a walk that bear the extension: sorted, and of equal ones in a row the first. -/
def sourcePaths (extension : String) (walk : List Entry) : List Path :=
  let found := (walk.filter (Entry.bears extension)).map (·.resolved)
  (found.mergeSort fun p q => !Path.precedes q p).eraseReps

end ClassText
