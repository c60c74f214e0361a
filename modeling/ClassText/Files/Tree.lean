import ClassText.Files.Discovery

/-! A tree of directories, files and links in memory. -/
namespace ClassText

inductive Node where
  | file (content : ByteArray)
  /-- A link to the path with this text. -/
  | link (target : String)
  | directory (entries : List (String × Node))

namespace Node

def emptyDirectory : Node := .directory []

def isLink : Node → Bool
  | .link _ => true
  | _ => false

/-- What a directory contains; nothing if the node is no directory. -/
def entries : Node → List (String × Node)
  | .directory entries => entries
  | _ => []

/-- The entry of a directory. -/
def entry? (n : Node) (name : String) : Option Node := n.entries.lookup name

/-- What stands at a path of names, no link followed. -/
def lookup? : Node → Path → Option Node
  | n, [] => some n
  | n, name :: rest => (n.entry? name).bind (lookup? · rest)

/-- Replace or add an entry of a directory. -/
def withEntry (n : Node) (name : String) (child : Node) : Node :=
  if (n.entry? name).isSome then
    .directory (n.entries.map fun e => if e.1 = name then (name, child) else e)
  else .directory (n.entries ++ [(name, child)])

/-- Put a node at a path, with directories made on the way to it. -/
def put (child : Node) : Path → Node → Node
  | [], _ => child
  | name :: rest, n => n.withEntry name (put child rest ((n.entry? name).getD emptyDirectory))

mutual

/-- How many directories there are in a tree. -/
def directories : Node → Nat
  | .directory entries => entryDirectories entries + 1
  | _ => 0

def entryDirectories : List (String × Node) → Nat
  | [] => 0
  | (_, n) :: rest => directories n + entryDirectories rest

end

end Node

/-- Everything that exists: a top directory, and in it, at the path `base`, the directory that is filled.
Paths of other files start from the top. -/
structure FileTree where
  base : Path
  top : Node

namespace FileTree

/-- An empty directory at a path. -/
def empty (base : Path) : FileTree := ⟨base, Node.put .emptyDirectory base .emptyDirectory⟩

/-- Where the path of a link starts: from the top, or from the directory that the link is in. -/
def start (t : FileTree) (place p : Path) : Path :=
  if t.base.isPrefixOf p || p.head? == some "" then [] else place

/-- Follow names from the directory at `place`, with at most `links` links on the way. The answer has
neither links nor steps up in it. -/
def follow (t : FileTree) (links : Nat) (place : Path) (names : Path) :
    Except PathFault (Path × Node) :=
  match names with
  | [] =>
    match t.top.lookup? place with
    | some n => .ok (place, n)
    | none => .error .notFound
  | name :: rest =>
    if name = "" ∨ name = "." then follow t links place rest
    else if name = ".." then follow t links place.dropLast rest
    else if Path.maxName < name.utf8ByteSize then .error .tooLong
    else
      match t.top.lookup? (place ++ [name]) with
      | none => .error .notFound
      | some (.file content) =>
        if rest = [] then .ok (place ++ [name], .file content) else .error .notDirectory
      | some (.directory _) => follow t links (place ++ [name]) rest
      | some (.link target) =>
        match links with
        | 0 => .error .tooManyLinks
        | links + 1 =>
          let p := Path.ofText target
          follow t links (t.start place p) (p ++ rest)
termination_by (links, names.length)

/-- The most links that may be followed on the way to one file. -/
def maxLinks : Nat := 40

/-- What a path leads to, as a place below the top. -/
def resolve (t : FileTree) (p : Path) : Except PathFault (Path × Node) :=
  match p.fault? with
  | some fault => .error fault
  | none => t.follow maxLinks [] p

/-- What a path on a walk leads to. -/
def reach (t : FileTree) (p : Path) : Except WalkFault (Path × Node) :=
  (t.resolve p).mapError .path

/-- Put a node at a place. -/
def put (t : FileTree) (place : Path) (child : Node) : FileTree :=
  { t with top := Node.put child place t.top }

/-- The directory that a name leads to from a place. It is made if there is none. -/
def enter (t : FileTree) (place : Path) (name : String) : FileTree × Path :=
  match t.follow maxLinks place [name] with
  | .ok (inside, _) => (t, inside)
  | .error _ => (t.put (place ++ [name]) .emptyDirectory, place ++ [name])

/-- The directory that a path leads to from the base. What is missing on the way is made. -/
def enterAll (t : FileTree) (p : Path) : FileTree × Path :=
  p.foldl (fun (t, place) name => t.enter place name) (t, t.base)

def addDirectory (t : FileTree) (p : Path) : FileTree := (t.enterAll p).1

/-- Put a node into the directory of a path, under the last name of the path. -/
def add (t : FileTree) (p : Path) (child : Node) : FileTree :=
  let (t, place) := t.enterAll p.dropLast
  t.put (place ++ p.getLast?.toList) child

def addFile (t : FileTree) (p : Path) (content : ByteArray) : FileTree := t.add p (.file content)

def addLink (t : FileTree) (p : Path) (target : String) : FileTree := t.add p (.link target)

/-- Everything below the directory at `place`, which is visited by the path `visited`. `above` are the
places of the directories that are being walked, this one included. A directory and a link are reached by
the whole path that visits them, so the links on it count together. -/
def walkBelow (t : FileTree) :
    Nat → List Path → Path → Path → List (String × Node) → Except WalkFault (List Entry)
  | 0, _, _, _, _ => .error .loop
  | depth + 1, above, visited, place, entries => do
    let found ← entries.mapM fun (name, node) => do
      let here := visited ++ [name]
      if let .file _ := node then return [⟨here, true, place ++ [name]⟩]
      match ← t.reach here with
      | (target, .directory inner) =>
        if node.isLink && above.contains target then throw .loop
        return ⟨here, false, target⟩ ::
          (← walkBelow t depth (target :: above) here target inner)
      | (target, _) => return [⟨here, true, target⟩]
    return found.flatten

/-- Everything at and below a path, links followed. -/
def walk (t : FileTree) (p : Path) : Except WalkFault (List Entry) := do
  match ← t.reach p with
  | (place, .directory entries) =>
    return ⟨p, false, place⟩ ::
      (← t.walkBelow (2 * t.top.directories + 2) [place] p place entries)
  | (place, _) => return [⟨p, true, place⟩]

end FileTree
end ClassText
