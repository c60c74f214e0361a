import ClassText.Command

/-! The program. It reads the files that a request names and leaves the rest to `Request.answer`. What
lies below a directory is listed on standard input, one path a line, as a directory walk prints it. -/
namespace ClassText.Main

/-- The number by which the system names an error, which some calls report below zero. -/
def numberOf (code : UInt32) : UInt32 := if code ≤ 0x7FFFFFFF then code else 0 - code

def codeOf? : IO.Error → Option UInt32
  | .noFileOrDirectory _ code _ | .inappropriateType _ code _ | .invalidArgument _ code _ => some code
  | .unsupportedOperation code _ | .illegalOperation code _ | .otherError code _ => some code
  | _ => none

def loadFaultOf (e : IO.Error) : LoadFault :=
  match (codeOf? e).map numberOf with
  | some 2 => .path .notFound
  | some 20 => .path .notDirectory
  | some 21 => .directory
  | some 36 => .path .tooLong
  | some 40 => .path .tooManyLinks
  | _ => .other (toString e)

def loadFile (path : String) : IO (Except LoadFault String) := do
  try return textOf (← IO.FS.readBinFile path)
  catch e => return .error (loadFaultOf e)

/-- The lines of standard input. -/
def listing : IO (List String) := do
  let all ← (← IO.getStdin).readToEnd
  return (all.splitOn "\n").filter (· ≠ "")

/-- A disk that holds the given files. -/
def diskOf (files : List (String × Except LoadFault String)) : Disk where
  walk root :=
    match files.lookup root with
    | some (.error (.path fault)) => .error (.path fault)
    | _ => .ok (files.map fun (path, text) =>
        let isFile := match text with
          | .error .directory => false
          | _ => true
        ⟨Path.ofText path, isFile, Path.ofText path⟩)
  load path := (files.lookup path).getD (.error (.path .notFound))

/-- The disk that a request is about. -/
def diskFor : Request → IO Disk
  | .parse root _ _ | .check root _ => do
    match ← loadFile root with
    | .error .directory =>
      let paths ← listing
      return diskOf (← paths.mapM fun path => return (path, ← loadFile path))
    | text => return diskOf [(root, text)]
  | .tokens file => return diskOf [(file, ← loadFile file)]
  | .version | .help => return diskOf []

def run (arguments : List String) : IO UInt32 := do
  match Request.ofArguments arguments with
  | none =>
    IO.eprint Request.helpText
    return 2
  | some request =>
    let outcome := request.answer (← diskFor request)
    IO.print outcome.output
    for message in outcome.messages do IO.eprintln ("error: " ++ message)
    return outcome.exit.toUInt32

end ClassText.Main

def main (arguments : List String) : IO UInt32 := ClassText.Main.run arguments
