import ClassText.Canonical.Tree
import ClassText.Files.Disk
import ClassText.Json.Tree
import ClassText.Parse
import ClassText.Reporter
import ClassText.Text.Quoted

/-! Many files in one run. -/
namespace ClassText

/-- How a run ends: its exit code, its output, and its messages, each reported as an error. -/
structure Outcome where
  exit : Nat
  output : String
  messages : List String
deriving DecidableEq, Repr

/-- The lines of a text. A carriage return before the end of a line belongs to the end. -/
def linesOf (s : String) : List String :=
  (s.splitOn "\n").map fun line =>
    if line.endsWith "\r" then String.ofList line.toList.dropLast else line

namespace Outcome

/-- The lines that report errors. A message has one, and another for any further line of its own that
looks like one. -/
def errorLines (o : Outcome) : List String :=
  o.messages.flatMap fun m => (linesOf ("error: " ++ m)).filter (·.startsWith "error: ")

end Outcome

/-- A text with spaces before it, `width` characters long if it is not longer by itself. -/
def padLeft (width : Nat) (s : String) : String :=
  String.ofList (List.replicate (width - s.length) ' ') ++ s

/-- A token with its number and place. -/
def tokenLine (number : Nat) (l : Located) : String :=
  padLeft 4 (toString number) ++ ": " ++ padLeft 7 l.position.text ++ " " ++ l.token.text ++ "\n"

/-- The tokens of a text, a line for each, and a line for the error that ends them. -/
def tokenLines (found : Lexeme.Scan) : String :=
  String.join (found.tokens.mapIdx tokenLine) ++
    match found.error with
    | some e => padLeft 4 (toString found.tokens.length) ++ ": " ++ e.message ++ "\n"
    | none => ""

/-- What to print of each file, and whether to go on behind one that fails. -/
structure BatchOptions where
  dumpAst : Bool
  dumpTokens : Bool
  keepGoing : Bool
deriving DecidableEq, Repr

/-- The state of a run: its output so far, the sources kept for reports, the errors put off, and how many
files were loaded. -/
structure Batch (σ : Type) where
  output : String
  kept : σ
  errors : ErrorLog
  processed : Nat
deriving DecidableEq, Repr

namespace Batch

variable {σ : Type} (r : Reporter σ)

def start : Batch σ := ⟨"", r.empty, .empty, 0⟩

def print (b : Batch σ) (s : String) : Batch σ := { b with output := b.output ++ s }

/-- End the run at once, with the last messages. -/
def abort (b : Batch σ) (messages : List String) : Outcome := ⟨1, b.output, messages⟩

/-- End the run with the report of an error and another message. -/
def abortWith (b : Batch σ) (e : FiledError) (message : String) : Outcome :=
  match r.report b.kept e.diagnostic with
  | .ok text => b.abort [text, message]
  | .error reason => b.abort [reason]

/-- The last message of a run in which files failed. -/
def failureText (failed processed : Nat) : String :=
  toString failed ++ " of " ++ toString processed ++ " files failed to parse"

/-- The last line of a run in which no file failed. -/
def successText (processed : Nat) : String :=
  "success: " ++ toString processed ++ " files parsed without errors\n"

/-- End the run behind the last file: report the errors put off and count them, or tell of success. -/
def finish (b : Batch σ) : Outcome :=
  match r.reportAll b.kept b.errors.diagnostics with
  | .error messages => b.abort messages
  | .ok texts =>
    if b.errors.hasErrors then
      b.abort (texts ++ [failureText b.errors.count b.processed])
    else ⟨0, b.output ++ successText b.processed, texts⟩

/-- Load a file. One that cannot be loaded ends the run. -/
def load (b : Batch σ) (path : String) (text : Except LoadFault String) :
    Except Outcome (String × Nat × Batch σ) :=
  match text with
  | .ok s =>
    let (file, kept) := r.add b.kept path s
    .ok (s, file, { b with kept, processed := b.processed + 1 })
  | .error f => .error (b.abort [(f.toError path).message])

/-- What is printed of a file before it is parsed. -/
def heading (options : BatchOptions) (path text : String) : String :=
  "// " ++ path ++ "\n" ++
    if options.dumpTokens then "=== Tokens ===\n" ++ tokenLines (Lexeme.scan text) ++ "\n" else ""

/-- What is printed of a class. -/
def showing (options : BatchOptions) (c : ClassDecl) : String :=
  (if options.dumpAst then c.toJson.pretty else c.render) ++ "\n"

/-- Parse and print a file. Without `keepGoing` the first error ends the run. -/
def parseFile (options : BatchOptions) (b : Batch σ) (path : String)
    (text : Except LoadFault String) : Except Outcome (Batch σ) := do
  let (text, file, b) ← b.load r path text
  let b := b.print (heading options path text)
  match parse text with
  | .ok c => return b.print (showing options c)
  | .error e =>
    if options.keepGoing then return { b with errors := b.errors.add file e }
    else throw (b.abortWith r ⟨file, e⟩ ("Parsing " ++ Text.quoted path ++ " failed"))

/-- Parse a file and print nothing. -/
def checkFile (b : Batch σ) (path : String) (text : Except LoadFault String) :
    Except Outcome (Batch σ) := do
  let (text, file, b) ← b.load r path text
  match parse text with
  | .ok _ => return b
  | .error e => return { b with errors := b.errors.add file e }

/-- Do something with each file in turn, until one ends the run. -/
def inTurn (action : Batch σ → String → Except LoadFault String → Except Outcome (Batch σ))
    (files : List (String × Except LoadFault String)) : Except Outcome (Batch σ) :=
  files.foldlM (fun b file => action b file.1 file.2) (start r)

/-- How a run ends of which this is the state behind the last file, or the end that came before. -/
def conclude : Except Outcome (Batch σ) → Outcome
  | .ok b => b.finish r
  | .error o => o

/-- Parse and print files. -/
def parseAll (options : BatchOptions) (files : List (String × Except LoadFault String)) : Outcome :=
  conclude r (inTurn r (parseFile r options) files)

/-- Report the files that do not parse. -/
def checkAll (files : List (String × Except LoadFault String)) : Outcome :=
  conclude r (inTurn r (checkFile r) files)

/-- Print the tokens of a file. -/
def tokens (path : String) (text : Except LoadFault String) : Outcome :=
  match (start r).load r path text with
  | .error o => o
  | .ok (text, file, b) =>
    let found := Lexeme.scan text
    let b := b.print (tokenLines found)
    match found.error with
    | some e =>
      b.abortWith r ⟨file, .lexical e⟩ ("Lexical analysis of " ++ Text.quoted path ++ " failed")
    | none => ⟨0, b.output, []⟩

end Batch
end ClassText
