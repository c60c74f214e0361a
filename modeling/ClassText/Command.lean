import ClassText.Batch

/-! The command line: what its arguments ask for, and how that is answered. -/
namespace ClassText

/-- What a command line asks for. -/
inductive Request where
  | parse (root extension : String) (options : BatchOptions)
  | check (root extension : String)
  | tokens (file : String)
  | version
  | help
deriving DecidableEq, Repr

namespace Request

def defaultExtension : String := "java"

def versionText : String := "jformat 0.1.0\n"

def helpText : String :=
  "Usage: jformat [-v] parse ROOT [--extension EXT] [--dump-ast] [--dump-tokens] [--keep-going]\n" ++
  "       jformat [-v] check ROOT [--extension EXT]\n" ++
  "       jformat [-v] tokens FILE\n"

/-- The kinds of request that take arguments of their own. -/
inductive Mode where
  | parse | check | tokens
deriving DecidableEq, Repr

def Mode.ofWord? : String → Option Mode
  | "parse" => some .parse
  | "check" => some .check
  | "tokens" => some .tokens
  | _ => none

/-- The options that stand for yes or no. -/
inductive Switch where
  | verbose | dumpAst | dumpTokens | keepGoing
deriving DecidableEq, Repr

/-- The switch of a long option, where the mode has it. -/
def Mode.switch? (m : Mode) (option : String) : Option Switch :=
  match m, option with
  | _, "--verbose" => some .verbose
  | .parse, "--dump-ast" => some .dumpAst
  | .parse, "--dump-tokens" => some .dumpTokens
  | .parse, "--keep-going" => some .keepGoing
  | _, _ => none

def Mode.hasExtension (m : Mode) : Bool := m ≠ .tokens

/-- What the arguments of a mode have given so far. -/
structure Given where
  operand : Option String
  extension : Option String
  switches : List Switch
deriving DecidableEq, Repr

namespace Given

def nothing : Given := ⟨none, none, []⟩

/-- An operand that is not an option. There is only one, and it is not empty. -/
def withOperand (g : Given) (s : String) : Option Given :=
  if g.operand.isSome ∨ s = "" then none else some { g with operand := some s }

/-- No option may be given twice. -/
def withExtension (g : Given) (s : String) : Option Given :=
  if g.extension.isSome then none else some { g with extension := some s }

def withSwitch (g : Given) (s : Switch) : Option Given :=
  if s ∈ g.switches then none else some { g with switches := s :: g.switches }

/-- The request of a mode, which must have its operand. -/
def toRequest (g : Given) (m : Mode) : Option Request :=
  match g.operand with
  | none => none
  | some operand =>
    let extension := g.extension.getD defaultExtension
    match m with
    | .parse => some (.parse operand extension
        ⟨decide (.dumpAst ∈ g.switches), decide (.dumpTokens ∈ g.switches),
          decide (.keepGoing ∈ g.switches)⟩)
    | .check => some (.check operand extension)
    | .tokens => some (.tokens operand)

end Given

/-- Whether an argument is an option by its looks. A lone dash is not. -/
def looksLikeOption (s : String) : Bool := s.startsWith "-" && s ≠ "-"

/-- The letters of a bundle of short options, up to one that asks for help. Nothing but `v` and `h` is
known to a mode. -/
def bundle (g : Given) : List Char → Option (Given × Bool)
  | [] => some (g, false)
  | 'v' :: cs => do bundle (← g.withSwitch .verbose) cs
  | 'h' :: _ => some (g, true)
  | _ => none

/-- The value in an option of the form `--extension=value`. -/
def attachedExtension? (s : String) : Option String :=
  let name := "--extension=".toList
  if name.isPrefixOf s.toList then some (String.ofList (s.toList.drop name.length)) else none

/-- Operands behind a double dash, whatever they look like. -/
def operandsOnly (g : Given) : List String → Option Given
  | [] => some g
  | a :: rest => do operandsOnly (← g.withOperand a) rest

/-- The arguments behind a mode, from left to right. -/
def ofModeArguments (m : Mode) (g : Given) : List String → Option Request
  | [] => g.toRequest m
  | "--" :: rest => do (← operandsOnly g rest).toRequest m
  | "--help" :: _ => some .help
  | "--extension" :: value :: rest => do
    if !m.hasExtension || looksLikeOption value then none
    ofModeArguments m (← g.withExtension value) rest
  | a :: rest => do
    if let some s := m.switch? a then ofModeArguments m (← g.withSwitch s) rest
    else if let some value := attachedExtension? a then
      if !m.hasExtension then none
      ofModeArguments m (← g.withExtension value) rest
    else if !looksLikeOption a then ofModeArguments m (← g.withOperand a) rest
    else if a.startsWith "--" then none
    else
      match ← bundle g (a.toList.drop 1) with
      | (_, true) => return .help
      | (g, false) => ofModeArguments m g rest

/-- What a bundle of short options before the mode asks for. -/
def leadingBundle (verbose : Bool) : List Char → Option (Bool ⊕ Request)
  | [] => some (.inl verbose)
  | 'v' :: cs => if verbose then none else leadingBundle true cs
  | 'V' :: _ => some (.inr .version)
  | 'h' :: _ => some (.inr .help)
  | _ => none

/-- Arguments before the mode, from left to right. -/
def ofLeadingArguments (verbose : Bool) : List String → Option Request
  | [] => none
  | a :: rest => do
    if let some m := Mode.ofWord? a then ofModeArguments m .nothing rest
    else if a = "help" ∨ a = "--help" then return .help
    else if a = "--version" then return .version
    else if a = "--verbose" then
      if verbose then none else ofLeadingArguments true rest
    else if !looksLikeOption a ∨ a.startsWith "--" then none
    else
      match ← leadingBundle verbose (a.toList.drop 1) with
      | .inr request => return request
      | .inl verbose => ofLeadingArguments verbose rest

/-- The request of a command line; nothing if the arguments do not make one. -/
def ofArguments (arguments : List String) : Option Request :=
  ofLeadingArguments false arguments

/-- The sources below a root with their texts, or the end of a run that cannot list them. -/
def sourceTexts (d : Disk) (root extension : String) :
    Except Outcome (List (String × Except LoadFault String)) :=
  match d.sources root extension with
  | .ok paths => .ok (paths.map fun p => (p, d.load p))
  | .error _ =>
    .error ((Batch.start .plain).abort ["Failed to enumerate sources under " ++ Text.quoted root])

/-- The answer to a request. -/
def answer (d : Disk) : Request → Outcome
  | .parse root extension options =>
    match sourceTexts d root extension with
    | .ok files => Batch.parseAll .plain options files
    | .error o => o
  | .check root extension =>
    match sourceTexts d root extension with
    | .ok files => Batch.checkAll .plain files
    | .error o => o
  | .tokens file => Batch.tokens .plain file (d.load file)
  | .version => ⟨0, versionText, []⟩
  | .help => ⟨0, helpText, []⟩

end Request
end ClassText
