import ClassText.Canonical.Tree
import ClassText.Parse
import ClassText.Text.Quoted

/-! The records that reading a source leaves behind. -/
namespace ClassText.Journal

inductive Level where
  | debug | trace
deriving DecidableEq, Repr

def Level.label : Level → String
  | .debug => "DEBUG"
  | .trace => "TRACE"

structure Record where
  level : Level
  target : String
  message : String
deriving DecidableEq, Repr

/-- A token as records show it: its kind, and what tells it from others of that kind. -/
def shown : Token → String
  | .keyword k => "Keyword(" ++ k.label ++ ")"
  | .symbol s => "Symbol(" ++ s.label ++ ")"
  | .identifier name => "Identifier(" ++ Text.quoted name ++ ")"
  | .integer value isLong =>
    "IntegerLiteral \x7b value: " ++ toString value ++ ", is_long: " ++
      (if isLong then "true" else "false") ++ " \x7d"
  | .character raw => "CharLiteral(" ++ Text.quoted raw ++ ")"
  | .string raw => "StringLiteral(" ++ Text.quoted raw ++ ")"

def ofToken (l : Located) : Record :=
  ⟨.trace, "jformat::lexer", l.position.text ++ " " ++ shown l.token⟩

def ofMilestone : Milestone → Record
  | .statement s => ⟨.debug, "jformat::parser::stmt_parser", "statement: " ++ s.render⟩
  | .field name => ⟨.debug, "jformat::parser::decl_parser", "field: " ++ name.text⟩
  | .method name => ⟨.debug, "jformat::parser::decl_parser", "method: " ++ name.text⟩
  | .declaration name fields methods =>
    ⟨.debug, "jformat::parser::parser_impl",
      "parsed class '" ++ name.text ++ "' (" ++ toString fields ++ " fields, " ++
        toString methods ++ " methods)"⟩

/-- The result of parsing a source, and its records: one for every token, then one for everything that
was read to its end. All tokens are read first. -/
def ofSource (source : String) : Except Error ClassDecl × List Record :=
  let found := Lexeme.scan source
  let records := found.tokens.map ofToken
  match found.error with
  | some e => (.error (.lexical e), records)
  | none =>
    let (answer, reading) := parseTokens source found.tokens
    (answer, records ++ reading.milestones.reverse.map ofMilestone)

end ClassText.Journal
