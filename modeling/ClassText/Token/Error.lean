import ClassText.Token.Basic

/-! The three ways in which a text fails to be a sequence of tokens. -/
namespace ClassText

inductive LexicalError where
  /-- A character that begins no token. -/
  | unknownToken (char : Char) (position : Position) (span : Span)
  /-- A quoted literal without an end; `literal` is its opening quote and all that follows. -/
  | invalidLiteral (literal : String) (position : Position) (span : Span)
  /-- A block comment without an end. -/
  | unterminatedComment (position : Position) (span : Span)
deriving DecidableEq, Repr

namespace LexicalError

def position : LexicalError → Position
  | .unknownToken _ p _ => p
  | .invalidLiteral _ p _ => p
  | .unterminatedComment p _ => p

def span : LexicalError → Span
  | .unknownToken _ _ s => s
  | .invalidLiteral _ _ s => s
  | .unterminatedComment _ s => s

def message : LexicalError → String
  | .unknownToken c p _ => "unknown token '" ++ c.toString ++ "' at " ++ p.text
  | .invalidLiteral literal p _ => "'" ++ literal ++ "' is an invalid literal (at " ++ p.text ++ ")"
  | .unterminatedComment p _ => "unterminated block comment starting at " ++ p.text

/-- What to write at the marked stretch of text. -/
def note : LexicalError → String
  | .unknownToken .. => "this character starts no token"
  | .invalidLiteral .. => "literal is not closed"
  | .unterminatedComment .. => "comment is not closed"

end LexicalError
end ClassText
