import ClassText.Token.Basic

/-! The ways in which tokens fail to be a tree, and what should have stood there. -/
namespace ClassText

/-- What the grammar asks for at some place. -/
inductive Expected where
  | token (token : Token)
  /-- Any identifier, in the given role. -/
  | identifier (role : String)
  | type
  | expression
  | statement
deriving DecidableEq, Repr

def Expected.text : Expected → String
  | .token t => "'" ++ t.text ++ "'"
  | .identifier role => "<" ++ role ++ ">"
  | .type => "a type"
  | .expression => "an expression"
  | .statement => "a statement"

/-- What to tell about an input that ends too early. -/
inductive Shortage where
  /-- What could have come next. -/
  | expected (alternatives : List Expected)
  /-- The tokens that came last. -/
  | consumed (tokens : List Token)
deriving DecidableEq, Repr

def Shortage.text : Shortage → String
  | .expected [one] => "expected token " ++ one.text
  | .expected alternatives =>
    "expected any of " ++ ", ".intercalate (alternatives.map Expected.text)
  | .consumed tokens =>
    "last tokens were " ++ " ".intercalate (tokens.map fun t => "'" ++ t.text ++ "'")

inductive SyntaxError where
  | unexpectedToken (expected : Expected) (found : Token) (position : Position) (span : Span)
  | tooFewTokens (context : Shortage) (span : Span)
  /-- A statement that begins with a lone variable. -/
  | ambiguousStatement (position : Position) (span : Span)
deriving DecidableEq, Repr

namespace SyntaxError

def span : SyntaxError → Span
  | .unexpectedToken _ _ _ s => s
  | .tooFewTokens _ s => s
  | .ambiguousStatement _ s => s

def message : SyntaxError → String
  | .unexpectedToken expected found p _ =>
    "expected " ++ expected.text ++ " but '" ++ found.text ++ "' was found at " ++ p.text
  | .tooFewTokens context _ => "stream of tokens finished too early: " ++ context.text
  | .ambiguousStatement p _ =>
    "statement at " ++ p.text ++ " is neither a field assignment nor a method invocation"

/-- What to write at the marked stretch of text. -/
def note : SyntaxError → String
  | .unexpectedToken expected .. => "expected " ++ expected.text
  | .tooFewTokens .. => "input ends here"
  | .ambiguousStatement .. => ""

end SyntaxError
end ClassText
