import ClassText.Position
import ClassText.Token.Keyword
import ClassText.Token.Symbol

/-! The units of source text, and the places where they stand. -/
namespace ClassText

/-- A unit of source text. Quoted literals keep what stands between the quotes as it is written. -/
inductive Token where
  | keyword (word : Keyword)
  | symbol (sign : Symbol)
  | identifier (name : String)
  | integer (value : Nat) (isLong : Bool)
  | character (raw : String)
  | string (raw : String)
deriving DecidableEq, Repr

/-- The canonical text of an integer: its decimal digits, and `L` if it is long. -/
def integerText (value : Nat) (isLong : Bool) : String :=
  toString value ++ if isLong then "L" else ""

namespace Token

/-- The canonical text of a token. -/
def text : Token → String
  | .keyword word => word.spelling
  | .symbol sign => sign.spelling
  | .identifier name => name
  | .integer value isLong => integerText value isLong
  | .character raw => "'" ++ raw ++ "'"
  | .string raw => "\"" ++ raw ++ "\""

/-- A token, or the parts of a compound symbol. -/
def parts : Token → List Token
  | .symbol sign => sign.parts.map .symbol
  | t => [t]

/-- Tokens with all compound symbols taken apart. -/
def expand (ts : List Token) : List Token := ts.flatMap parts

@[simp] theorem expand_nil : expand [] = [] := rfl

@[simp] theorem expand_cons (t : Token) (ts : List Token) :
    expand (t :: ts) = t.parts ++ expand ts := rfl

@[simp] theorem expand_append (ts us : List Token) :
    expand (ts ++ us) = expand ts ++ expand us := List.flatMap_append

end Token

/-- A token with the place of its first character and the stretch of bytes that spells it. -/
structure Located where
  token : Token
  position : Position
  span : Span
deriving DecidableEq, Repr

namespace Located

/-- A compound token of which the first character has been used up: `rest` stands one further on. -/
def splitTo (l : Located) (rest : Token) : Located where
  token := rest
  position := ⟨l.position.line, l.position.column + 1, l.position.offset + 1⟩
  span := ⟨l.span.start + 1, l.span.stop⟩

@[simp] theorem token_splitTo (l : Located) (rest : Token) : (l.splitTo rest).token = rest := rfl

end Located
end ClassText
