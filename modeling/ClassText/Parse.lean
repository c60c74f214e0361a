import ClassText.Error
import ClassText.Lexeme.Stream
import ClassText.Reader.Session

/-! From source text to the tree of its first declaration. -/
namespace ClassText

namespace Stop

def toError : Stop → Error
  | .rejected e => .grammatical e
  | .broken f => .broken f

end Stop

/-- The error of a text without any token. -/
def emptySource (source : String) : SyntaxError :=
  .tooFewTokens
    (.expected [.token (.keyword .package), .token (.keyword .«import»), .token (.keyword .«class»)])
    ⟨source.utf8ByteSize, source.utf8ByteSize⟩

/-- The first declaration among the tokens of a source, and the state in which reading it ends. -/
def parseTokens (source : String) (tokens : List Located) : Except Error ClassDecl × Reading :=
  match Reader.nextDeclaration.run (.ofTokens tokens) with
  | .ok (some c) r => (.ok c, r)
  | .ok none r => (.error (.grammatical (emptySource source)), r)
  | .error e r => (.error e.toError, r)

/-- The first declaration of a source. -/
def parse (source : String) : Except Error ClassDecl :=
  match Lexeme.tokenize source with
  | .error e => .error (.lexical e)
  | .ok tokens => (parseTokens source tokens).1

/-- How a tree compares with what its canonical text reads as. -/
inductive RoundTrip where
  | equal
  | different
  | failed (error : Error)
deriving DecidableEq

def ClassDecl.roundTrip (c : ClassDecl) : RoundTrip :=
  match parse c.render with
  | .ok d => if d = c then .equal else .different
  | .error e => .failed e

end ClassText
