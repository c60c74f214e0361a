import ClassText.Fault
import ClassText.Reader.Error
import ClassText.Token.Error

/-! Everything that can go wrong between a file and its tree. -/
namespace ClassText

inductive Error where
  | lexical (error : LexicalError)
  | grammatical (error : SyntaxError)
  /-- A file that cannot be read, with the reason. -/
  | io (reason : String)
  /-- A node that cannot be built. -/
  | broken (fault : Fault)
deriving DecidableEq, Repr

namespace Error

/-- The message, with the kind of error before it. -/
def message : Error → String
  | .lexical e => "lexical error: " ++ e.message
  | .grammatical e => "syntax error: " ++ e.message
  | .io reason => "I/O error: " ++ reason
  | .broken f => f.message

end Error
end ClassText
