import ClassText.Error

/-! Errors as they are reported: a message, and a mark in the text of a numbered file. -/
namespace ClassText

/-- A marked stretch of a file with a remark. -/
structure Mark where
  file : Nat
  span : Span
  remark : String
deriving DecidableEq, Repr

structure Diagnostic where
  message : String
  mark : Option Mark
deriving DecidableEq, Repr

/-- The report of an error in a file. Errors in the text are marked there, and their messages leave out
the kind of error. -/
def Error.diagnostic (file : Nat) : Error → Diagnostic
  | .lexical e => ⟨e.message, some ⟨file, e.span, e.note⟩⟩
  | .grammatical e => ⟨e.message, some ⟨file, e.span, e.note⟩⟩
  | e => ⟨e.message, none⟩

/-- An error and the number of the file in which it was found. -/
structure FiledError where
  file : Nat
  error : Error
deriving DecidableEq, Repr

def FiledError.diagnostic (e : FiledError) : Diagnostic := e.error.diagnostic e.file

/-- Errors in the order in which they were found. -/
structure ErrorLog where
  errors : List FiledError
deriving DecidableEq, Repr

namespace ErrorLog

def empty : ErrorLog := ⟨[]⟩

def add (log : ErrorLog) (file : Nat) (e : Error) : ErrorLog := ⟨log.errors ++ [⟨file, e⟩]⟩

def count (log : ErrorLog) : Nat := log.errors.length

def hasErrors (log : ErrorLog) : Bool := !log.errors.isEmpty

def diagnostics (log : ErrorLog) : List Diagnostic := log.errors.map FiledError.diagnostic

end ErrorLog
end ClassText
