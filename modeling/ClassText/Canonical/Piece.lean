import ClassText.Token.Basic
import ClassText.Token.Modifier
import ClassText.Tree.Name

/-! Canonical text as a list of pieces: tokens with single spaces and newlines between some of them. -/
namespace ClassText

inductive Piece where
  | lexeme (token : Token)
  | space
  | newline
deriving DecidableEq, Repr

namespace Piece

def text : Piece → String
  | lexeme token => token.text
  | space => " "
  | newline => "\n"

def token? : Piece → Option Token
  | lexeme token => some token
  | _ => none

def word (k : Keyword) : Piece := .lexeme (.keyword k)

def sign (s : Symbol) : Piece := .lexeme (.symbol s)

def ident (n : Name) : Piece := .lexeme (.identifier n.text)

/-- The text of pieces in a row. -/
def join (ps : List Piece) : String := String.join (ps.map text)

/-- The tokens of pieces in a row. -/
def tokens (ps : List Piece) : List Token := ps.filterMap token?

/-- Names with a sign between any two. -/
def nameList (between : Symbol) : List Name → List Piece
  | [] => []
  | n :: ns => ident n :: ns.flatMap fun m => [sign between, ident m]

/-- Modifiers, each with a space behind it. -/
def modifierList (ms : List Modifier) : List Piece := ms.flatMap fun m => [word m.keyword, space]

@[simp] theorem join_nil : join [] = "" := rfl

@[simp] theorem join_append (ps qs : List Piece) : join (ps ++ qs) = join ps ++ join qs := by
  simp [join]

@[simp] theorem tokens_nil : tokens [] = [] := rfl

@[simp] theorem tokens_append (ps qs : List Piece) : tokens (ps ++ qs) = tokens ps ++ tokens qs :=
  List.filterMap_append

@[simp] theorem tokens_lexeme (t : Token) (ps : List Piece) :
    tokens (.lexeme t :: ps) = t :: tokens ps := rfl

@[simp] theorem tokens_word (k : Keyword) (ps : List Piece) :
    tokens (word k :: ps) = .keyword k :: tokens ps := rfl

@[simp] theorem tokens_sign (s : Symbol) (ps : List Piece) :
    tokens (sign s :: ps) = .symbol s :: tokens ps := rfl

@[simp] theorem tokens_ident (n : Name) (ps : List Piece) :
    tokens (ident n :: ps) = .identifier n.text :: tokens ps := rfl

@[simp] theorem tokens_space (ps : List Piece) : tokens (Piece.space :: ps) = tokens ps := rfl

@[simp] theorem tokens_newline (ps : List Piece) : tokens (Piece.newline :: ps) = tokens ps := rfl

end Piece
end ClassText
