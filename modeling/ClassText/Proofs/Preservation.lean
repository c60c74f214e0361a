import ClassText.Proofs.Advance.Reader
import ClassText.Reader.Session

/-! What all operations of a parser leave as it is. They share one cursor, nest in each other and may stop
midway; still, after any number of them, the input is as long as before, and of its tokens only compound
symbols that were passed or are being passed have changed, by the characters used up of them. -/
namespace ClassText
namespace Reader

/-- The operations that others are made of. -/
inductive Part where
  | peek (n : Nat) | atEnd | sees (t : Token)
  | skip | accept (t : Token) | expect (t : Token) | identifier (role : String) | closingAngle
  | namedType | arrayBrackets (element : TypeExpr)
  | arguments | chainLink (base : Expr) | chain | operand | operation
  | initializer | localDeclaration (isFinal : Bool) | chainStatement
  | qualifiedName (role : String) | modifiers | parameter | parameters | body
  | fieldRest (ms : List Modifier) (type : TypeExpr) (name : String)
  | methodRest (ms : List Modifier) (result : TypeExpr) (name : String)
  | member | members | package | imports | superclass | interfaces | classDecl

/-- What a part reads, and how. -/
def Part.reader : Part → (α : Type) × Reader α
  | peek n => ⟨_, peek? n⟩
  | atEnd => ⟨_, Reader.atEnd⟩
  | sees t => ⟨_, Reader.sees t⟩
  | skip => ⟨_, Reader.skip⟩
  | accept t => ⟨_, Reader.accept t⟩
  | expect t => ⟨_, Reader.expect t⟩
  | identifier role => ⟨_, Reader.identifier role⟩
  | closingAngle => ⟨_, Reader.closingAngle⟩
  | namedType => ⟨_, Reader.namedType typeExpr⟩
  | arrayBrackets element => ⟨_, Reader.arrayBrackets element⟩
  | arguments => ⟨_, Reader.arguments expression⟩
  | chainLink base => ⟨_, Reader.chainLink expression base⟩
  | chain => ⟨_, Reader.chain expression⟩
  | operand => ⟨_, Reader.operand expression⟩
  | operation => ⟨_, Reader.operation expression⟩
  | initializer => ⟨_, Reader.initializer⟩
  | localDeclaration isFinal => ⟨_, Reader.localDeclaration isFinal⟩
  | chainStatement => ⟨_, Reader.chainStatement⟩
  | qualifiedName role => ⟨_, Reader.qualifiedName role⟩
  | modifiers => ⟨_, Reader.modifiers⟩
  | parameter => ⟨_, Reader.parameter⟩
  | parameters => ⟨_, Reader.parameters⟩
  | body => ⟨_, Reader.body⟩
  | fieldRest ms type name => ⟨_, Reader.fieldRest ms type name⟩
  | methodRest ms result name => ⟨_, Reader.methodRest ms result name⟩
  | member => ⟨_, Reader.member⟩
  | members => ⟨_, Reader.members⟩
  | package => ⟨_, Reader.package⟩
  | imports => ⟨_, Reader.imports⟩
  | superclass => ⟨_, Reader.superclass⟩
  | interfaces => ⟨_, Reader.interfaces⟩
  | classDecl => ⟨_, Reader.classDecl⟩

theorem Part.onward (p : Part) : Onward p.reader.2 := by
  have h := closed_onward
  have hexpression := h.expression
  cases p with
  | peek n => exact h.peek? n
  | atEnd => exact h.atEnd
  | sees t => exact h.sees t
  | skip => exact h.skip
  | accept t => exact h.accept t
  | expect t => exact h.expect t
  | identifier role => exact h.identifier role
  | closingAngle => exact h.closingAngle
  | namedType => exact h.namedType h.typeExpr
  | arrayBrackets element => exact h.arrayBrackets element
  | arguments => exact h.arguments hexpression
  | chainLink base => exact h.chainLink hexpression base
  | chain => exact h.chain hexpression
  | operand => exact h.operand hexpression
  | operation => exact h.operation hexpression
  | initializer => exact h.initializer
  | localDeclaration isFinal => exact h.localDeclaration isFinal
  | chainStatement =>
    exact h.chainStatement (h.chain hexpression) hexpression (h.expect _) (h.expect _)
  | qualifiedName role => exact h.qualifiedName role
  | modifiers => exact h.modifiers
  | parameter => exact h.parameter
  | parameters => exact h.parameters
  | body => exact h.body
  | fieldRest ms type name => exact h.fieldRest ms type name
  | methodRest ms result name => exact h.methodRest ms result name
  | member => exact h.member
  | members => exact h.members
  | package => exact h.package
  | imports => exact h.imports
  | superclass => exact h.superclass
  | interfaces => exact h.interfaces
  | classDecl => exact h.classDecl

end Reader

namespace Session

open Reader (closed_onward)

/-- What may be done with a parser: an operation from outside, or one of those it is made of. -/
inductive Step where
  | answer (o : Operation)
  | read (p : Reader.Part)

/-- The session after a step, which may have failed. -/
def take (s : Session) : Step → Session
  | .answer o => (s.perform o).2
  | .read p => (s.run p.reader.2).2

variable {α : Type}

theorem onward_run {r : Reader α} (h : Reader.Onward r) (s : Session) :
    s.reading.Onward (s.run r).2.reading := by
  cases hr : r.run s.reading with
  | ok a u =>
    rw [run_of_ok hr]
    exact h.of_ok hr
  | error e u =>
    rw [run_of_error hr]
    exact h.of_error hr

theorem onward_perform (s : Session) (o : Operation) :
    s.reading.Onward (s.perform o).2.reading := by
  cases o with
  | next =>
    have hnext := onward_run closed_onward.nextDeclaration s
    change s.reading.Onward s.next.2.reading
    unfold next
    split
    · exact .refl _
    · split
      · next h => rwa [h] at hnext
      · exact hnext
  | nextDeclaration => exact onward_run closed_onward.nextDeclaration s
  | type => exact onward_run closed_onward.typeExpr s
  | expression => exact onward_run closed_onward.expression s
  | statement => exact onward_run closed_onward.statement s

theorem onward_take (s : Session) (o : Step) : s.reading.Onward (s.take o).reading := by
  cases o with
  | answer o => exact onward_perform s o
  | read p => exact onward_run p.onward s

/-- Wherever a parser stands and whatever it is asked in turn, with or without success, its cursor only
goes forward over an input that stays as long. Tokens behind the place where the cursor stood and tokens
ahead of the one where it comes to stand are as they were. Those in between are too, or they are what is
left of a compound symbol without some characters at its front, placed by as many characters further. -/
theorem frame_foldl_take (s : Session) (steps : List Step) :
    s.reading.cursor.Frame (steps.foldl take s).reading.cursor := by
  induction steps generalizing s with
  | nil => exact .refl _
  | cons o steps ih => exact (onward_take s o).frame.trans (ih (s.take o))

end Session
end ClassText
