import ClassText.Reader.Declaration

/-! One input read declaration by declaration. -/
namespace ClassText

/-- A reading, and whether asking for the next declaration has already failed. -/
structure Session where
  reading : Reading
  failed : Bool
deriving DecidableEq

namespace Session

def ofTokens (tokens : List Located) : Session := ⟨.ofTokens tokens, false⟩

/-- Run any reader from where the session stands, and go on where it stopped. -/
def run (r : Reader α) (s : Session) : Except Stop α × Session :=
  match r.run s.reading with
  | .ok a reading => (.ok a, { s with reading })
  | .error e reading => (.error e, { s with reading })

/-- The next declaration. After its first error there is none any more. -/
def next (s : Session) : Except Stop (Option ClassDecl) × Session :=
  if s.failed then (.ok none, s)
  else
    match s.run Reader.nextDeclaration with
    | (.error (.rejected e), s) => (.error (.rejected e), { s with failed := true })
    | answer => answer

section Runs

variable {s : Session} {r : Reader α} {u : Reading}

theorem run_of_ok {a : α} (h : r.run s.reading = .ok a u) :
    s.run r = (.ok a, { s with reading := u }) := by rw [run, h]

theorem run_of_error {e : Stop} (h : r.run s.reading = .error e u) :
    s.run r = (.error e, { s with reading := u }) := by rw [run, h]

theorem next_of_failed (hf : s.failed = true) : s.next = (.ok none, s) := by
  rw [next, if_pos hf]

theorem next_of_ok (hf : s.failed = false) {o : Option ClassDecl}
    (h : Reader.nextDeclaration.run s.reading = .ok o u) :
    s.next = (.ok o, { s with reading := u }) := by
  rw [next, if_neg (by simp [hf]), run_of_ok h]

theorem next_of_rejected (hf : s.failed = false) {e : SyntaxError}
    (h : Reader.nextDeclaration.run s.reading = .error (.rejected e) u) :
    s.next = (.error (.rejected e), ⟨u, true⟩) := by
  rw [next, if_neg (by simp [hf]), run_of_error h]

theorem next_of_broken (hf : s.failed = false) {f : Fault}
    (h : Reader.nextDeclaration.run s.reading = .error (.broken f) u) :
    s.next = (.error (.broken f), { s with reading := u }) := by
  rw [next, if_neg (by simp [hf]), run_of_error h]

end Runs

/-- What may be asked of a session. -/
inductive Operation where
  | next | nextDeclaration | type | expression | statement
deriving DecidableEq, Repr

/-- What an operation reads. -/
inductive Answer where
  | declaration (read : Option ClassDecl)
  | type (read : TypeExpr)
  | expression (read : Expr)
  | statement (read : Statement)

def perform (s : Session) : Operation → Except Stop Answer × Session
  | .next => s.next.map (·.map .declaration) id
  | .nextDeclaration => (s.run Reader.nextDeclaration).map (·.map .declaration) id
  | .type => (s.run Reader.typeExpr).map (·.map .type) id
  | .expression => (s.run Reader.expression).map (·.map .expression) id
  | .statement => (s.run Reader.statement).map (·.map .statement) id

/-- The answers to operations in turn. Each goes on where the one before has stopped, whether or not that
one has failed. -/
def answers (s : Session) : List Operation → List (Except Stop Answer)
  | [] => []
  | o :: os => (s.perform o).1 :: (s.perform o).2.answers os

end Session
end ClassText
