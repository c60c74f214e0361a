import ClassText.Proofs.Canonical.Derivation

/-! The tokens of canonical text are its own parts: no compound symbol with a leading `>` is written as
such, and so none is derived. -/
namespace ClassText

open Piece

namespace Piece

theorem mem_identifiers_of_mem_tokens {x : String} {ps : List Piece} (h : .identifier x ∈ tokens ps) :
    x ∈ identifiers ps := by
  obtain ⟨p, hp, hx⟩ := List.mem_filterMap.1 h
  refine List.mem_filterMap.2 ⟨p, hp, ?_⟩
  cases p with
  | lexeme t =>
    cases hx
    rfl
  | _ => cases hx

/-- Compound symbols, if any, stand taken apart. -/
def Apart (ps : List Piece) : Prop := ∀ t ∈ tokens ps, t.parts = [t]

@[simp] theorem apart_nil : Apart [] := by simp [Apart]

@[simp] theorem apart_append (ps qs : List Piece) : Apart (ps ++ qs) ↔ Apart ps ∧ Apart qs := by
  simp [Apart, or_imp, forall_and]

@[simp] theorem apart_lexeme (t : Token) (ps : List Piece) :
    Apart (.lexeme t :: ps) ↔ t.parts = [t] ∧ Apart ps := by
  simp [Apart]

@[simp] theorem apart_word (k : Keyword) (ps : List Piece) : Apart (word k :: ps) ↔ Apart ps := by
  simp [Apart, Token.parts]

@[simp] theorem apart_sign (s : Symbol) (ps : List Piece) :
    Apart (sign s :: ps) ↔ s.parts = [s] ∧ Apart ps := by
  simp [Apart, Token.parts, List.map_eq_cons_iff]

@[simp] theorem apart_ident (n : Name) (ps : List Piece) : Apart (ident n :: ps) ↔ Apart ps := by
  simp [Apart, Token.parts]

@[simp] theorem apart_space (ps : List Piece) : Apart (Piece.space :: ps) ↔ Apart ps := Iff.rfl

@[simp] theorem apart_newline (ps : List Piece) : Apart (Piece.newline :: ps) ↔ Apart ps := Iff.rfl

theorem apart_flatMap {f : α → List Piece} {as : List α} (h : ∀ a, Apart (f a)) :
    Apart (as.flatMap f) := by
  induction as with
  | nil => exact apart_nil
  | cons a as ih => exact (apart_append _ _).2 ⟨h a,ih⟩

theorem apart_nameList {between : Symbol} (h : between.parts = [between]) (ns : List Name) :
    Apart (nameList between ns) := by
  cases ns with
  | nil => exact apart_nil
  | cons n ns => simpa [nameList] using apart_flatMap fun m => by simp [h]

theorem apart_modifierList (ms : List Modifier) : Apart (modifierList ms) :=
  apart_flatMap fun m => by simp

end Piece

namespace TypeExpr

mutual

theorem apart_pieces : (t : TypeExpr) → Apart t.pieces
  | .primitive _ => by simp [pieces]
  | .reference _ => by simp [pieces]
  | .generic _ first others => by
    simp [pieces, Symbol.parts, apart_pieces first, apart_furtherPieces others]
  | .array element => by simp [pieces, Symbol.parts, apart_pieces element]

theorem apart_furtherPieces : (ts : List TypeExpr) → Apart (furtherPieces ts)
  | [] => by simp [furtherPieces]
  | t :: ts => by simp [furtherPieces, Symbol.parts, apart_pieces t, apart_furtherPieces ts]

end

end TypeExpr

namespace Expr

mutual

theorem apart_pieces : (e : Expr) → Apart e.pieces
  | .constant _ _ => by simp [pieces, Token.parts]
  | .variable _ => by simp [pieces]
  | .field base _ => by simp [pieces, Symbol.parts, apart_pieces base]
  | .call base _ arguments => by
    simp [pieces, Symbol.parts, apart_pieces base, apart_argumentPieces arguments]
  | .binary op left right => by
    cases op <;> simp [pieces, Operator.symbol, Symbol.parts, apart_pieces left, apart_pieces right]
  | .bracket inner => by simp [pieces, Symbol.parts, apart_pieces inner]

theorem apart_argumentPieces : (es : List Expr) → Apart (argumentPieces es)
  | [] => by simp [argumentPieces]
  | e :: es => by simp [argumentPieces, apart_pieces e, apart_furtherPieces es]

theorem apart_furtherPieces : (es : List Expr) → Apart (furtherPieces es)
  | [] => by simp [furtherPieces]
  | e :: es => by simp [furtherPieces, Symbol.parts, apart_pieces e, apart_furtherPieces es]

end

end Expr

theorem apart_initializerPieces (value : Option Expr) : Apart (initializerPieces value) := by
  cases value <;> simp [initializerPieces, Symbol.parts, Expr.apart_pieces]

theorem apart_finalPieces (isFinal : Bool) : Apart (finalPieces isFinal) := by
  cases isFinal <;> simp [finalPieces]

theorem Statement.apart_pieces (st : Statement) : Apart st.pieces := by
  cases st <;> simp [pieces, Symbol.parts, TypeExpr.apart_pieces, Expr.apart_pieces,
    apart_initializerPieces, apart_finalPieces]

theorem Field.apart_pieces (f : Field) : Apart f.pieces := by
  simp [pieces, Symbol.parts, TypeExpr.apart_pieces, apart_initializerPieces, apart_modifierList]

theorem Parameter.apart_pieces (p : Parameter) : Apart p.pieces := by
  simp [pieces, TypeExpr.apart_pieces, apart_finalPieces]

theorem Parameter.apart_listPieces (ps : List Parameter) : Apart (listPieces ps) := by
  cases ps with
  | nil => exact apart_nil
  | cons p ps =>
    exact (apart_append _ _).2 ⟨p.apart_pieces, apart_flatMap fun q => by
      simp [Symbol.parts, q.apart_pieces]⟩

theorem Method.apart_pieces (m : Method) : Apart m.pieces := by
  have hbody : Apart (bodyPieces m.body) := by
    cases m.body <;> simp [bodyPieces, Symbol.parts, apart_flatMap Statement.apart_pieces]
  simp [pieces, Symbol.parts, TypeExpr.apart_pieces, Parameter.apart_listPieces, hbody,
    apart_modifierList]

theorem QualifiedName.apart_piecesAfter (opening : Keyword) (q : QualifiedName) :
    Apart (q.piecesAfter opening) := by
  have hnames : Apart (nameList .dot q.segments) := apart_nameList rfl _
  simp [piecesAfter, Symbol.parts, hnames]

namespace ClassDecl

theorem apart_headPieces (c : ClassDecl) : Apart c.headPieces := by
  have hover : Apart (superclassPieces c.superclass) := by
    cases c.superclass <;> simp [superclassPieces]
  have htypes : Apart (interfacePieces c.interfaces) := by
    cases c.interfaces with
    | nil => exact apart_nil
    | cons n ns => simpa [interfacePieces] using apart_nameList rfl (n :: ns)
  have hqualified (opening : Keyword) (qs : List QualifiedName) :
      Apart (qs.flatMap fun q => q.piecesAfter opening ++ [Piece.newline]) :=
    apart_flatMap fun q => by simp [q.apart_piecesAfter]
  simp [headPieces, QualifiedName.packagePieces, QualifiedName.importPieces, hover, htypes,
    hqualified, apart_modifierList, Symbol.parts]

theorem apart_pieces (c : ClassDecl) : Apart c.pieces := by
  have hfields : Apart (c.fields.flatMap fun f => f.pieces ++ [Piece.newline]) :=
    apart_flatMap fun f => by simp [f.apart_pieces]
  have hmethods : Apart (c.methods.flatMap fun m => m.pieces ++ [Piece.newline]) :=
    apart_flatMap fun m => by simp [m.apart_pieces]
  simp [pieces, apart_headPieces, hfields, hmethods, Symbol.parts]

end ClassDecl

namespace Grammar

variable {p : List Token} {c : ClassDecl}

theorem parts_of_derives (h : DerivesClass p c) {t : Token} (ht : t ∈ p) : t.parts = [t] :=
  c.apart_pieces t ((ClassDecl.perm_of_derives h).1.mem_iff.1 ht)

/-- What is derived is its own parts. -/
theorem expand_of_derives (h : DerivesClass p c) : Token.expand p = p := by
  have hp : ∀ q : List Token, (∀ t ∈ q, t.parts = [t]) → Token.expand q = q := by
    intro q hq
    induction q with
    | nil => rfl
    | cons t q ih =>
      rw [Token.expand_cons, hq t List.mem_cons_self, ih fun u hu => hq u (List.mem_cons_of_mem _ hu)]
      rfl
  exact hp p fun _ => parts_of_derives h

/-- What is derived has names for identifiers. -/
theorem visible_of_derives (h : DerivesClass p c) {x : String} (hx : .identifier x ∈ p) :
    Text.isBlankText x = false := by
  have hmem := mem_identifiers_of_mem_tokens ((ClassDecl.perm_of_derives h).1.mem_iff.1 hx)
  rw [c.identifiers_pieces] at hmem
  obtain ⟨n, -, rfl⟩ := List.mem_map.1 hmem
  exact n.visible

end Grammar
end ClassText
