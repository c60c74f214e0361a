import ClassText.Proofs.Canonical.Normal
import ClassText.Proofs.Grammar

/-! The canonical text of a tree derives the tree, if anything does: the grammar has no tokens for a tree
but those of its canonical text, and has these exactly for trees in normal form. -/
namespace ClassText

open Grammar Piece

namespace TypeExpr

mutual

theorem derivesType_iff : (t : TypeExpr) → {p : List Token} →
    (DerivesType p t ↔ p = tokens t.pieces)
  | .primitive k, _ => by
    constructor
    · rintro ⟨⟩
      rfl
    · rintro rfl
      exact .primitive k
  | .reference n, _ => by
    constructor
    · rintro ⟨⟩
      rfl
    · rintro rfl
      exact .reference n
  | .generic n first others, _ => by
    constructor
    · intro h
      cases h with
      | generic _ hp hq =>
        rw [derivesType_iff first] at hp
        rw [further_iff others] at hq
        simp [pieces, hp, hq]
    · rintro rfl
      simpa [pieces] using
        DerivesType.generic n ((derivesType_iff first).2 rfl) ((further_iff others).2 rfl)
  | .array element, _ => by
    constructor
    · intro h
      cases h with
      | array hp =>
        rw [derivesType_iff element] at hp
        simp [pieces, hp]
    · rintro rfl
      simpa [pieces] using DerivesType.array ((derivesType_iff element).2 rfl)

theorem further_iff : (ts : List TypeExpr) → {p : List Token} →
    (Further DerivesType .comma p ts ↔ p = tokens (furtherPieces ts))
  | [], _ => by
    constructor
    · rintro ⟨⟩
      rfl
    · rintro rfl
      exact .nil
  | t :: ts, _ => by
    constructor
    · intro h
      cases h with
      | cons hp hq =>
        rw [derivesType_iff t] at hp
        rw [further_iff ts] at hq
        simp [furtherPieces, hp, hq]
    · rintro rfl
      have h : Further DerivesType .comma _ (t :: ts) :=
        .cons ((derivesType_iff t).2 rfl) ((further_iff ts).2 rfl)
      simpa [furtherPieces] using h

end

end TypeExpr

namespace Expr

theorem derivesOperand_iff_chain {e : Expr} {p : List Token} (h : e.isChain = true) :
    DerivesOperand p e ↔ DerivesChain p e := by
  constructor
  · intro hp
    cases hp with
    | chain hp => exact hp
    | _ => cases h
  · exact .chain

theorem derivesExpr_iff_operand {e : Expr} {p : List Token} (h : e.isBinary = false) :
    DerivesExpr p e ↔ DerivesOperand p e := by
  constructor
  · intro hp
    cases hp with
    | operand hp => exact hp
    | operation => cases h
  · exact .operand

mutual

theorem derivesChain_iff : (e : Expr) → {p : List Token} →
    (DerivesChain p e ↔ e.isChain = true ∧ e.isNormal = true ∧ p = tokens e.pieces)
  | .variable n, _ => by
    constructor
    · rintro ⟨⟩
      exact ⟨rfl,rfl,rfl⟩
    · rintro ⟨-, -, rfl⟩
      exact .variable n
  | .field base n, _ => by
    constructor
    · intro h
      cases h with
      | field _ hp =>
        obtain ⟨hc, hn, rfl⟩ := (derivesChain_iff base).1 hp
        exact ⟨rfl, by simp [isNormal, hc, hn], by simp [pieces]⟩
    · rintro ⟨-, hn, rfl⟩
      obtain ⟨hc, hn⟩ : base.isChain = true ∧ base.isNormal = true := by simpa [isNormal] using hn
      simpa [pieces] using DerivesChain.field n ((derivesChain_iff base).2 ⟨hc,hn,rfl⟩)
  | .call base n arguments, _ => by
    constructor
    · intro h
      cases h with
      | call _ hp hq =>
        obtain ⟨hc, hn, rfl⟩ := (derivesChain_iff base).1 hp
        obtain ⟨ha, rfl⟩ := (derivesArguments_iff arguments).1 hq
        exact ⟨rfl, by simp [isNormal, hc, hn, ha], by simp [pieces]⟩
    · rintro ⟨-, hn, rfl⟩
      obtain ⟨⟨hc, hn⟩, ha⟩ :
          (base.isChain = true ∧ base.isNormal = true) ∧ areNormal arguments = true := by
        simpa [isNormal] using hn
      simpa [pieces] using DerivesChain.call n ((derivesChain_iff base).2 ⟨hc,hn,rfl⟩)
        ((derivesArguments_iff arguments).2 ⟨ha,rfl⟩)
  | .constant _ _, _ | .binary _ _ _, _ | .bracket _, _ => by
    constructor
    · rintro ⟨⟩
    · rintro ⟨h, -⟩
      cases h
termination_by e => (sizeOf e, 0)

theorem derivesOperand_iff : (e : Expr) → {p : List Token} →
    (DerivesOperand p e ↔ e.isBinary = false ∧ e.isNormal = true ∧ p = tokens e.pieces)
  | .constant value isLong, _ => by
    constructor
    · rintro (_ | ⟨⟨⟩⟩)
      exact ⟨rfl,rfl,rfl⟩
    · rintro ⟨-, -, rfl⟩
      exact .constant value isLong
  | .variable _, _ | .field _ _, _ | .call _ _ _, _ => by
    rw [derivesOperand_iff_chain rfl, derivesChain_iff]
    simp [isChain, isBinary]
  | .binary _ _ _, _ => by
    constructor
    · rintro (_ | ⟨⟨⟩⟩)
    · rintro ⟨h, -⟩
      cases h
  | .bracket inner, _ => by
    constructor
    · intro h
      cases h with
      | chain h => cases h
      | bracket hp =>
        obtain ⟨hn, rfl⟩ := (derivesExpr_iff inner).1 hp
        exact ⟨rfl, by simpa [isNormal] using hn, by simp [pieces]⟩
    · rintro ⟨-, hn, rfl⟩
      have hn : inner.isNormal = true := by simpa [isNormal] using hn
      simpa [pieces] using DerivesOperand.bracket ((derivesExpr_iff inner).2 ⟨hn,rfl⟩)
termination_by e => (sizeOf e, 1)

theorem derivesExpr_iff : (e : Expr) → {p : List Token} →
    (DerivesExpr p e ↔ e.isNormal = true ∧ p = tokens e.pieces)
  | .binary op left right, _ => by
    constructor
    · intro h
      cases h with
      | operand h => obtain _ | ⟨⟨⟩⟩ := h
      | operation _ hp hq =>
        obtain ⟨hb, hl, rfl⟩ := (derivesOperand_iff left).1 hp
        obtain ⟨hr, rfl⟩ := (derivesExpr_iff right).1 hq
        exact ⟨by simp [isNormal, hb, hl, hr], by simp [pieces]⟩
    · rintro ⟨hn, rfl⟩
      obtain ⟨⟨hb, hl⟩, hr⟩ :
          (left.isBinary = false ∧ left.isNormal = true) ∧ right.isNormal = true := by
        simpa [isNormal] using hn
      simpa [pieces] using DerivesExpr.operation op ((derivesOperand_iff left).2 ⟨hb,hl,rfl⟩)
        ((derivesExpr_iff right).2 ⟨hr,rfl⟩)
  | .constant _ _, _ | .variable _, _ | .field _ _, _ | .call _ _ _, _ | .bracket _, _ => by
    rw [derivesExpr_iff_operand rfl, derivesOperand_iff]
    simp [isBinary]
termination_by e => (sizeOf e, 2)

theorem derivesArguments_iff : (es : List Expr) → {p : List Token} →
    (DerivesArguments p es ↔ areNormal es = true ∧ p = tokens (argumentPieces es))
  | [], _ => by
    constructor
    · rintro ⟨⟩
      exact ⟨rfl,rfl⟩
    · rintro ⟨-, rfl⟩
      exact .nil
  | e :: es, _ => by
    constructor
    · intro h
      cases h with
      | cons hp hq =>
        obtain ⟨he, rfl⟩ := (derivesExpr_iff e).1 hp
        obtain ⟨hes, rfl⟩ := (further_iff es).1 hq
        exact ⟨by simp [areNormal, he, hes], by simp [argumentPieces]⟩
    · rintro ⟨hn, rfl⟩
      obtain ⟨he, hes⟩ : e.isNormal = true ∧ areNormal es = true := by simpa [areNormal] using hn
      simpa [argumentPieces] using
        DerivesArguments.cons ((derivesExpr_iff e).2 ⟨he,rfl⟩) ((further_iff es).2 ⟨hes,rfl⟩)
termination_by es => (sizeOf es, 0)

theorem further_iff : (es : List Expr) → {p : List Token} →
    (Further DerivesExpr .comma p es ↔ areNormal es = true ∧ p = tokens (furtherPieces es))
  | [], _ => by
    constructor
    · rintro ⟨⟩
      exact ⟨rfl,rfl⟩
    · rintro ⟨-, rfl⟩
      exact .nil
  | e :: es, _ => by
    constructor
    · intro h
      cases h with
      | cons hp hq =>
        obtain ⟨he, rfl⟩ := (derivesExpr_iff e).1 hp
        obtain ⟨hes, rfl⟩ := (further_iff es).1 hq
        exact ⟨by simp [areNormal, he, hes], by simp [furtherPieces]⟩
    · rintro ⟨hn, rfl⟩
      obtain ⟨he, hes⟩ : e.isNormal = true ∧ areNormal es = true := by simpa [areNormal] using hn
      have h : Further DerivesExpr .comma _ (e :: es) :=
        .cons ((derivesExpr_iff e).2 ⟨he,rfl⟩) ((further_iff es).2 ⟨hes,rfl⟩)
      simpa [furtherPieces] using h
termination_by es => (sizeOf es, 0)

end

end Expr

namespace Grammar

variable {α : Type} {D : List Token → α → Prop} {N : α → Bool} {f : α → List Piece}
  {p : List Token} {as : List α}

/-- What holds of every item holds of a sequence of them. -/
theorem sequence_iff (h : ∀ p a, D p a ↔ N a = true ∧ p = tokens (f a)) :
    Sequence D p as ↔ as.all N = true ∧ p = tokens (as.flatMap f) := by
  induction as generalizing p with
  | nil =>
    constructor
    · rintro ⟨⟩
      exact ⟨rfl,rfl⟩
    · rintro ⟨-, rfl⟩
      exact .nil
  | cons a as ih =>
    constructor
    · intro hp
      cases hp with
      | cons hp hq =>
        obtain ⟨ha, rfl⟩ := (h _ _).1 hp
        obtain ⟨has, rfl⟩ := ih.1 hq
        exact ⟨by simpa using ⟨ha, by simpa using has⟩, by simp⟩
    · rintro ⟨hn, rfl⟩
      obtain ⟨ha, has⟩ : N a = true ∧ as.all N = true := by simpa using hn
      rw [List.flatMap_cons, tokens_append]
      exact .cons ((h _ _).2 ⟨ha,rfl⟩) (ih.2 ⟨has,rfl⟩)

theorem further_iff {between : Symbol} (h : ∀ p a, D p a ↔ p = tokens (f a)) :
    Further D between p as ↔ p = tokens (as.flatMap fun a => sign between :: f a) := by
  induction as generalizing p with
  | nil =>
    constructor
    · rintro ⟨⟩
      rfl
    · rintro rfl
      exact .nil
  | cons a as ih =>
    constructor
    · intro hp
      cases hp with
      | cons hp hq =>
        rw [(h _ _).1 hp, ih.1 hq]
        simp
    · rintro rfl
      rw [List.flatMap_cons, tokens_append]
      exact .cons ((h _ _).2 rfl) (ih.2 rfl)

theorem separated_iff {between : Symbol} {a : α} (h : ∀ p a, D p a ↔ p = tokens (f a)) :
    Separated D between p (a :: as) ↔
      p = tokens (f a ++ as.flatMap fun a => sign between :: f a) := by
  constructor
  · rintro ⟨hp, hq⟩
    rw [(h _ _).1 hp, (further_iff h).1 hq, tokens_append]
  · rintro rfl
    rw [tokens_append]
    exact .intro ((h _ _).2 rfl) ((further_iff h).2 rfl)

theorem derivesName_iff {p : List Token} {n : Name} : DerivesName p n ↔ p = tokens [ident n] := by
  constructor
  · rintro ⟨⟩
    rfl
  · rintro rfl
    exact .intro n

theorem derivesNames_iff {between : Symbol} {p : List Token} {n : Name} {ns : List Name} :
    Separated DerivesName between p (n :: ns) ↔ p = tokens (nameList between (n :: ns)) :=
  separated_iff (f := fun n => [ident n]) fun _ _ => derivesName_iff

theorem derivesInitializer_iff {p : List Token} {value : Option Expr} :
    Optional DerivesInitializer p value ↔
      value.all Expr.isNormal = true ∧ p = tokens (initializerPieces value) := by
  cases value with
  | none =>
    constructor
    · rintro ⟨⟩
      exact ⟨rfl,rfl⟩
    · rintro ⟨-, rfl⟩
      exact .none
  | some e =>
    constructor
    · intro h
      obtain _ | ⟨⟨h⟩⟩ := h
      obtain ⟨hn, rfl⟩ := e.derivesExpr_iff.1 h
      exact ⟨hn,rfl⟩
    · rintro ⟨hn, rfl⟩
      exact .some (.intro (e.derivesExpr_iff.2 ⟨hn,rfl⟩))

theorem finalWord_eq (isFinal : Bool) : finalWord isFinal = tokens (finalPieces isFinal) := by
  cases isFinal <;> rfl

theorem modifierWords_eq (ms : List Modifier) : modifierWords ms = tokens (modifierList ms) := by
  induction ms with
  | nil => rfl
  | cons m ms ih =>
    rw [modifierList, List.flatMap_cons, tokens_append, ← modifierList, ← ih]
    rfl

end Grammar

theorem Statement.derives_iff (st : Statement) {p : List Token} :
    DerivesStatement p st ↔ st.isNormal = true ∧ p = tokens st.pieces := by
  constructor
  · intro h
    cases h with
    | declareLocal hp hq hr =>
      obtain ⟨hn, rfl⟩ := derivesInitializer_iff.1 hr
      rw [TypeExpr.derivesType_iff] at hp
      rw [derivesName_iff] at hq
      exact ⟨hn, by simp [pieces, hp, hq, finalWord_eq]⟩
    | returnValue hp =>
      obtain ⟨hn, rfl⟩ := (Expr.derivesExpr_iff _).1 hp
      exact ⟨hn, by simp [pieces]⟩
    | empty => exact ⟨rfl,rfl⟩
    | assignField hp hq =>
      obtain ⟨hq⟩ := hq
      obtain ⟨-, hn, rfl⟩ := (Expr.derivesChain_iff _).1 hp
      obtain ⟨hv, rfl⟩ := (Expr.derivesExpr_iff _).1 hq
      exact ⟨by simp [isNormal, hn, hv], by simp [pieces]⟩
    | callMethod hp =>
      obtain ⟨-, hn, rfl⟩ := (Expr.derivesChain_iff _).1 hp
      exact ⟨by simp [isNormal, hn], by simp [pieces]⟩
  · rintro ⟨hn, rfl⟩
    cases st with
    | declareLocal isFinal type n value =>
      have htype := type.derivesType_iff.2 rfl
      have hvalue := derivesInitializer_iff.2 ⟨hn,rfl⟩
      have h : DerivesStatement _ (.declareLocal isFinal type n value) :=
        .declareLocal htype (.intro n) hvalue (by simpa using opensLocal_of_declared isFinal htype)
      simpa [pieces, finalWord_eq] using h
    | returnValue value =>
      simpa [pieces] using DerivesStatement.returnValue (value.derivesExpr_iff.2 ⟨hn,rfl⟩)
    | empty => exact .empty
    | assignField base n value =>
      obtain ⟨hc, hv⟩ : (Expr.field base n).isNormal = true ∧ value.isNormal = true := by
        simpa [isNormal] using hn
      have hchain := (Expr.derivesChain_iff (.field base n)).2 ⟨rfl,hc,rfl⟩
      have h := DerivesStatement.assignField hchain (.intro (value.derivesExpr_iff.2 ⟨hv,rfl⟩)) (by
        rw [List.append_assoc]
        exact opensLocal_of_field hchain)
      simpa [pieces] using h
    | callMethod base n arguments =>
      have hchain := (Expr.derivesChain_iff (.call base n arguments)).2 ⟨rfl,hn,rfl⟩
      simpa [pieces] using DerivesStatement.callMethod hchain (opensLocal_of_call hchain)

theorem Parameter.derives_iff {p : List Token} (a : Parameter) :
    DerivesParameter p a ↔ p = tokens a.pieces := by
  constructor
  · rintro ⟨hp, hq⟩
    rw [TypeExpr.derivesType_iff] at hp
    rw [derivesName_iff] at hq
    simp [pieces, hp, hq, finalWord_eq]
  · rintro rfl
    have h : DerivesParameter _ ⟨a.isFinal, a.type, a.name⟩ :=
      .intro (a.type.derivesType_iff.2 rfl) (.intro a.name)
    simpa [pieces, finalWord_eq] using h

theorem Parameter.derivesParameters_iff {p : List Token} {as : List Parameter} :
    DerivesParameters p as ↔ p = tokens (listPieces as) := by
  cases as with
  | nil =>
    constructor
    · intro h
      cases h with
      | nil => rfl
      | some h => cases h
    · rintro rfl
      exact .nil
  | cons a as =>
    have h : Separated DerivesParameter .comma p (a :: as) ↔ p = tokens (listPieces (a :: as)) :=
      separated_iff fun _ a => a.derives_iff
    constructor
    · intro hp
      cases hp with
      | some hp => exact h.1 hp
    · exact fun hp => .some (h.2 hp)

theorem Method.derivesBody_iff {p : List Token} {body : Option (List Statement)} :
    DerivesBody p body ↔
      body.all (·.all Statement.isNormal) = true ∧ p = tokens (bodyPieces body) := by
  cases body with
  | none =>
    constructor
    · rintro ⟨⟩
      exact ⟨rfl,rfl⟩
    · rintro ⟨-, rfl⟩
      exact .none
  | some sts =>
    have h {q : List Token} : Sequence DerivesStatement q sts ↔
        sts.all Statement.isNormal = true ∧ q = tokens (sts.flatMap Statement.pieces) :=
      sequence_iff fun _ st => st.derives_iff
    constructor
    · intro hp
      cases hp with
      | some hp =>
        obtain ⟨hn, rfl⟩ := h.1 hp
        exact ⟨hn, by simp [bodyPieces]⟩
    · rintro ⟨hn, rfl⟩
      simpa [bodyPieces] using DerivesBody.some (h.2 ⟨hn,rfl⟩)

theorem Field.derives_iff (f : Field) {p : List Token} :
    DerivesMember p (.field f) ↔ f.isNormal = true ∧ p = tokens f.pieces := by
  constructor
  · intro h
    cases h with
    | field hp hq hr =>
      obtain ⟨hn, rfl⟩ := derivesInitializer_iff.1 hr
      rw [TypeExpr.derivesType_iff] at hp
      rw [derivesName_iff] at hq
      exact ⟨hn, by simp [pieces, hp, hq, modifierWords_eq]⟩
  · rintro ⟨hn, rfl⟩
    have h : DerivesMember (modifierWords f.modifiers ++ _ ++ _ ++ _ ++ [.symbol .semicolon])
        (.field f) := .field (f.type.derivesType_iff.2 rfl) (.intro f.name)
      (derivesInitializer_iff.2 ⟨hn,rfl⟩)
    simpa [pieces, modifierWords_eq] using h

theorem Method.derives_iff (m : Method) {p : List Token} :
    DerivesMember p (.method m) ↔ m.isNormal = true ∧ p = tokens m.pieces := by
  constructor
  · intro h
    cases h with
    | method hp hq hr hb =>
      obtain ⟨hn, rfl⟩ := derivesBody_iff.1 hb
      rw [TypeExpr.derivesType_iff] at hp
      rw [derivesName_iff] at hq
      rw [Parameter.derivesParameters_iff] at hr
      exact ⟨hn, by simp [pieces, hp, hq, hr, modifierWords_eq]⟩
  · rintro ⟨hn, rfl⟩
    have h : DerivesMember (modifierWords m.modifiers ++ _ ++ _ ++ .symbol .leftParen :: _)
        (.method m) := .method (m.result.derivesType_iff.2 rfl) (.intro m.name)
      (Parameter.derivesParameters_iff.2 rfl) (derivesBody_iff.2 ⟨hn,rfl⟩)
    simpa [pieces, modifierWords_eq] using h

theorem QualifiedName.derives_iff {opening : Keyword} (q : QualifiedName) {p : List Token} :
    DerivesQualified opening p q ↔ p = tokens (q.piecesAfter opening) := by
  constructor
  · rintro ⟨hp⟩
    rw [derivesNames_iff] at hp
    simp [piecesAfter, segments, hp]
  · rintro rfl
    have h : DerivesQualified opening _ ⟨q.first, q.others⟩ := .intro (derivesNames_iff.2 rfl)
    simpa [piecesAfter, segments] using h

namespace ClassDecl

variable {c : ClassDecl} {p : List Token}

theorem derivesPackage_iff {o : Option QualifiedName} : Optional (DerivesQualified .package) p o ↔
    p = tokens (o.toList.flatMap fun q => q.packagePieces ++ [Piece.newline]) := by
  cases o with
  | none =>
    constructor
    · rintro ⟨⟩
      rfl
    · rintro rfl
      exact .none
  | some q =>
    constructor
    · intro h
      cases h with
      | some h => simp [q.derives_iff.1 h, QualifiedName.packagePieces]
    · rintro rfl
      exact .some (q.derives_iff.2 (by simp [QualifiedName.packagePieces]))

theorem derivesImports_iff {qs : List QualifiedName} :
    Sequence (DerivesQualified .«import») p qs ↔
      p = tokens (qs.flatMap fun q => q.importPieces ++ [Piece.newline]) := by
  rw [sequence_iff (N := fun _ => true) (f := fun q => q.importPieces ++ [Piece.newline])]
  · simp
  · intro p q
    rw [q.derives_iff]
    simp [QualifiedName.importPieces]

theorem derivesSuperclass_iff {o : Option Name} :
    Optional DerivesSuperclass p o ↔ p = tokens (superclassPieces o) := by
  cases o with
  | none =>
    constructor
    · rintro ⟨⟩
      rfl
    · rintro rfl
      exact .none
  | some n =>
    constructor
    · intro h
      obtain _ | ⟨⟨h⟩⟩ := h
      rw [derivesName_iff.1 h]
      rfl
    · rintro rfl
      exact .some (.intro (.intro n))

theorem derivesInterfaces_iff {ns : List Name} :
    DerivesInterfaces p ns ↔ p = tokens (interfacePieces ns) := by
  cases ns with
  | nil =>
    constructor
    · intro h
      cases h with
      | nil => rfl
      | some h => cases h
    · rintro rfl
      exact .nil
  | cons n ns =>
    constructor
    · intro h
      cases h with
      | some h => simp [interfacePieces, derivesNames_iff.1 h]
    · rintro rfl
      exact .some (derivesNames_iff.2 rfl)

theorem derivesHead_iff : DerivesHead p c ↔ p = tokens c.headPieces := by
  constructor
  · rintro ⟨_, hp, hq, hr, ht, hu⟩
    rw [derivesPackage_iff] at hp
    rw [derivesImports_iff] at hq
    rw [derivesName_iff] at hr
    rw [derivesSuperclass_iff] at ht
    rw [derivesInterfaces_iff] at hu
    simp [headPieces, hp, hq, hr, ht, hu, modifierWords_eq]
  · rintro rfl
    have h := DerivesHead.intro c (derivesPackage_iff.2 rfl) (derivesImports_iff.2 rfl) (.intro c.name)
      (derivesSuperclass_iff.2 rfl) (derivesInterfaces_iff.2 rfl)
    simpa [headPieces, modifierWords_eq] using h

end ClassDecl

namespace Member

def pieces : Member → List Piece
  | .field f => f.pieces
  | .method m => m.pieces

def isNormal : Member → Bool
  | .field f => f.isNormal
  | .method m => m.isNormal

theorem derives_iff (m : Member) {p : List Token} :
    DerivesMember p m ↔ m.isNormal = true ∧ p = tokens m.pieces := by
  cases m with
  | field f => exact f.derives_iff
  | method m => exact m.derives_iff

/-- Fields in front of methods, each kind in its order, have the pieces of both as they stand mixed. -/
theorem pieces_perm (ms : List Member) : (ms.flatMap pieces).Perm
    ((ms.filterMap field?).flatMap Field.pieces ++ (ms.filterMap method?).flatMap Method.pieces) := by
  induction ms with
  | nil => exact .nil
  | cons m ms ih =>
    cases m with
    | field f =>
      have h := ih.append_left f.pieces
      rw [← List.append_assoc] at h
      exact h
    | method m =>
      have h := ih.append_left m.pieces
      rw [← List.append_assoc] at h
      have hswap : (m.pieces ++ (ms.filterMap field?).flatMap Field.pieces).Perm
          ((ms.filterMap field?).flatMap Field.pieces ++ m.pieces) := List.perm_append_comm
      refine h.trans ((hswap.append_right _).trans ?_)
      rw [List.append_assoc]
      exact .rfl

/-- Members that stand fields first. -/
def ordered (fs : List Field) (ms : List Method) : List Member :=
  fs.map Member.field ++ ms.map Member.method

theorem filterMap_ordered (fs : List Field) (ms : List Method) :
    (ordered fs ms).filterMap field? = fs ∧ (ordered fs ms).filterMap method? = ms := by
  have hf : (fs.map Member.field).filterMap field? = fs := by
    rw [List.filterMap_map]
    exact List.filterMap_some
  have hm : (ms.map Member.method).filterMap method? = ms := by
    rw [List.filterMap_map]
    exact List.filterMap_some
  have hf' : (ms.map Member.method).filterMap field? = [] := by
    rw [List.filterMap_map]
    exact List.filterMap_eq_nil_iff.2 fun _ _ => rfl
  have hm' : (fs.map Member.field).filterMap method? = [] := by
    rw [List.filterMap_map]
    exact List.filterMap_eq_nil_iff.2 fun _ _ => rfl
  constructor
  · rw [ordered, List.filterMap_append, hf, hf', List.append_nil]
  · rw [ordered, List.filterMap_append, hm, hm', List.nil_append]

end Member

namespace ClassDecl

variable {c : ClassDecl} {p : List Token}

/-- Newlines are no tokens. -/
theorem tokens_lines (f : α → List Piece) (as : List α) :
    tokens (as.flatMap fun a => f a ++ [Piece.newline]) = tokens (as.flatMap f) := by
  induction as with
  | nil => rfl
  | cons a as ih => simp [ih]

theorem tokens_pieces (c : ClassDecl) : tokens c.pieces = tokens c.headPieces ++
    tokens (c.fields.flatMap Field.pieces ++ c.methods.flatMap Method.pieces) ++
    [.symbol .rightBrace] := by
  simp [pieces, tokens_lines]

theorem derivesMembers_iff {ms : List Member} : Sequence DerivesMember p ms ↔
    ms.all Member.isNormal = true ∧ p = tokens (ms.flatMap Member.pieces) :=
  sequence_iff fun _ m => m.derives_iff

/-- What derives a class is its canonical text, up to the order of the members, and only expressions
that nest as they are read are derived. -/
theorem perm_of_derives (h : DerivesClass p c) : p.Perm (tokens c.pieces) ∧
    c.fields.all Field.isNormal = true ∧ c.methods.all Method.isNormal = true := by
  obtain @⟨_, _, _, members, hp, hq, hf, hm⟩ := h
  rw [derivesHead_iff] at hp
  rw [derivesMembers_iff] at hq
  obtain ⟨hn, rfl⟩ := hq
  rw [tokens_pieces, hp, hf, hm]
  refine ⟨(((Member.pieces_perm members).filterMap _).append_left _).append_right _, ?_, ?_⟩
  · refine List.all_eq_true.2 fun f hmem => ?_
    obtain ⟨m, hm, he⟩ := List.mem_filterMap.1 hmem
    cases m with
    | field g =>
      cases he
      exact List.all_eq_true.1 hn _ hm
    | method => cases he
  · refine List.all_eq_true.2 fun f hmem => ?_
    obtain ⟨m, hm, he⟩ := List.mem_filterMap.1 hmem
    cases m with
    | field => cases he
    | method g =>
      cases he
      exact List.all_eq_true.1 hn _ hm

theorem derives_pieces (hf : c.fields.all Field.isNormal = true)
    (hm : c.methods.all Method.isNormal = true) : DerivesClass (tokens c.pieces) c := by
  have hn : (Member.ordered c.fields c.methods).all Member.isNormal = true := by
    rw [Member.ordered, List.all_append, List.all_map, List.all_map]
    exact Bool.and_eq_true_iff.2 ⟨hf,hm⟩
  have hp : (Member.ordered c.fields c.methods).flatMap Member.pieces =
      c.fields.flatMap Field.pieces ++ c.methods.flatMap Method.pieces := by
    rw [Member.ordered, List.flatMap_append, List.flatMap_map, List.flatMap_map]
    rfl
  obtain ⟨hfields, hmethods⟩ := Member.filterMap_ordered c.fields c.methods
  rw [tokens_pieces, ← hp]
  exact .intro (derivesHead_iff.2 rfl) (derivesMembers_iff.2 ⟨hn,rfl⟩) hfields.symm hmethods.symm

end ClassDecl
end ClassText
