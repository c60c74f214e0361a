import ClassText.Proofs.Grammar
import ClassText.Reader.Error

/-! Beginnings of classes. A sequence of tokens is viable if something can follow that makes a class of
it; and what may follow a viable one is said of whole phrases, so that each rule of the grammar turns
into a rule about what may follow. -/
namespace ClassText.Grammar

/-- Something can follow that completes a class. -/
def Viable (p : List Token) : Prop := ∃ us c, DerivesClass (p ++ us) c

/-- Whatever is derived may follow. -/
def Opens (D : List Token → α → Prop) (p : List Token) : Prop := ∀ w a, D w a → Viable (p ++ w)

variable {p q w : List Token}

/-- What begins something viable is viable. -/
theorem Viable.beginning (h : Viable q) (hp : p <+: q) : Viable p := by
  obtain ⟨us, c, hc⟩ := h
  obtain ⟨r, rfl⟩ := hp
  exact ⟨r ++ us, c, by rwa [← List.append_assoc]⟩

section Lists

variable {D : List Token → α → Prop} {sign : Symbol} {a : α} {as : List α}

theorem Further.snoc (h : Further D sign q as) (ha : D w a) :
    Further D sign (q ++ .symbol sign :: w) (as ++ [a]) := by
  induction h with
  | nil => simpa using Further.cons ha .nil
  | cons hp _ ih => simpa using Further.cons hp ih

theorem Sequence.snoc (h : Sequence D q as) (ha : D w a) : Sequence D (q ++ w) (as ++ [a]) := by
  induction h with
  | nil => simpa using Sequence.cons ha .nil
  | cons hp _ ih => simpa using Sequence.cons hp ih

end Lists

/-- A name, so that there is one. -/
def someName : Name := ⟨"a", by decide +kernel⟩

/-- An expression, so that there is one. -/
theorem derivesExpr_some : DerivesExpr [.identifier someName.text] (.variable someName) :=
  .operand (.chain (.variable someName))

/-- Behind an operand, an operator goes on with the expression. -/
theorem Opens.behind_operand {e : Expr} (hp : Opens DerivesExpr p) (hq : DerivesOperand q e)
    (op : Operator) : Opens DerivesExpr (p ++ q ++ [.symbol op.symbol]) := by
  intro w f hw
  have h := hp _ _ (.operation op hq hw)
  simpa using h

/-- Whatever chain there is, a call behind it makes a statement of it. -/
theorem Opens.chain_of_statement (hp : Opens DerivesStatement p) : Opens DerivesChain p := by
  intro w e hw
  have hcall : DerivesChain (w ++ .symbol .dot :: .identifier someName.text :: .symbol .leftParen ::
      ([] ++ [.symbol .rightParen])) (.call e someName []) := .call someName hw .nil
  have h := hp _ _ (.callMethod hcall (opensLocal_of_call hcall))
  exact h.beginning (by simp)

end ClassText.Grammar

namespace ClassText.Expected

open Grammar

/-- What may stand where this is expected. -/
def Admits : Expected → List Token → Prop
  | .token t, w => w = [t]
  | .identifier _, w => ∃ n : Name, w = [.identifier n.text]
  | .type, w => ∃ t, DerivesType w t
  | .expression, w => ∃ e, DerivesExpr w e
  | .statement, w => ∃ st, DerivesStatement w st

theorem exists_admits (x : Expected) : ∃ w, x.Admits w := by
  cases x with
  | token t => exact ⟨[t],rfl⟩
  | identifier role => exact ⟨_,someName,rfl⟩
  | type => exact ⟨_, _, .reference someName⟩
  | expression => exact ⟨_,_,derivesExpr_some⟩
  | statement => exact ⟨_,_,.empty⟩

end ClassText.Expected
