import ClassText.Proofs.Advance.Reader
import ClassText.Proofs.Tiers
import Mathlib.Algebra.GroupWithZero.Nat
import Mathlib.Logic.Relation

/-! Readers that take something. What is still to be read is measured in characters for a symbol that can
be split, and in tokens otherwise, so that closing a list of type arguments lowers it even where the
cursor stays at the same token. -/
namespace ClassText

/-- A symbol that begins with `>` may be consumed character by character, any other token as a whole. -/
def Token.weight : Token → Nat
  | .symbol x => if x.spelling.toList.head? = some '>' then x.spelling.toList.length else 1
  | _ => 1

theorem Token.length_parts (t : Token) : t.parts.length = t.weight := by
  have hsymbols : ∀ x ∈ Symbol.all, x.parts.length =
      if x.spelling.toList.head? = some '>' then x.spelling.toList.length else 1 := by decide +kernel
  cases t with
  | symbol x => rw [parts, List.length_map, hsymbols x x.mem_all, weight]
  | _ => rfl

/-- How much is still to be read. -/
def Reading.remaining (s : Reading) : Nat := (s.cursor.ahead.map (·.token.weight)).sum

theorem Reading.length_unread (s : Reading) : s.unread.length = s.remaining := by
  simp [unread, remaining, Token.expand, List.length_flatMap, Token.length_parts, Function.comp_def]

namespace Reader

/-- What descends with each step of a relation descends along all of its chains. -/
theorem of_transGen {ι κ : Type} {R : ι → ι → Prop} {S : κ → κ → Prop} [IsTrans κ S] {f : ι → κ}
    (hR : ∀ {x y}, R x y → S (f y) (f x)) {x y : ι} (h : Relation.TransGen R x y) : S (f y) (f x) := by
  induction h with
  | single h => exact hR h
  | tail _ h ih => exact IsTrans.trans _ _ _ (hR h) ih

variable {α β : Type} {s : Reading}

/-- At `s`, a result leaves less to be read. -/
def TakesAt (r : Reader α) (s : Reading) : Prop :=
  ∀ a t, r.run s = .ok a t → t.unread.length < s.unread.length

/-- A result leaves less to be read than there was, and a stop no more. -/
structure Progresses (r : Reader α) : Prop where
  result : ∀ s a t, r.run s = .ok a t → t.remaining < s.remaining
  stop : ∀ s e t, r.run s = .error e t → t.remaining ≤ s.remaining

theorem Onward.progresses {r : Reader α} (h : Onward r) (ht : ∀ s, TakesAt r s) : Progresses r where
  result s a t hr := by simpa only [Reading.length_unread] using ht s a t hr
  stop s e t hr := by simpa only [Reading.length_unread] using (h.of_error hr).length_le

namespace TakesAt

theorem bind {x : Reader α} {f : α → Reader β} (hx : TakesAt x s) (hf : ∀ a, Onward (f a)) :
    TakesAt (x >>= f) s := fun b t hr => by
  obtain ⟨a, u, hu, hr⟩ := exists_of_run_bind hr
  exact Nat.lt_of_le_of_lt ((hf a).of_ok hr).length_le (hx a u hu)

theorem behind {x : Reader α} {f : α → Reader β} (hx : Onward x) (hf : ∀ a u, TakesAt (f a) u) :
    TakesAt (x >>= f) s := fun b t hr => by
  obtain ⟨a, u, hu, hr⟩ := exists_of_run_bind hr
  exact Nat.lt_of_lt_of_le (hf a u b t hr) (hx.of_ok hu).length_le

theorem of_run_eq {r r' : Reader α} (h : TakesAt r' s) (hr : r.run s = r'.run s) : TakesAt r s :=
  fun a t ht => h a t (hr ▸ ht)

theorem ite {p : Prop} [Decidable p] {r r' : Reader α} (h : TakesAt r s) (h' : TakesAt r' s) :
    TakesAt (if p then r else r') s := by
  split_ifs
  · exact h
  · exact h'

theorem bind_current {f : Option Token → Reader α} (h : TakesAt (f (s.cursor.peek? 0)) s) :
    TakesAt (current? >>= f) s :=
  h.of_run_eq rfl

theorem bind_get {f : Reading → Reader α} (h : TakesAt (f s) s) : TakesAt (get >>= f) s :=
  h.of_run_eq rfl

theorem tooFew (es : List Expected) : TakesAt (tooFew es : Reader α) s := fun _ _ h => by cases h

theorem unexpected (e : Expected) : TakesAt (unexpected e : Reader α) s :=
  fun a t h => absurd h (run_unexpected_ne_ok e s a t)

theorem skip {t : Token} (h : s.cursor.peek? 0 = some t) : TakesAt skip s := fun _ _ hr => by
  cases hr
  exact Reading.length_advance_lt h

theorem expect (t : Token) (s : Reading) : TakesAt (expect t) s := by
  have hr : (Reader.expect t).run s = (if decide (s.cursor.peek? 0 = some t) then Reader.skip
      else Reader.unexpected (.token t)).run s := rfl
  refine of_run_eq ?_ hr
  simp only [decide_eq_true_eq]
  split_ifs with h
  · exact skip h
  · exact unexpected _

theorem identifier (role : String) (s : Reading) : TakesAt (identifier role) s := by
  apply bind_current
  cases hc : s.cursor.peek? 0 with
  | none => exact unexpected _
  | some t =>
    cases t with
    | identifier x => exact (skip hc).bind fun _ => .pure x
    | _ => exact unexpected _

/-- Where a nested reader gives a result its body has taken a token. -/
theorem of_guarded {ended r : Reader α} {body : Reader α → Reader α} (h : Guarded ended body)
    (hr : r = body r) (hended : ∀ s a t, ended.run s ≠ .ok a t) (s : Reading) : TakesAt r s := by
  intro a t ht
  have hforward : Forward r := fun u => (h.agrees_of_eq hr hr (Nat.le_refl u.unread.length)).2
  rw [hr] at ht
  cases hs : s.unread.length with
  | zero =>
    rw [← (h.ended r s (List.length_eq_zero_iff.1 hs)).1] at ht
    exact absurd ht (hended s a t)
  | succ n => exact Nat.lt_succ_of_le ((h.agrees (Nat.le_of_eq hs) (hforward.agrees n)).2 a t ht)

theorem typeExpr (s : Reading) : TakesAt typeExpr s :=
  of_guarded guarded_typeBody typeExpr_eq (fun _ _ _ h => by cases h) s

theorem expression (s : Reading) : TakesAt expression s :=
  of_guarded guarded_expressionBody expression_eq (fun _ _ _ h => by cases h) s

theorem chain (s : Reading) : TakesAt (chain Reader.expression) s :=
  (identifier _ s).bind fun _ => (Onward.build _).bind fun e =>
    closed_onward.extend (closed_onward.chainLink closed_onward.expression) e

theorem localDeclaration (isFinal : Bool) (s : Reading) : TakesAt (localDeclaration isFinal) s := by
  have h := closed_onward
  exact (typeExpr s).bind fun _ => h.bind (h.identifier _) fun _ => h.unlessAtEnd (h.tooFew _) fun _ =>
    h.bind h.initializer fun _ => h.bind (h.expect _) fun _ => h.bind (h.build _) fun _ => h.pure _

theorem chainStatement (s : Reading) : TakesAt chainStatement s := by
  apply bind_get
  cases s.cursor.get? 0 with
  | none => exact tooFew _
  | some l =>
    have h := closed_onward
    exact (chain s).bind (.afterChain (h.expect _) (h.expect _) h.expression l)

theorem statementBody (s : Reading) : TakesAt statementBody s := by
  have h := closed_onward
  apply bind_current
  cases hc : s.cursor.peek? 0 with
  | none => exact tooFew _
  | some t =>
    cases t with
    | keyword k =>
      cases k with
      | final => exact (skip hc).bind fun _ => h.localDeclaration true
      | «return» =>
        exact (skip hc).bind fun _ => h.bind h.expression fun _ => h.bind (h.expect _) fun _ => h.pure _
      | _ => exact ite (localDeclaration false s) (unexpected _)
    | symbol x =>
      cases x with
      | semicolon => exact (skip hc).bind fun _ => h.pure _
      | _ => exact unexpected _
    | identifier name =>
      exact behind (h.peek? 1) fun _ u => ite (localDeclaration false u) (chainStatement u)
    | _ => exact unexpected _

theorem statement (s : Reading) : TakesAt statement s :=
  (statementBody s).bind fun _ => (closed_onward.record _).bind fun _ => .pure _

theorem member (s : Reading) : TakesAt member s :=
  behind closed_onward.modifiers fun _ u => (typeExpr u).bind fun _ =>
    (closed_onward.identifier _).bind fun _ => closed_onward.memberRest _ _ _

/-- Whatever comes before the body of a class, the brace that begins it is there. -/
theorem classDecl (s : Reading) : TakesAt classDecl s := by
  have h := closed_onward
  refine behind h.package fun _ _ => behind h.imports fun _ _ => behind h.modifiers fun _ _ => ?_
  refine behind (h.expect _) fun _ _ => behind (h.identifier _) fun _ _ => ?_
  refine behind h.superclass fun _ _ => behind h.interfaces fun _ u => (expect _ u).bind fun _ => ?_
  exact h.bind h.members fun _ => h.bind (h.build _) fun _ => h.bind (h.build _) fun _ =>
    h.bind (h.build _) fun _ => h.pure _

end TakesAt
end Reader
end ClassText
