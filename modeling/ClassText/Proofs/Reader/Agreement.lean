import ClassText.Proofs.Reader.Rounds
import ClassText.Reader.Expr
import ClassText.Reader.TypeExpr

/-! Two readers compared at the same tokens. What a reader contains is only asked about fewer tokens
than are unread where it begins, so that readers which agree on those may stand for each other. A nested
reader is therefore the only solution of its equation. -/
namespace ClassText

namespace Reading

theorem length_advance_le (s : Reading) : s.advance.unread.length ≤ s.unread.length := by
  obtain ⟨hc, hu⟩ | ⟨t, -, hu⟩ := s.current_cases
  · have ha : s.cursor.ahead = [] := by simpa [TokenCursor.peek?, TokenCursor.get?] using hc
    simp [Reading.unread, advance, TokenCursor.advance, ha]
  · rw [hu, List.length_append]
    omega

theorem length_advance_lt {s : Reading} {t : Token} (h : s.cursor.peek? 0 = some t) :
    s.advance.unread.length < s.unread.length := by
  obtain ⟨hc, -⟩ | ⟨u, -, hu⟩ := s.current_cases
  · rw [h] at hc
    cases hc
  · have hpos := List.length_pos_iff.2 u.parts_ne_nil
    rw [hu, List.length_append]
    omega

end Reading

namespace Reader

section Opened

/-! The readers that contain themselves, each with what it asks next as an argument. -/

/-- A type, given a reader for those that begin with a name. -/
def typeWith (named : Reader TypeExpr) : Reader TypeExpr := do
  let element ← (do
    match ← current? with
    | none => tooFew [.type]
    | some (.identifier _) => named
    | some (.keyword k) =>
      match Primitive.ofKeyword? k with
      | some p => skip; return .primitive p
      | none => unexpected .type
    | some _ => unexpected .type)
  extend arrayBrackets element

/-- One more link of a chain, given a reader for the arguments behind a parenthesis. -/
def chainLinkWith (given : Reader (List Expr)) (base : Expr) : Reader (Option Expr) := do
  let dotted ← sees (.symbol .dot)
  match ← peek? 1 with
  | some (.identifier _) =>
    if dotted then
      skip
      let name ← identifier Role.memberName
      if ← accept (.symbol .leftParen) then
        return some (← build (Expr.checkCall base name (← given)))
      else
        return some (← build (Expr.checkField base name))
    else return none
  | _ => return none

def chainWith (given : Reader (List Expr)) : Reader Expr := do
  let name ← identifier Role.variableName
  extend (chainLinkWith given) (← build (Expr.checkVariable name))

/-- An operand, given readers for chains and for what stands in parentheses. -/
def operandWith (chain inner : Reader Expr) : Reader Expr := do
  match ← current? with
  | none => tooFew [.expression]
  | some (.integer value isLong) => skip; return .constant value isLong
  | some (.identifier _) => chain
  | some (.symbol .leftParen) =>
    skip
    let e ← inner
    expect (.symbol .rightParen)
    return .bracket e
  | some _ => unexpected .expression

/-- One more operator, given a reader for the operand behind it. -/
def operationWith (operand : Reader Expr) : Reader (Option (Operator × Expr)) := do
  match (← current?).bind Operator.ofToken? with
  | some op => skip; return some (op, ← operand)
  | none => return none

def expressionWith (operand : Reader Expr) : Reader Expr := do
  let first ← operand
  return .rightNested first (← collect (operationWith operand))

theorem typeBody_eq_typeWith (argument : Reader TypeExpr) :
    typeBody argument = typeWith (namedType argument) := rfl

theorem chain_eq_chainWith (inner : Reader Expr) : chain inner = chainWith (arguments inner) := rfl

theorem operand_eq_operandWith (inner : Reader Expr) :
    operand inner = operandWith (chain inner) inner := rfl

theorem expressionBody_eq_expressionWith (inner : Reader Expr) :
    expressionBody inner = expressionWith (operand inner) := rfl

end Opened

variable {α β : Type} {s : Reading} {n : Nat}

/-- At `s`, two readers give the same answer, and with a result at most `n` tokens are left. -/
def Agrees (n : Nat) (r r' : Reader α) (s : Reading) : Prop :=
  r.run s = r'.run s ∧ ∀ a t, r.run s = .ok a t → t.unread.length ≤ n

theorem run_bind_current (f : Option Token → Reader α) :
    (current? >>= f).run s = (f (s.cursor.peek? 0)).run s := rfl

theorem run_bind_peek (f : Option Token → Reader α) (k : Nat) :
    (peek? k >>= f).run s = (f (s.cursor.peek? k)).run s := rfl

theorem run_bind_sees (f : Bool → Reader α) (t : Token) :
    (sees t >>= f).run s = (f (s.cursor.peek? 0 = some t)).run s := rfl

theorem run_unexpected_ne_ok (e : Expected) (s : Reading) (a : α) (t : Reading) :
    (unexpected e : Reader α).run s ≠ .ok a t := by
  have hr : (unexpected e : Reader α).run s = (refuse e (s.cursor.get? 0)).run s := rfl
  rw [hr]
  cases s.cursor.get? 0 <;> exact fun h => by cases h

namespace Agrees

theorem mono {r r' : Reader α} {m : Nat} (h : Agrees n r r' s) (hm : n ≤ m) : Agrees m r r' s :=
  ⟨h.1, fun a t hr => Nat.le_trans (h.2 a t hr) hm⟩

theorem left_trans {r r' r'' : Reader α} (h : Agrees n r r' s) (h' : Agrees n r r'' s) :
    Agrees n r' r'' s := by
  unfold Agrees
  rw [← h.1]
  exact h'

theorem left {r r' : Reader α} (h : Agrees n r r' s) : Agrees n r r s := ⟨rfl, h.2⟩

theorem of_run_eq {r₁ r₁' r₂ r₂' : Reader α} (h : Agrees n r₂ r₂' s) (hr : r₁.run s = r₂.run s)
    (hr' : r₁'.run s = r₂'.run s) : Agrees n r₁ r₁' s := by
  unfold Agrees
  rw [hr, hr']
  exact h

theorem pure (hs : s.unread.length ≤ n) (a : α) : Agrees n (pure a) (pure a) s := by
  refine ⟨rfl, fun b t ht => ?_⟩
  cases ht
  exact hs

theorem bind {x x' : Reader α} {f f' : α → Reader β} {m : Nat} (hx : Agrees m x x' s)
    (hf : ∀ a u, u.unread.length ≤ m → Agrees n (f a) (f' a) u) :
    Agrees n (x >>= f) (x' >>= f') s := by
  unfold Agrees
  rw [run_bind, run_bind, ← hx.1]
  cases hr : x.run s with
  | ok a u => exact hf a u (hx.2 a u hr)
  | error e u => exact ⟨rfl, fun _ _ h => by cases h⟩

theorem bind_current {f f' : Option Token → Reader α}
    (h : Agrees n (f (s.cursor.peek? 0)) (f' (s.cursor.peek? 0)) s) :
    Agrees n (current? >>= f) (current? >>= f') s :=
  h.of_run_eq rfl rfl

theorem bind_peek {f f' : Option Token → Reader α} (k : Nat)
    (h : Agrees n (f (s.cursor.peek? k)) (f' (s.cursor.peek? k)) s) :
    Agrees n (peek? k >>= f) (peek? k >>= f') s :=
  h.of_run_eq rfl rfl

theorem bind_sees {f f' : Bool → Reader α} (t : Token)
    (h : ∀ b, Agrees n (f b) (f' b) s) : Agrees n (sees t >>= f) (sees t >>= f') s :=
  (h (s.cursor.peek? 0 = some t)).of_run_eq rfl rfl

/-- A reader that gives no result leaves no tokens behind one. -/
theorem refused {r : Reader α} (h : ∀ a t, r.run s ≠ .ok a t) : Agrees n r r s :=
  ⟨rfl, fun a t hr => absurd hr (h a t)⟩

theorem tooFew (es : List Expected) : Agrees n (tooFew es : Reader α) (tooFew es) s :=
  refused fun _ _ h => by cases h

theorem unexpected (e : Expected) : Agrees n (unexpected e : Reader α) (unexpected e) s :=
  refused (run_unexpected_ne_ok e s)

theorem build (hs : s.unread.length ≤ n) (made : Except Fault α) :
    Agrees n (build made) (build made) s := by
  cases made with
  | ok a => exact pure hs a
  | error f => exact refused fun _ _ h => by cases h

theorem skip (hs : s.advance.unread.length ≤ n) : Agrees n skip skip s := by
  refine ⟨rfl, fun a t ht => ?_⟩
  cases ht
  exact hs

theorem accept (hs : s.unread.length ≤ n) (t : Token) : Agrees n (accept t) (accept t) s := by
  apply bind_sees
  intro there
  cases there with
  | true => exact (skip (Nat.le_trans s.length_advance_le hs)).bind fun _ _ hu => pure hu true
  | false => exact pure hs false

theorem expect (hs : s.unread.length ≤ n) (t : Token) : Agrees n (expect t) (expect t) s := by
  apply bind_sees
  intro there
  cases there with
  | true => exact skip (Nat.le_trans s.length_advance_le hs)
  | false => exact unexpected _

/-- An identifier takes a token from those that are unread. -/
theorem identifier (hs : s.unread.length ≤ n + 1) (role : String) :
    Agrees n (identifier role) (identifier role) s := by
  apply bind_current
  cases hc : s.cursor.peek? 0 with
  | none => exact unexpected _
  | some t =>
    cases t with
    | identifier x =>
      have hlt := Reading.length_advance_lt hc
      exact (skip (n := n) (by omega)).bind fun _ _ hu => pure hu x
    | _ => exact unexpected _

theorem collectWithin {step step' : Reader (Option α)}
    (h : ∀ u, u.unread.length ≤ n → Agrees n step step' u) (k : Nat) (hs : s.unread.length ≤ n) :
    Agrees n (collectWithin step k) (collectWithin step' k) s := by
  induction k generalizing s with
  | zero => exact pure hs []
  | succ k ih =>
    refine (h s hs).bind fun o u hu => ?_
    cases o with
    | none => exact pure hu []
    | some a => exact (ih hu).bind fun as _ hv => pure hv (a :: as)

theorem collect {step step' : Reader (Option α)}
    (h : ∀ u, u.unread.length ≤ n → Agrees n step step' u) (hs : s.unread.length ≤ n) :
    Agrees n (collect step) (collect step') s :=
  (collectWithin h (s.unread.length + 1) hs).of_run_eq rfl rfl

theorem extendWithin {step step' : α → Reader (Option α)}
    (h : ∀ a u, u.unread.length ≤ n → Agrees n (step a) (step' a) u) (k : Nat)
    (hs : s.unread.length ≤ n) (a : α) :
    Agrees n (extendWithin step k a) (extendWithin step' k a) s := by
  induction k generalizing s a with
  | zero => exact pure hs a
  | succ k ih =>
    refine (h a s hs).bind fun o u hu => ?_
    cases o with
    | none => exact pure hu a
    | some b => exact ih hu b

theorem extend {step step' : α → Reader (Option α)}
    (h : ∀ a u, u.unread.length ≤ n → Agrees n (step a) (step' a) u) (hs : s.unread.length ≤ n)
    (a : α) : Agrees n (extend step a) (extend step' a) s :=
  (extendWithin h (s.unread.length + 1) hs a).of_run_eq rfl rfl

theorem eachBehind {item item' : Reader α} (ih : ∀ u, u.unread.length ≤ n → Agrees n item item' u)
    (t : Token) (hs : s.unread.length ≤ n) : Agrees n (eachBehind t item) (eachBehind t item') s := by
  refine collect (fun u hu => (accept hu t).bind fun there v hv => ?_) hs
  cases there with
  | true => exact (ih v hv).bind fun a _ hw => pure hw (some a)
  | false => exact pure hv none

section Types

theorem arrayBrackets (hs : s.unread.length ≤ n) (element : TypeExpr) :
    Agrees n (arrayBrackets element) (arrayBrackets element) s := by
  refine (accept hs _).bind fun there u hu => ?_
  cases there with
  | true => exact (expect hu _).bind fun _ _ hv => pure hv (some element.array)
  | false => exact pure hu none

/-- Only the rest of a type that begins with a name is asked for where the type begins. -/
theorem typeWith {named named' : Reader TypeExpr} (hs : s.unread.length ≤ n + 1)
    (ih : Agrees n named named' s) : Agrees n (typeWith named) (typeWith named') s := by
  refine bind ?_ fun element _ hu => extend (fun e _ hv => arrayBrackets hv e) hu element
  apply bind_current
  cases hc : s.cursor.peek? 0 with
  | none => exact tooFew _
  | some t =>
    have hlt := Reading.length_advance_lt hc
    cases t with
    | identifier x => exact ih
    | keyword k =>
      dsimp only
      cases Primitive.ofKeyword? k with
      | none => exact unexpected _
      | some p => exact (skip (n := n) (by omega)).bind fun _ _ hu => pure hu (TypeExpr.primitive p)
    | _ => exact unexpected _

end Types

section Expressions

variable {inner inner' : Reader Expr}

theorem arguments (hs : s.unread.length ≤ n)
    (ih : ∀ u, u.unread.length ≤ n → Agrees n inner inner' u) :
    Agrees n (arguments inner) (arguments inner') s := by
  apply bind_sees
  intro closed
  cases closed with
  | true => exact (expect hs _).bind fun _ _ hu => pure hu []
  | false => exact (ih s hs).bind fun first _ hu => (eachBehind ih _ hu).bind fun others _ hv =>
      (expect hv _).bind fun _ _ hw => pure hw (first :: others)

theorem chainLinkWith {given given' : Reader (List Expr)} (hs : s.unread.length ≤ n)
    (ih : ∀ u, u.unread.length ≤ n → Agrees n given given' u) (base : Expr) :
    Agrees n (chainLinkWith given base) (chainLinkWith given' base) s := by
  apply bind_sees
  intro dotted
  apply bind_peek
  cases s.cursor.peek? 1 with
  | none => exact pure hs none
  | some t =>
    cases t with
    | identifier x =>
      cases dotted with
      | false => exact pure hs none
      | true =>
        refine (skip (Nat.le_trans s.length_advance_le hs)).bind fun _ _ hu =>
          (identifier (Nat.le_succ_of_le hu) _).bind fun name v hv =>
          (accept hv _).bind fun there w hw => ?_
        cases there with
        | true => exact (ih w hw).bind fun args _ hx =>
            (build hx _).bind fun e _ hy => pure hy (some e)
        | false => exact (build hw _).bind fun e _ hx => pure hx (some e)
    | _ => exact pure hs none

theorem chainWith {given given' : Reader (List Expr)} (hs : s.unread.length ≤ n + 1)
    (ih : ∀ u, u.unread.length ≤ n → Agrees n given given' u) :
    Agrees n (chainWith given) (chainWith given') s :=
  (identifier hs _).bind fun name _ hu => (build hu (Expr.checkVariable name)).bind fun e _ hv =>
    extend (fun base _ hw => chainLinkWith hw ih base) hv e

/-- An operand takes a token before it asks what it contains, unless it is a chain. -/
theorem operandWith {chain chain' : Reader Expr} (hs : s.unread.length ≤ n + 1)
    (hchain : Agrees n chain chain' s) (ih : ∀ u, u.unread.length ≤ n → Agrees n inner inner' u) :
    Agrees n (operandWith chain inner) (operandWith chain' inner') s := by
  apply bind_current
  cases hc : s.cursor.peek? 0 with
  | none => exact tooFew _
  | some t =>
    have hlt := Reading.length_advance_lt hc
    have hle : s.advance.unread.length ≤ n := by omega
    cases t with
    | integer value isLong => exact (skip hle).bind fun _ _ hu => pure hu _
    | identifier x => exact hchain
    | symbol x =>
      cases x with
      | leftParen => exact (skip hle).bind fun _ _ hu => (ih _ hu).bind fun e v hv =>
          (expect hv _).bind fun _ _ hw => pure hw (Expr.bracket e)
      | _ => exact unexpected _
    | _ => exact unexpected _

theorem operand (hs : s.unread.length ≤ n + 1)
    (ih : ∀ u, u.unread.length ≤ n → Agrees n inner inner' u) :
    Agrees n (operand inner) (operand inner') s :=
  operandWith hs (chainWith hs fun _ hu => arguments hu ih) ih

theorem operationWith {operand operand' : Reader Expr} (hs : s.unread.length ≤ n)
    (ih : ∀ u, u.unread.length ≤ n → Agrees n operand operand' u) :
    Agrees n (operationWith operand) (operationWith operand') s := by
  apply bind_current
  cases (s.cursor.peek? 0).bind Operator.ofToken? with
  | none => exact pure hs none
  | some op => exact (skip (Nat.le_trans s.length_advance_le hs)).bind fun _ u hu =>
      (ih u hu).bind fun e _ hv => pure hv (some (op,e))

/-- The first operand is asked for where the expression begins, and the others behind it. -/
theorem expressionWith {operand operand' : Reader Expr} (hfirst : Agrees n operand operand' s)
    (ih : ∀ u, u.unread.length ≤ n → Agrees n operand operand' u) :
    Agrees n (expressionWith operand) (expressionWith operand') s :=
  hfirst.bind fun first _ hu => (collect (fun _ hv => operationWith hv ih) hu).bind
    fun ops _ hv => pure hv (Expr.rightNested first ops)

theorem expressionBody (hs : s.unread.length ≤ n + 1)
    (ih : ∀ u, u.unread.length ≤ n → Agrees n inner inner' u) :
    Agrees n (expressionBody inner) (expressionBody inner') s :=
  expressionWith (operand hs ih) fun _ hu => operand (Nat.le_succ_of_le hu) ih

end Expressions

end Agrees

variable {inner : Reader Expr}

/-- What is read never gives tokens back. -/
def Forward (r : Reader α) : Prop := ∀ s a t, r.run s = .ok a t → t.unread.length ≤ s.unread.length

theorem Forward.agrees {r : Reader α} (h : Forward r) (n : Nat) :
    ∀ u, u.unread.length ≤ n → Agrees n r r u :=
  fun u hu => ⟨rfl, fun a t hr => Nat.le_trans (h u a t hr) hu⟩

theorem Forward.operand (h : Forward inner) : Forward (Reader.operand inner) := fun u =>
  (Agrees.operand (Nat.le_succ _) (h.agrees u.unread.length)).2

theorem Forward.bind_pure {r : Reader α} (h : Forward r) (f : α → β) :
    Forward (do return f (← r)) := by
  intro s b t hr
  obtain ⟨a, u, hu, hr⟩ := exists_of_run_bind hr
  cases hr
  exact h s a t hu

/-- A body takes a token before it asks what it contains, and answers `ended` where there is none. -/
structure Guarded (ended : Reader α) (body : Reader α → Reader α) : Prop where
  ended : ∀ r s, s.unread = [] → Agrees 0 ended (body r) s
  agrees : ∀ {n s r r'}, s.unread.length ≤ n + 1 →
    (∀ u, u.unread.length ≤ n → Agrees n r r' u) → Agrees n (body r) (body r') s

namespace Guarded

variable {ended : Reader α} {body : Reader α → Reader α}

theorem agrees_nestedWithin_of_empty (h : Guarded ended body) (k : Nat) (hs : s.unread = []) :
    Agrees 0 ended (nestedWithin ended body k) s := by
  cases k with
  | zero => exact (h.ended ended s hs).left
  | succ k => exact h.ended _ s hs

/-- On as many tokens as two bounds allow, the depth is bounded by neither. -/
theorem agrees_nestedWithin (h : Guarded ended body) {k m : Nat} (hk : n ≤ k) (hm : n ≤ m)
    (hs : s.unread.length ≤ n) :
    Agrees n (nestedWithin ended body k) (nestedWithin ended body m) s := by
  induction n generalizing s k m with
  | zero =>
    have hnil := List.length_eq_zero_iff.1 (Nat.le_zero.1 hs)
    exact (h.agrees_nestedWithin_of_empty k hnil).left_trans (h.agrees_nestedWithin_of_empty m hnil)
  | succ n ih =>
    obtain ⟨k, rfl⟩ := Nat.exists_eq_add_of_le' hk
    obtain ⟨m, rfl⟩ := Nat.exists_eq_add_of_le' hm
    have inside : ∀ u, u.unread.length ≤ n →
        Agrees n (nestedWithin ended body (k + n)) (nestedWithin ended body (m + n)) u :=
      fun u hu => ih (by omega) (by omega) hu
    exact (h.agrees hs inside).mono (Nat.le_succ n)

/-- A nested reader solves the equation by which it is described. -/
theorem nested_eq (h : Guarded ended body) :
    nested ended body = body (nested ended body) := by
  refine ext fun s => ?_
  -- Outside the depth is bounded by what is unread at `s`, inside by what is unread there.
  have hrun (u : Reading) : (nested ended body).run u =
      (nestedWithin ended body u.unread.length).run u := rfl
  rw [hrun]
  cases hs : s.unread.length with
  | zero => exact (h.ended _ s (List.length_eq_zero_iff.1 hs)).1
  | succ n =>
    have inside : ∀ u, u.unread.length ≤ n →
        Agrees n (nestedWithin ended body n) (nested ended body) u := fun u hu =>
      ((h.agrees_nestedWithin hu (Nat.le_refl _) (Nat.le_refl _)).mono hu).of_run_eq rfl (hrun u)
    exact (h.agrees (Nat.le_of_eq hs) inside).1

theorem agrees_of_eq (h : Guarded ended body) {r r' : Reader α} (hr : r = body r)
    (hr' : r' = body r') (hs : s.unread.length ≤ n) : Agrees n r r' s := by
  induction n generalizing s with
  | zero =>
    have hnil := List.length_eq_zero_iff.1 (Nat.le_zero.1 hs)
    have both := (h.ended r s hnil).left_trans (h.ended r' s hnil)
    rwa [← hr, ← hr'] at both
  | succ n ih =>
    have both := h.agrees hs fun u hu => ih hu
    rw [← hr, ← hr'] at both
    exact both.mono (Nat.le_succ n)

/-- With more levels than tokens are unread, it does not matter what is answered below the last one. -/
theorem agrees_nestedWithin_of_lt (h : Guarded ended body) {r : Reader α} (hr : r = body r)
    (below : Reader α) {k : Nat} (hn : n < k) (hs : s.unread.length ≤ n) :
    Agrees n r (nestedWithin below body k) s := by
  induction k generalizing s n with
  | zero => omega
  | succ k ih =>
    rw [hr]
    cases n with
    | zero =>
      have hnil := List.length_eq_zero_iff.1 (Nat.le_zero.1 hs)
      exact (h.ended r s hnil).left_trans (h.ended _ s hnil)
    | succ n => exact (h.agrees hs fun u hu => ih (by omega) hu).mono (Nat.le_succ n)

/-- There is no other solution. -/
theorem eq_nested_iff (h : Guarded ended body) {r : Reader α} :
    r = body r ↔ r = nested ended body := by
  constructor
  · exact fun hr => ext fun s => (h.agrees_of_eq hr h.nested_eq (Nat.le_refl s.unread.length)).1
  · rintro rfl
    exact h.nested_eq

end Guarded

/-- The end of the input is where a reader of expressions ends that finds no token there. -/
theorem agrees_ended {r : Reader Expr} (h : r.run s = (tooFew [.expression]).run s) :
    Agrees 0 (tooFew [.expression]) r s :=
  (Agrees.tooFew _).of_run_eq rfl h

theorem run_operandWith_ended {chain inner : Reader Expr} (hs : s.unread = []) :
    (operandWith chain inner).run s = (tooFew [.expression]).run s := by
  unfold operandWith
  rw [run_bind_current, s.peek?_zero_eq_none_iff.2 hs]

theorem run_operand_ended {inner : Reader Expr} (hs : s.unread = []) :
    (operand inner).run s = (tooFew [.expression]).run s :=
  run_operandWith_ended hs

theorem run_expressionBody_ended {inner : Reader Expr} (hs : s.unread = []) :
    (expressionBody inner).run s = (tooFew [.expression]).run s := by
  unfold expressionBody
  rw [run_bind, run_operand_ended hs]
  rfl

theorem guarded_expressionBody : Guarded (tooFew [.expression]) expressionBody :=
  ⟨fun _ _ hs => agrees_ended (run_expressionBody_ended hs), Agrees.expressionBody⟩

end Reader
end ClassText
