import ClassText.Proofs.Reader.Agreement
import ClassText.Proofs.Reader.Expr
import ClassText.Proofs.Reader.Rounds

/-! Two other ways to read expressions, and that they are no different. In the first each operator has
a tier of its own and asks for what stands to its right from the top; in the second operands wait on a
stack until the last one is read. -/
namespace ClassText.Reader

/-- One more use of the operator of a tier. What stands to its right is read from the top. -/
def tierStep (top : Reader Expr) (op : Operator) (left : Expr) : Reader (Option Expr) := do
  if ← accept (.symbol op.symbol) then
    return some (.binary op left (← top))
  else
    return none

/-- Tiers of operators, the loosest first: an operand of the tier below, and the tier's own operator as
long as it is seen. -/
def tiers (top : Reader Expr) : List Operator → Reader Expr
  | [] => operand top
  | op :: tighter => do extend (tierStep top op) (← tiers top tighter)

example (top : Reader Expr) : tiers top Operator.all = (do
    let difference ← (do
      let product ← (do
        let quotient ← (do extend (tierStep top .divide) (← operand top))
        extend (tierStep top .times) quotient)
      extend (tierStep top .minus) product)
    extend (tierStep top .plus) difference) := rfl

/-- Addition, subtraction, multiplication and division in tiers. -/
def fourTiers : Reader Expr := nested (tooFew [.expression]) fun top => tiers top Operator.all

/-- Behind a further operator the operand before it is put off, together with the operator. -/
def putOff (inner : Reader Expr) :
    List (Expr × Operator) × Expr → Reader (Option (List (Expr × Operator) × Expr))
  | (pending, last) => do
    match ← operation inner with
    | some (op, next) => return some ((last, op) :: pending, next)
    | none => return none

/-- What has been put off, latest first, takes the rest as its right side. -/
def takeUp (pending : List (Expr × Operator)) (last : Expr) : Expr :=
  pending.foldl (fun right p => .binary p.2 p.1 right) last

/-- An expression read with a stack of what has been put off. -/
def stacked (inner : Reader Expr) : Reader Expr := do
  if ← atEnd then
    tooFew [.expression]
  else
    let first ← operand inner
    let (pending, last) ← extend (putOff inner) ([], first)
    return takeUp pending last

variable {s : Reading} {n : Nat} {inner top : Reader Expr} {op : Operator}

theorem run_operation_none (h : (s.cursor.peek? 0).bind Operator.ofToken? = none) :
    (operation inner).run s = .ok none s := by
  unfold operation
  rw [run_bind_current, h]
  rfl

theorem run_operation_some (h : (s.cursor.peek? 0).bind Operator.ofToken? = some op) :
    (operation inner).run s = (do return some (op, ← operand inner) : Reader _).run s.advance := by
  unfold operation
  rw [run_bind_current, h]
  rfl

theorem run_operation_eq_none {t : Reading} (h : (operation inner).run s = .ok none t) :
    s = t ∧ (s.cursor.peek? 0).bind Operator.ofToken? = none := by
  cases hc : (s.cursor.peek? 0).bind Operator.ofToken? with
  | none =>
    rw [run_operation_none hc] at h
    cases h
    exact ⟨rfl,rfl⟩
  | some op =>
    rw [run_operation_some hc] at h
    obtain ⟨e, u, -, h⟩ := exists_of_run_bind h
    cases h

theorem consumes_operation (h : Forward inner) : Consumes (operation inner) := by
  intro s a t hr
  cases hc : (s.cursor.peek? 0).bind Operator.ofToken? with
  | none =>
    rw [run_operation_none hc] at hr
    cases hr
  | some op =>
    rw [run_operation_some hc] at hr
    exact Nat.lt_of_le_of_lt (h.operand.bind_pure _ _ _ _ hr)
      (Reading.length_advance_lt (Operator.bind_ofToken?_iff.1 hc))

/-- What stands behind an operand: nothing, or one of the given operators and what is read from the top. -/
def moreBehind (top : Reader Expr) (ops : List Operator) (first : Expr) : Reader Expr := do
  match ((← current?).bind Operator.ofToken?).filter (· ∈ ops) with
  | some op => skip; return .binary op first (← top)
  | none => return first

theorem run_moreBehind_none {ops : List Operator} {first : Expr}
    (h : ∀ op ∈ ops, (s.cursor.peek? 0).bind Operator.ofToken? ≠ some op) :
    (moreBehind top ops first).run s = .ok first s := by
  have hf : ((s.cursor.peek? 0).bind Operator.ofToken?).filter (· ∈ ops) = none := by
    simpa using fun op hop hmem => h op hmem hop
  unfold moreBehind
  rw [run_bind_current, hf]
  rfl

theorem run_moreBehind_some {ops : List Operator} {first : Expr}
    (h : (s.cursor.peek? 0).bind Operator.ofToken? = some op) (hop : op ∈ ops) :
    (moreBehind top ops first).run s =
      (do return .binary op first (← top) : Reader Expr).run s.advance := by
  have hf : ((s.cursor.peek? 0).bind Operator.ofToken?).filter (· ∈ ops) = some op := by
    simp [h, hop]
  unfold moreBehind
  rw [run_bind_current, hf]
  rfl

theorem expression_eq : expression = expressionBody expression := guarded_expressionBody.nested_eq

theorem forward_expression : Forward expression := fun s =>
  (guarded_expressionBody.agrees_of_eq expression_eq expression_eq (Nat.le_refl s.unread.length)).2

/-- An expression is an operand and, behind a further operator, an expression. -/
theorem expression_eq_operand :
    expression = operand expression >>= moreBehind expression Operator.all := by
  have hmore (first : Expr) : (collect (operation expression) >>= fun ops =>
      return Expr.rightNested first ops) = moreBehind expression Operator.all first := by
    refine ext fun s => ?_
    rw [collect_eq (consumes_operation forward_expression), bind_assoc, run_bind]
    cases hc : (s.cursor.peek? 0).bind Operator.ofToken? with
    | none =>
      rw [run_operation_none hc, run_moreBehind_none (by simp [hc])]
      rfl
    | some op =>
      rw [run_operation_some hc, run_moreBehind_some hc (by cases op <;> decide), ← run_bind]
      conv_rhs => rw [expression_eq, expressionBody]
      simp only [bind_assoc, pure_bind, Option.elim, map_eq_pure_bind, Expr.rightNested]
  conv_lhs => rw [expression_eq, expressionBody]
  simp only [hmore]

/-- What ends an expression is no operator. -/
theorem expression_settled {e : Expr} {t : Reading} (h : expression.run s = .ok e t) :
    (t.cursor.peek? 0).bind Operator.ofToken? = none := by
  rw [expression_eq] at h
  obtain ⟨first, u, -, h⟩ := exists_of_run_bind h
  obtain ⟨ops, v, hv, h⟩ := exists_of_run_bind h
  cases h
  obtain ⟨w, hw⟩ := exists_of_run_collect (consumes_operation forward_expression) hv
  obtain ⟨rfl, hnone⟩ := run_operation_eq_none hw
  exact hnone

theorem run_accept (t : Token) : (accept t).run s = (if decide (s.cursor.peek? 0 = some t) then
    .ok true s.advance else .ok false s) := by
  have hr : (accept t).run s = (do
      if decide (s.cursor.peek? 0 = some t) then skip
      return decide (s.cursor.peek? 0 = some t) : Reader Bool).run s := rfl
  rw [hr]
  cases decide (s.cursor.peek? 0 = some t) <;> rfl

theorem run_tierStep_none {left : Expr}
    (h : (s.cursor.peek? 0).bind Operator.ofToken? ≠ some op) :
    (tierStep top op left).run s = .ok none s := by
  have hc : s.cursor.peek? 0 ≠ some (.symbol op.symbol) := fun hc => h (Operator.bind_ofToken?_iff.2 hc)
  unfold tierStep
  rw [run_bind, run_accept, decide_eq_false hc]
  rfl

theorem run_tierStep_some {left : Expr}
    (h : (s.cursor.peek? 0).bind Operator.ofToken? = some op) :
    (tierStep top op left).run s =
      (do return some (.binary op left (← top)) : Reader _).run s.advance := by
  unfold tierStep
  rw [run_bind, run_accept, decide_eq_true (Operator.bind_ofToken?_iff.1 h)]
  rfl

theorem consumes_tierStep (h : Forward top) (left : Expr) : Consumes (tierStep top op left) := by
  intro s e t hr
  by_cases hc : (s.cursor.peek? 0).bind Operator.ofToken? = some op
  · rw [run_tierStep_some hc] at hr
    exact Nat.lt_of_le_of_lt (h.bind_pure _ _ _ _ hr)
      (Reading.length_advance_lt (Operator.bind_ofToken?_iff.1 hc))
  · rw [run_tierStep_none hc] at hr
    cases hr

theorem run_extend_tierStep_none {left : Expr}
    (h : (s.cursor.peek? 0).bind Operator.ofToken? ≠ some op) :
    (extend (tierStep expression op) left).run s = .ok left s := by
  rw [extend_eq (consumes_tierStep forward_expression), run_bind, run_tierStep_none h]
  rfl

/-- Behind what is read from the top no operator is left, so that no tier goes on there. -/
theorem expression_bind_extend (g : Expr → Expr) :
    (expression >>= fun right => extend (tierStep expression op) (g right)) =
      (do return g (← expression)) := by
  refine ext fun s => ?_
  rw [run_bind, run_bind]
  cases hr : expression.run s with
  | error e t => rfl
  | ok e t => exact run_extend_tierStep_none (by simp [expression_settled hr])

/-- A tier adds its operator to those that end the tiers below it. -/
theorem moreBehind_extend (tighter : List Operator) (first : Expr) :
    moreBehind expression tighter first >>= extend (tierStep expression op) =
      moreBehind expression (op :: tighter) first := by
  refine ext fun s => ?_
  rw [run_bind]
  cases hc : (s.cursor.peek? 0).bind Operator.ofToken? with
  | none =>
    rw [run_moreBehind_none (by simp [hc]), run_moreBehind_none (by simp [hc])]
    exact run_extend_tierStep_none (by simp [hc])
  | some o =>
    by_cases hmem : o ∈ tighter
    · -- A tier below has taken the operator with all that follows, and this tier finds nothing left.
      rw [run_moreBehind_some hc hmem, run_moreBehind_some hc (List.mem_cons_of_mem _ hmem),
        ← run_bind, bind_assoc]
      simp only [pure_bind, expression_bind_extend]
    · have hnot : ∀ p ∈ tighter, o ≠ p := fun p hp hop => hmem (hop ▸ hp)
      rw [run_moreBehind_none (by simpa [hc] using hnot)]
      dsimp only
      by_cases ho : o = op
      · subst ho
        rw [extend_eq (consumes_tierStep forward_expression), run_bind, run_tierStep_some hc,
          ← run_bind, bind_assoc, run_moreBehind_some hc List.mem_cons_self]
        simp only [pure_bind, Option.elim, expression_bind_extend]
      · rw [run_extend_tierStep_none (by simp [hc, ho]),
          run_moreBehind_none (by simpa [hc, ho] using hnot)]

/-- The tiers of some operators only differ from the whole in that other operators end them. -/
theorem tiers_eq_operand (ops : List Operator) :
    tiers expression ops = operand expression >>= moreBehind expression ops := by
  induction ops with
  | nil =>
    have hnone : moreBehind expression [] = pure :=
      funext fun first => ext fun s => run_moreBehind_none (by simp)
    rw [tiers, hnone, bind_pure]
  | cons op tighter ih =>
    rw [tiers, ih, bind_assoc]
    simp only [moreBehind_extend]

theorem agrees_tierStep {top' : Reader Expr} (hs : s.unread.length ≤ n)
    (ih : ∀ u, u.unread.length ≤ n → Agrees n top top' u) (left : Expr) :
    Agrees n (tierStep top op left) (tierStep top' op left) s := by
  refine (Agrees.accept hs _).bind fun there u hu => ?_
  cases there with
  | true => exact (ih u hu).bind fun e _ hv => Agrees.pure hv _
  | false => exact Agrees.pure hu none

theorem agrees_tiers {top' : Reader Expr} (hs : s.unread.length ≤ n + 1)
    (ih : ∀ u, u.unread.length ≤ n → Agrees n top top' u) (ops : List Operator) :
    Agrees n (tiers top ops) (tiers top' ops) s := by
  induction ops with
  | nil => exact Agrees.operand hs ih
  | cons op tighter htighter =>
    exact htighter.bind fun first _ hu => Agrees.extend (fun e _ hv => agrees_tierStep hv ih e) hu first

theorem run_tiers_ended (hs : s.unread = []) (ops : List Operator) :
    (tiers top ops).run s = (tooFew [.expression]).run s := by
  induction ops with
  | nil => exact run_operand_ended hs
  | cons op tighter ih =>
    rw [tiers, run_bind, ih]
    rfl

theorem guarded_tiers (ops : List Operator) :
    Guarded (tooFew [.expression]) fun top => tiers top ops :=
  ⟨fun _ _ hs => agrees_ended (run_tiers_ended hs ops), fun hs ih => agrees_tiers hs ih ops⟩

theorem putOff_eq (pending : List (Expr × Operator)) (last : Expr) :
    putOff inner (pending, last) =
      (do return (← operation inner).map fun p => ((last, p.1) :: pending, p.2)) := by
  refine bind_congr fun o => ?_
  cases o <;> rfl

/-- What is put off while the rest is read is nested with it afterwards. -/
theorem putOff_takeUp (k : Nat) (pending : List (Expr × Operator)) (last : Expr) :
    (do let p ← extendWithin (putOff inner) k (pending, last); return takeUp p.1 p.2) =
      (do return takeUp pending (.rightNested last (← collectWithin (operation inner) k))) := by
  induction k generalizing pending last with
  | zero => rfl
  | succ k ih =>
    rw [extendWithin_succ, collectWithin_succ, putOff_eq]
    simp only [bind_assoc, pure_bind]
    refine bind_congr fun o => ?_
    cases o with
    | none => rfl
    | some p => simpa [takeUp, Expr.rightNested] using ih ((last, p.1) :: pending) p.2

theorem expressionBody_eq_stacked : expressionBody = stacked := by
  refine funext fun inner => ext fun s => ?_
  have hr : (stacked inner).run s = (if (s.cursor.peek? 0).isNone then tooFew [.expression] else do
      let first ← operand inner
      let p ← extend (putOff inner) ([], first)
      return takeUp p.1 p.2 : Reader Expr).run s := rfl
  rw [hr]
  split_ifs with hs
  · exact run_expressionBody_ended (by simpa [Reading.peek?_zero_eq_none_iff] using hs)
  · unfold expressionBody
    rw [run_bind, run_bind]
    cases (operand inner).run s with
    | error e u => rfl
    | ok first u =>
      exact congrArg (·.run u) (putOff_takeUp (u.unread.length + 1) [] first).symm

end ClassText.Reader
