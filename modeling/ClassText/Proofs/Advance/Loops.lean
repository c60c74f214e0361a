import ClassText.Proofs.Advance.Taking

/-! The loops of the readers. Every round but the last one takes a token, so that each round starts with
less to be read than all before it, and the bound on rounds is never what ends them. -/
namespace ClassText.Reader

variable {α : Type} {s : Reading}

/-- A round of a loop that starts at `s` gives something, and the next round starts at `u`. -/
def Round (step : Reader (Option α)) (s u : Reading) : Prop := ∃ a, step.run s = .ok (some a) u

/-- The same for a loop that hands a result from round to round. -/
def RoundOn (step : α → Reader (Option α)) : α × Reading → α × Reading → Prop
  | (a, s), (b, u) => (step a).run s = .ok (some b) u

/-- `loop` collects what `step` gives, for as many rounds as it gives something. -/
structure Collects (loop : Reader (List α)) (step : Reader (Option α)) : Prop where
  eq : loop = step >>= fun o => o.elim (pure []) fun a => (a :: ·) <$> loop
  later : ∀ {s u}, Relation.TransGen (Round step) s u → u.remaining < s.remaining
  enough : ∀ {n s}, s.remaining < n → (collectWithin step n).run s = loop.run s

/-- `loop` extends a result by `step`, for as many rounds as it gives a further one. -/
structure ExtendsBy (loop : α → Reader α) (step : α → Reader (Option α)) : Prop where
  eq : ∀ a, loop a = step a >>= fun o => o.elim (pure a) loop
  later : ∀ {p q}, Relation.TransGen (RoundOn step) p q → q.2.remaining < p.2.remaining
  enough : ∀ {n a s}, s.remaining < n → (extendWithin step n a).run s = (loop a).run s

theorem Consumes.collects {step : Reader (Option α)} (h : Consumes step) :
    Collects (collect step) step where
  eq := collect_eq h
  later := of_transGen fun hr => by
    obtain ⟨a, ha⟩ := hr
    simpa only [Reading.length_unread] using h _ a _ ha
  enough hn := run_collectWithin h (Reading.length_unread _ ▸ hn) (Nat.lt_succ_self _)

theorem Consumes.extendsBy {step : α → Reader (Option α)} (h : ∀ a, Consumes (step a)) :
    ExtendsBy (extend step) step where
  eq := extend_eq h
  later := of_transGen (f := fun p : α × Reading => p.2.remaining) fun {p q : α × Reading} hr => by
    simpa only [Reading.length_unread] using h p.1 p.2 q.1 q.2 hr
  enough hn := run_extendWithin h (Reading.length_unread _ ▸ hn) (Nat.lt_succ_self _) _

section Steps

/-- What follows a token that is there, if anything, has taken this token. -/
theorem consumes_ifAccept {A : Reader (Option α)} (t : Token) (hA : Forward A) :
    Consumes (do if ← accept t then A else return none) := fun s a u hr => by
  obtain ⟨there, v, hv, hr⟩ := exists_of_run_bind hr
  rw [run_accept] at hv
  split_ifs at hv with hc
  · cases hv
    exact Nat.lt_of_le_of_lt (hA _ _ _ hr) (Reading.length_advance_lt (of_decide_eq_true hc))
  · cases hv
    cases hr

theorem consumes_oneBehind {item : Reader α} (t : Token) (h : Onward item) :
    Consumes (oneBehind t item) :=
  consumes_ifAccept t (h.forward.bind_pure some)

theorem consumes_arrayBrackets (element : TypeExpr) : Consumes (arrayBrackets element) :=
  consumes_ifAccept _ ((closed_onward.expect _).forward.bind_pure fun _ => some element.array)

theorem consumes_itemOrBrace {ended : Reader Unit} {item : Reader α} (he : Onward ended)
    (hi : ∀ s, TakesAt item s) : Consumes (itemOrBrace ended item) := by
  have hrest (s : Reading) (a : α) (u : Reading) (hr : (do
      if ← accept (.symbol .rightBrace) then return none else return some (← item)
      : Reader (Option α)).run s = .ok (some a) u) : u.unread.length < s.unread.length := by
    obtain ⟨there, v, hv, hr⟩ := exists_of_run_bind hr
    cases there with
    | true => cases hr
    | false =>
      obtain ⟨_, _, hw, hr⟩ := exists_of_run_bind hr
      cases hr
      exact Nat.lt_of_lt_of_le (hi _ _ _ hw) ((closed_onward.accept _).of_ok hv).length_le
  intro s a u hr
  obtain ⟨atEnd, v, hv, hr⟩ := exists_of_run_bind hr
  cases hv
  split_ifs at hr
  · obtain ⟨_, w, hw, hr⟩ := exists_of_run_bind hr
    exact Nat.lt_of_lt_of_le (hrest w a u hr) (he.of_ok hw).length_le
  · exact hrest s a u hr

theorem consumes_modifier? : Consumes modifier? := fun s a u hr => by
  unfold modifier? at hr
  rw [run_bind_current] at hr
  cases hc : s.cursor.peek? 0 with
  | none =>
    rw [hc] at hr
    cases hr
  | some t =>
    rw [hc] at hr
    cases t with
    | keyword k =>
      dsimp only at hr
      cases hk : Modifier.ofKeyword? k with
      | none =>
        rw [hk] at hr
        cases hr
      | some m =>
        rw [hk] at hr
        exact ((TakesAt.skip hc).bind fun _ => .pure (some m)) _ _ hr
    | _ => cases hr

/-- A link takes its dot. -/
theorem consumes_chainLink (base : Expr) : Consumes (chainLink expression base) := fun s a u hr => by
  unfold chainLink at hr
  rw [run_bind_sees, run_bind_peek] at hr
  cases hnext : s.cursor.peek? 1 with
  | none =>
    rw [hnext] at hr
    cases hr
  | some t =>
    rw [hnext] at hr
    cases t with
    | identifier x =>
      dsimp only at hr
      split_ifs at hr with hc
      · exact ((TakesAt.skip (of_decide_eq_true hc)).bind fun _ =>
          closed_onward.linkBehindDot closed_onward.expression base) _ _ hr
      · cases hr
    | _ => cases hr

end Steps
end ClassText.Reader
