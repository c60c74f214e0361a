import ClassText.Proofs.Reader.Phrase
import ClassText.Reader.Repetition

/-! The equations of repetition. Where every round of a step takes a token, the bound on rounds is never
what ends them, and a repetition is its first round and the repetition of what follows. -/
namespace ClassText.Reader

variable {α β : Type} {s : Reading}

theorem ext {r r' : Reader α} (h : ∀ s, r.run s = r'.run s) : r = r' := funext h

/-- A reader behind another gives a result only where both do. -/
theorem exists_of_run_bind {x : Reader α} {f : α → Reader β} {b : β} {t : Reading}
    (h : (x >>= f).run s = .ok b t) : ∃ a u, x.run s = .ok a u ∧ (f a).run u = .ok b t := by
  rw [run_bind] at h
  cases hx : x.run s with
  | ok a u =>
    rw [hx] at h
    exact ⟨a, u, rfl, h⟩
  | error e u =>
    rw [hx] at h
    cases h

/-- An item behind the given token; nothing where the token is missing. -/
def oneBehind (t : Token) (item : Reader α) : Reader (Option α) := do
  if ← accept t then return some (← item) else return none

/-- An item; nothing at the closing brace, which is consumed. At the end of the input there is neither. -/
def itemOrBrace (ended : Reader Unit) (item : Reader α) : Reader (Option α) := do
  if ← atEnd then ended
  if ← accept (.symbol .rightBrace) then return none else return some (← item)

/-- A step that takes at least one token whenever it gives something. -/
def Consumes (step : Reader (Option α)) : Prop :=
  ∀ s a t, step.run s = .ok (some a) t → t.unread.length < s.unread.length

theorem collectWithin_succ (step : Reader (Option α)) (k : Nat) : collectWithin step (k + 1) =
    step >>= fun o => o.elim (pure []) fun a => (a :: ·) <$> collectWithin step k := by
  refine bind_congr fun o => ?_
  cases o <;> rfl

theorem extendWithin_succ (step : α → Reader (Option α)) (k : Nat) (a : α) :
    extendWithin step (k + 1) a = step a >>= fun o => o.elim (pure a) (extendWithin step k) := by
  refine bind_congr fun o => ?_
  cases o <;> rfl

theorem run_collectWithin {step : Reader (Option α)} (h : Consumes step) {k m : Nat}
    (hk : s.unread.length < k) (hm : s.unread.length < m) :
    (collectWithin step k).run s = (collectWithin step m).run s := by
  induction k generalizing s m with
  | zero => omega
  | succ k ih =>
    obtain ⟨m, rfl⟩ := Nat.exists_eq_succ_of_ne_zero (Nat.ne_zero_of_lt hm)
    rw [collectWithin_succ, collectWithin_succ, run_bind, run_bind]
    cases hr : step.run s with
    | error e t => rfl
    | ok o t =>
      cases o with
      | none => rfl
      | some a =>
        have hlt := h s a t hr
        simp only [Option.elim, map_eq_pure_bind]
        rw [run_bind, run_bind, ih (m := m) (by omega) (by omega)]

/-- The results of a step are its first one and those that follow. -/
theorem collect_eq {step : Reader (Option α)} (h : Consumes step) :
    collect step = step >>= fun o => o.elim (pure []) fun a => (a :: ·) <$> collect step := by
  refine ext fun s => ?_
  have hr : (collect step).run s = (collectWithin step (s.unread.length + 1)).run s := rfl
  rw [hr, collectWithin_succ, run_bind, run_bind]
  cases hs : step.run s with
  | error e t => rfl
  | ok o t =>
    cases o with
    | none => rfl
    | some a =>
      have hlt := h s a t hs
      have hrest : (collectWithin step s.unread.length).run t = (collect step).run t :=
        run_collectWithin h hlt (Nat.lt_succ_self _)
      simp only [Option.elim, map_eq_pure_bind]
      rw [run_bind, run_bind, hrest]

theorem run_extendWithin {step : α → Reader (Option α)} (h : ∀ a, Consumes (step a)) {k m : Nat}
    (hk : s.unread.length < k) (hm : s.unread.length < m) (a : α) :
    (extendWithin step k a).run s = (extendWithin step m a).run s := by
  induction k generalizing s m a with
  | zero => omega
  | succ k ih =>
    obtain ⟨m, rfl⟩ := Nat.exists_eq_succ_of_ne_zero (Nat.ne_zero_of_lt hm)
    rw [extendWithin_succ, extendWithin_succ, run_bind, run_bind]
    cases hr : (step a).run s with
    | error e t => rfl
    | ok o t =>
      cases o with
      | none => rfl
      | some b =>
        have hlt := h a s b t hr
        exact ih (by omega) (by omega) b

/-- An extension is its first one and those that follow. -/
theorem extend_eq {step : α → Reader (Option α)} (h : ∀ a, Consumes (step a)) (a : α) :
    extend step a = step a >>= fun o => o.elim (pure a) (extend step) := by
  refine ext fun s => ?_
  have hr : (extend step a).run s = (extendWithin step (s.unread.length + 1) a).run s := rfl
  rw [hr, extendWithin_succ, run_bind, run_bind]
  cases hs : (step a).run s with
  | error e t => rfl
  | ok o t =>
    cases o with
    | none => rfl
    | some b => exact run_extendWithin h (h a s b t hs) (Nat.lt_succ_self _) b

/-- When no more is collected, the step has given nothing. -/
theorem exists_of_run_collect {step : Reader (Option α)} (h : Consumes step) {as : List α}
    {t : Reading} (hr : (collect step).run s = .ok as t) : ∃ u, step.run u = .ok none t := by
  induction hn : s.unread.length using Nat.strongRecOn generalizing s as with
  | ind n ih =>
    rw [collect_eq h] at hr
    obtain ⟨o, u, hs, hr⟩ := exists_of_run_bind hr
    cases o with
    | none =>
      cases hr
      exact ⟨s,hs⟩
    | some a =>
      simp only [Option.elim, map_eq_pure_bind] at hr
      obtain ⟨bs, v, hv, hr⟩ := exists_of_run_bind hr
      cases hr
      exact ih _ (hn ▸ h s a u hs) hv rfl

end ClassText.Reader
