import ClassText.Lexeme.Scanner
import Mathlib.Tactic.Common

/-! Looks and moves of a character cursor, run by run. None of them goes beyond the end of the text, since
each stands behind the question whether there is something to look at. -/
namespace ClassText

namespace CharacterCursor

/-- The text from the cursor on. -/
def tail (c : CharacterCursor) : Lexeme.Tail := ⟨c.position, c.ahead⟩

theorem advanceBy_append (p : Position) (cs ds : List Char) :
    advanceBy cs.length ⟨p, cs ++ ds⟩ = (.ok (), ⟨p.after cs, ds⟩) := by
  induction cs generalizing p with
  | nil => rfl
  | cons c cs ih => exact ih (p.advance c)

end CharacterCursor

namespace Lexeme.Scanner

variable {p : Position} {cs : List Char} {c : CharacterCursor}

theorem run_bind_ok {x : Scanner α} {f : α → Scanner β} {a : α} {d : CharacterCursor}
    (h : x.run c = .ok a d) : (x >>= f).run c = (f a).run d := by
  rw [EStateM.run_bind, h]

theorem run_bind_error {x : Scanner α} {f : α → Scanner β} {e : Halt} {d : CharacterCursor}
    (h : x.run c = .error e d) : (x >>= f).run c = .error e d := by
  rw [EStateM.run_bind, h]

theorem run_hasNextAt (n : Nat) :
    (hasNextAt (n + 1)).run c = .ok (decide (n + 1 ≤ c.ahead.length)) c := rfl

theorem run_currentAt {n : Nat} {x : Char} (h : c.ahead[n]? = some x) :
    (currentAt n).run c = .ok x c := by
  have hc : c.currentAt n = .ok x := by rw [CharacterCursor.currentAt, h]
  have hr : (currentAt n).run c = (ask fun _ => c.currentAt n).run c := rfl
  rw [hr, hc]
  rfl

theorem run_advanceBy (taken rest : List Char) :
    (advanceBy taken.length).run ⟨p, taken ++ rest⟩ = .ok () ⟨p.after taken, rest⟩ := by
  have hr : (advanceBy taken.length).run ⟨p, taken ++ rest⟩ = (do
      set (CharacterCursor.advanceBy taken.length ⟨p, taken ++ rest⟩).2
      ask fun _ => (CharacterCursor.advanceBy taken.length ⟨p, taken ++ rest⟩).1 : Scanner Unit).run
        ⟨p, taken ++ rest⟩ := rfl
  rw [hr, CharacterCursor.advanceBy_append]
  rfl

theorem run_advanceBy_one (x : Char) :
    (advanceBy 1).run ⟨p, x :: cs⟩ = .ok () ⟨p.advance x, cs⟩ := run_advanceBy [x] cs

theorem run_advanceBy_two (x y : Char) :
    (advanceBy 2).run ⟨p, x :: y :: cs⟩ = .ok () ⟨p.after [x, y], cs⟩ := run_advanceBy [x, y] cs

theorem run_position : position.run c = .ok c.position c := rfl

theorem run_currentIs (test : Char → Bool) :
    (currentIs test).run c = .ok (c.ahead.head?.any test) c := by
  obtain ⟨p, cs⟩ := c
  cases cs with
  | nil => rfl
  | cons x xs => rfl

theorem run_pairIs (a b : Char) :
    (pairIs a b).run ⟨p,cs⟩ = .ok ([a, b].isPrefixOf cs) ⟨p,cs⟩ := by
  cases cs with
  | nil => rfl
  | cons x xs =>
    cases xs with
    | nil => 
      have h : [a, b].isPrefixOf [x] = false := by simp [List.isPrefixOf]
      rw [h]
      rfl
    | cons y ys =>
      have h : [a, b].isPrefixOf (x :: y :: ys) = (x == a && y == b) := by
        simp only [List.isPrefixOf, Bool.and_true, Bool.beq_comm (a := a), Bool.beq_comm (a := b)]
      rw [h]
      rfl

/-- What a round adds to the answer of those behind it. -/
def prepend (a : α) : EStateM.Result Halt CharacterCursor (List α) →
    EStateM.Result Halt CharacterCursor (List α)
  | .ok as d => .ok (a :: as) d
  | .error h d => .error h d

/-- A round at `c` gives the answer of all rounds what it must have, provided that those behind it have
done so. -/
def Keeps (P : CharacterCursor → EStateM.Result Halt CharacterCursor (List α) → Prop)
    (c : CharacterCursor) : EStateM.Result Halt CharacterCursor (Option α) → Prop
  | .ok none d => P c (.ok [] d)
  | .ok (some a) d => d.ahead.length < c.ahead.length ∧ ∀ r, P d r → P c (prepend a r)
  | .error h d => P c (.error h d)

/-- What every round keeps holds of all rounds: the bound on their number is never what ends them. -/
theorem collect_induct {f : Scanner (Option α)}
    {P : CharacterCursor → EStateM.Result Halt CharacterCursor (List α) → Prop}
    (h : ∀ c, Keeps P c (f.run c)) (c : CharacterCursor) : P c ((collect f).run c) := by
  suffices hn : ∀ n c, c.ahead.length < n → P c ((collectWithin f n).run c) from
    hn _ c (Nat.lt_succ_self _)
  intro n
  induction n with
  | zero => intro c hn; omega
  | succ n ih =>
    intro c hn
    have hc := h c
    rw [collectWithin, EStateM.run_bind]
    cases hr : f.run c with
    | error g d =>
      rw [hr] at hc
      exact hc
    | ok o d =>
      rw [hr] at hc
      cases o with
      | none => exact hc
      | some a =>
        obtain ⟨hlt, hP⟩ := hc
        have hrest := hP _ (ih d (by omega))
        dsimp only
        rw [EStateM.run_bind]
        cases hm : (collectWithin f n).run d with
        | ok as e => rw [hm] at hrest; exact hrest
        | error g e => rw [hm] at hrest; exact hrest

theorem run_takeIf (test : Char → Bool) (x : Char) : (takeIf test).run ⟨p, x :: cs⟩ =
    if test x then .ok (some x) ⟨p.advance x, cs⟩ else .ok none ⟨p, x :: cs⟩ := by
  by_cases h : test x = true
  · simp only [takeIf, EStateM.run_bind, run_currentIs, List.head?_cons, Option.any_some, h, if_true]
    rfl
  · simp only [takeIf, EStateM.run_bind, run_currentIs, List.head?_cons, Option.any_some, h]
    rfl

/-- Characters are taken as far as they satisfy the test, and no further. -/
theorem run_takeRun (test : Char → Bool) (c : CharacterCursor) : (takeRun test).run c =
    .ok (c.ahead.takeWhile test) ⟨c.position.after (c.ahead.takeWhile test), c.ahead.dropWhile test⟩ := by
  refine collect_induct (f := takeIf test) (P := fun c r => r = .ok (c.ahead.takeWhile test)
    ⟨c.position.after (c.ahead.takeWhile test), c.ahead.dropWhile test⟩) ?_ c
  rintro ⟨p, cs⟩
  cases cs with
  | nil => rfl
  | cons x xs =>
    rw [run_takeIf]
    by_cases hx : test x = true
    · rw [if_pos hx]
      refine ⟨Nat.lt_succ_self _, ?_⟩
      rintro _ rfl
      simp [hx, prepend]
    · simp [hx, Keeps]

end Lexeme.Scanner
end ClassText
