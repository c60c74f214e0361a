import ClassText.Proofs.Advance.Taking
import Mathlib.Data.Prod.Lex

/-! The readers that contain themselves, and where they ask what they contain. A type asks for the rest
of one that begins with a name, and this for the types between its angles; an expression asks for its
operands, an operand for a chain or for what stands in parentheses, a chain for arguments, and these
are expressions again. Some of them ask before they have taken anything. But these are ranked, so that
none is reached again without a token taken in between. -/
namespace ClassText.Reader

variable {α β : Type}

/-- Run from `s`, what is made of a reader asks for its answer at `u`: it comes out differently for some
reader that only differs there. -/
def Asks (F : Reader α → Reader β) (r : Reader α) (s u : Reading) : Prop :=
  ∃ r' : Reader α, (∀ v, v ≠ u → r'.run v = r.run v) ∧ (F r').run s ≠ (F r).run s

/-- The reader, except that it stops at `u`. -/
def stopping (u : Reading) (r : Reader α) : Reader α := fun v =>
  if v = u then .error (.broken .outOfBounds) u else r.run v

/-- What stops as soon as a reader stops at `u`, and else does not, asks for its answer there. -/
theorem Asks.of_stopping {F : Reader α → Reader β} {r : Reader α} {s t u v : Reading} {b : β}
    {e : Stop} (h : (F r).run s = .ok b t) (hstop : (F (stopping u r)).run s = .error e v) :
    Asks F r s u := by
  refine ⟨stopping u r, fun w hw => if_neg hw, ?_⟩
  rw [h, hstop]
  exact fun h => by cases h

/-- The readers that are reached from themselves. Every other one is made of readers defined before it. -/
inductive Routine where
  | type | namedType | expression | operand | chain | arguments
deriving DecidableEq, Repr

/-- One routine, started at a reading, asks for another, or for itself, at another reading. -/
inductive Calls : Routine × Reading → Routine × Reading → Prop
  | typeNamed : Asks typeWith (namedType typeExpr) s u → Calls (.type, s) (.namedType, u)
  | namedArgument : Asks namedType typeExpr s u → Calls (.namedType, s) (.type, u)
  | expressionOperand : Asks expressionWith (operand expression) s u →
      Calls (.expression, s) (.operand, u)
  | operandChain : Asks (operandWith · expression) (chain expression) s u →
      Calls (.operand, s) (.chain, u)
  | operandBracket : Asks (operandWith (chain expression)) expression s u →
      Calls (.operand, s) (.expression, u)
  | chainArguments : Asks chainWith (arguments expression) s u → Calls (.chain, s) (.arguments, u)
  | argument : Asks arguments expression s u → Calls (.arguments, s) (.expression, u)

/-- A routine that asks for another one before it has taken a token ranks above it. -/
def Routine.rank : Routine → Nat
  | type => 1
  | namedType => 0
  | arguments => 3
  | expression => 2
  | operand => 1
  | chain => 0

section Asks

variable {s u : Reading} {n : Nat} {F : Reader α → Reader β} {r : Reader α}

/-- Where readers that agree on at most `n` unread tokens may stand for each other, what is asked for is
asked on at most as many. -/
theorem Asks.length_le (h : Asks F r s u) (hr : Forward r)
    (hF : ∀ r', (∀ v, v.unread.length ≤ n → Agrees n r r' v) → (F r).run s = (F r').run s) :
    u.unread.length ≤ n := by
  obtain ⟨r', hsame, hne⟩ := h
  by_contra hlt
  refine hne (hF r' fun v hv => ?_).symm
  have hv' : r'.run v = r.run v := hsame v fun h => hlt (h ▸ hv)
  exact ⟨hv'.symm, (hr.agrees n v hv).2⟩

/-- What takes a token first asks on fewer. At the end of the input it asks for nothing. -/
theorem Asks.length_lt (h : Asks F r s u) (hr : Forward r)
    (hended : s.unread = [] → ∀ r', (F r').run s = (F r).run s)
    (hF : ∀ n r', s.unread.length ≤ n + 1 → (∀ v, v.unread.length ≤ n → Agrees n r r' v) →
      (F r).run s = (F r').run s) : u.unread.length < s.unread.length := by
  cases hs : s.unread.length with
  | zero =>
    obtain ⟨r', -, hne⟩ := h
    exact absurd (hended (List.length_eq_zero_iff.1 hs) r') hne
  | succ n => exact Nat.lt_succ_of_le (h.length_le hr fun r' => hF n r' (Nat.le_of_eq hs))

end Asks

/-- An identifier is missing at the end of the input, whatever would follow. -/
theorem run_identifier_bind_ended {s : Reading} (hs : s.unread = []) (role : String)
    (f f' : String → Reader α) : (identifier role >>= f).run s = (identifier role >>= f').run s := by
  rw [run_bind, run_bind]
  cases hr : (identifier role).run s with
  | ok name u => exact absurd (TakesAt.identifier role s name u hr) (by simp [hs])
  | error e u => rfl

theorem lex_of_le {a b i j : Nat} (hle : a ≤ b) (hlt : i < j) :
    Prod.Lex (· < ·) (· < ·) (a, i) (b, j) := by
  obtain hab | rfl := Nat.lt_or_eq_of_le hle
  · exact .left _ _ hab
  · exact .right _ hlt

/-- How much is still to be read, and then the rank. -/
def descent (p : Routine × Reading) : Nat × Nat := (p.2.remaining, p.1.rank)

/-- Each call either starts on less than its caller or is of a lower rank. -/
theorem Calls.descends {p q : Routine × Reading} (h : Calls p q) :
    Prod.Lex (· < ·) (· < ·) (descent q) (descent p) := by
  have hc := closed_onward
  have hexpression := hc.expression
  simp only [descent, ← Reading.length_unread]
  cases h with
  | @typeNamed s _ h =>
    refine lex_of_le (h.length_le (hc.namedType hc.typeExpr).forward fun r' ih => ?_) (Nat.lt_succ_self _)
    exact (Agrees.typeWith (Nat.le_succ _) (ih s (Nat.le_refl _))).1
  | namedArgument h =>
    refine .left _ _ (h.length_lt hc.typeExpr.forward (fun hs _ => ?_) fun n r' hs ih => ?_)
    · exact run_identifier_bind_ended hs _ _ _
    · exact (Agrees.namedType hs ih).1
  | @expressionOperand s _ h =>
    refine lex_of_le (h.length_le (hc.operand hexpression).forward fun r' ih => ?_) (Nat.lt_succ_self _)
    exact (Agrees.expressionWith (ih s (Nat.le_refl _)) ih).1
  | @operandChain s _ h =>
    refine lex_of_le (h.length_le (hc.chain hexpression).forward fun r' ih => ?_) (Nat.lt_succ_self _)
    exact (Agrees.operandWith (Nat.le_succ _) (ih s (Nat.le_refl _))
      (hexpression.forward.agrees _)).1
  | operandBracket h =>
    refine .left _ _ (h.length_lt hexpression.forward (fun hs r' => ?_) fun n r' hs ih => ?_)
    · rw [run_operandWith_ended hs, run_operandWith_ended hs]
    · have hchain := Agrees.chainWith hs fun _ hu =>
        Agrees.arguments hu (hexpression.forward.agrees n)
      exact (Agrees.operandWith hs hchain ih).1
  | chainArguments h =>
    refine .left _ _ (h.length_lt (hc.arguments hexpression).forward (fun hs _ => ?_)
      fun n r' hs ih => ?_)
    · exact run_identifier_bind_ended hs _ _ _
    · exact (Agrees.chainWith hs ih).1
  | argument h =>
    refine lex_of_le (h.length_le hexpression.forward fun r' ih => ?_) (Nat.lt_succ_self _)
    exact (Agrees.arguments (Nat.le_refl _) ih).1

/-- No routine calls itself, directly or through others, before something has been taken. -/
theorem remaining_lt_of_transGen {f : Routine} {s u : Reading}
    (h : Relation.TransGen Calls (f, s) (f, u)) : u.remaining < s.remaining := by
  have hlex : Prod.Lex (· < ·) (· < ·) (descent (f, u)) (descent (f, s)) :=
    of_transGen (R := Calls) (f := descent) Calls.descends h
  simpa [descent] using Prod.lex_def.1 hlex

/-- There is no endless chain of calls. -/
theorem wellFounded_calls : WellFounded fun p q => Calls q p :=
  Subrelation.wf (fun h => h.descends)
    (InvImage.wf descent (Prod.lex ⟨_, Nat.lt_wfRel.wf⟩ ⟨_, Nat.lt_wfRel.wf⟩).wf)

end ClassText.Reader
