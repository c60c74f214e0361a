import ClassText.Proofs.Failure.Repetition
import ClassText.Proofs.Reader.Expr

/-! Where the reader of expressions stops: wherever any expression may stand. -/
namespace ClassText.Reader.Accords

open Grammar

variable {p : List Token} {more : List Located} {s : Reading} {inner inner' : Reader Expr} {n : Nat}

/-- Behind an argument, a comma and a further one may stand wherever the closing parenthesis may. -/
theorem opens_further_expr (hp : ∀ q es, DerivesArguments q es → Viable (p ++ q ++ [.symbol .rightParen]))
    {q r : List Token} {first : Expr} {others : List Expr} (hq : DerivesExpr q first)
    (hr : Further DerivesExpr .comma r others) :
    Opens DerivesExpr (p ++ q ++ r ++ [.symbol .comma]) := by
  intro w e hw
  have h := hp _ _ (.cons hq (hr.snoc hw))
  exact h.beginning (by simp)

theorem arguments (hs : s.Visible) (hn : s.unread.length < n)
    (hp : ∀ q es, DerivesArguments q es → Viable (p ++ q ++ [.symbol .rightParen]))
    (hreads : ∀ u, u.Visible → u.unread.length < n → Reads inner u Phrase.expression)
    (ih : ∀ q u, Opens DerivesExpr q → u.Visible → u.unread.length < n →
      Accords q more inner inner' u) :
    Accords p more (arguments inner) (arguments inner') s := by
  apply bind_sees
  by_cases h : s.cursor.peek? 0 = some (.symbol .rightParen)
  · simp only [h, decide_true, if_true]
    exact bind_expect hs (by decide) (by simpa using hp _ _ .nil) fun _ _ _ => pure []
  · simp only [h, decide_false, Bool.false_eq_true, if_false]
    have hfirst : Opens DerivesExpr p := fun w e hw =>
      (hp _ _ (.cons hw .nil)).beginning (by simp)
    refine (ih p s hfirst hs hn).bind (hreads s hs hn) fun first q u hu hsu hq => ?_
    have hle : u.unread.length ≤ s.unread.length := by simp [hsu]
    refine (eachBehind (by decide) (fun _ _ _ h => h.1) hu
      (fun v hv hlt => hreads v hv (by omega)) (fun r v hr hv hlt => ih r v hr hv (by omega))
      fun r others hr => opens_further_expr hp hq.1 hr).bind
      (Reads.eachBehind (by decide) hu fun v hv hlt => hreads v hv (by omega))
      fun others r v hv _ hr => ?_
    have hall := hp _ _ (.cons hq.1 (hr.further fun _ _ _ h => h.1))
    exact bind_expect hv (by decide) (by simpa using hall) fun _ _ _ => pure (first :: others)

/-- Without a dot, or with nothing behind it, there is no link. -/
theorem run_chainLink_none (inner : Reader Expr) (base : Expr)
    (h : s.cursor.peek? 0 ≠ some (.symbol .dot) ∨ s.cursor.peek? 1 = none) :
    (chainLink inner base).run s = .ok none s := by
  have hdot : (sees (.symbol .dot)).run s = .ok (s.cursor.peek? 0 = some (.symbol .dot)) s := rfl
  have hnext : (peek? 1).run s = .ok (s.cursor.peek? 1) s := rfl
  rw [chainLink, run_bind, hdot]
  dsimp only
  rw [run_bind, hnext]
  dsimp only
  obtain h | h := h
  · rw [decide_eq_false h]
    cases s.cursor.peek? 1 with
    | none => rfl
    | some t => cases t <;> rfl
  · rw [h]
    rfl

/-- A dot that is the last token shows no link, though with more tokens it might begin one. -/
theorem chainLink_at_end (base : Expr) (hc : s.cursor.Pending) :
    Accords p more (chainLink inner base) (chainLink inner' base) s := by
  have hnext : s.cursor.peek? 1 = none := by
    obtain h | ⟨l, h, -⟩ := hc <;> simp [TokenCursor.peek?, TokenCursor.get?, h]
  unfold Accords
  rw [run_chainLink_none inner base (.inr hnext)]
  exact ⟨.stay, .inl hc⟩

theorem chainLink_without_dot (base : Expr) (hd : s.cursor.peek? 0 ≠ some (.symbol .dot)) :
    Accords p more (chainLink inner base) (chainLink inner' base) s := by
  by_cases hs : s.cursor.ahead = []
  · exact chainLink_at_end base (.inl hs)
  · unfold Accords
    rw [run_chainLink_none inner base (.inl hd)]
    refine ⟨.stay, .inr (run_chainLink_none inner' base (.inl ?_))⟩
    rwa [Reading.peek?_extend (List.length_pos_iff.2 hs)]

/-- One more link may stand behind a chain that stands where any chain may. -/
theorem chainLink (hs : s.Visible) (hn : s.unread.length ≤ n) {w : List Token} {base : Expr}
    (hp : Opens DerivesChain p) (hw : DerivesChain w base)
    (hreads : ∀ u, u.Visible → u.unread.length < n → Reads inner u Phrase.expression)
    (ih : ∀ q u, Opens DerivesExpr q → u.Visible → u.unread.length < n →
      Accords q more inner inner' u) :
    Accords (p ++ w) more (chainLink inner base) (chainLink inner' base) s := by
  by_cases hd : s.cursor.peek? 0 = some (.symbol .dot)
  · by_cases hlong : 1 < s.cursor.ahead.length
    · apply bind_sees
      simp only [hd, decide_true]
      apply bind_peek hlong
      cases hc : s.cursor.peek? 1 with
      | none => exact pure none
      | some t =>
        cases t with
        | identifier x =>
          refine bind_skip hs rfl hd fun u hu hsu => ?_
          refine bind_identifier hu (fun x => by simpa using hp _ _ (.field x hw)) fun x v hv huv => ?_
          have hlen : s.unread.length = v.unread.length + 2 := by simp [hsu, huv]
          refine ifAccept hv (by decide) (fun y hy hvy => ?_) fun y hy _ _ => bind_build fun e _ => pure _
          have hlt : y.unread.length < n := by simp [hvy] at hlen; omega
          have hcall : ∀ q es, DerivesArguments q es →
              Viable (p ++ w ++ [.symbol .dot] ++ [.identifier x.text] ++ [.symbol .leftParen] ++ q ++
                [.symbol .rightParen]) := fun q es hq => by
            simpa using hp _ _ (.call x hw hq)
          exact (arguments hy hlt hcall hreads ih).bind (Reads.arguments hy hlt hreads)
            fun es q z _ _ _ => bind_build fun e _ => pure _
        | _ => exact pure none
    · exact chainLink_at_end base (.inr (Reading.ahead_eq_singleton hd hlong))
  · exact chainLink_without_dot base hd

theorem chain (hs : s.Visible) (hn : s.unread.length ≤ n) (hp : Opens DerivesChain p)
    (hreads : ∀ u, u.Visible → u.unread.length < n → Reads inner u Phrase.expression)
    (ih : ∀ q u, Opens DerivesExpr q → u.Visible → u.unread.length < n →
      Accords q more inner inner' u) :
    Accords p more (chain inner) (chain inner') s := by
  refine bind_identifier hs (fun x => hp _ _ (.variable x)) fun x u hu hsu => bind_build fun e he => ?_
  have hle : u.unread.length + 1 = s.unread.length := by simp [hsu]
  obtain rfl : .variable x = e := by
    simpa [Expr.checkVariable] using he
  refine extend (P := Phrase.link) (I := fun e r => ∃ w, r = p ++ w ∧ DerivesChain w e) ?_ ?_ hu
    (fun e v hv hle => Reads.chainLink hv (by omega) hreads e) ?_ ⟨_, rfl, .variable x⟩
  · rintro e r f us (⟨n, rfl, -⟩ | ⟨n, q, es, rfl, -⟩) <;> simp
  · rintro e _ r f us ⟨w, rfl, hw⟩ (⟨n, rfl, rfl, -⟩ | ⟨n, q, es, rfl, hq, rfl⟩)
    · exact ⟨_, List.append_assoc .., .field n hw⟩
    · exact ⟨_, List.append_assoc .., .call n hw hq⟩
  · rintro e _ v ⟨w, rfl, hw⟩ hv hle
    exact chainLink hv (by omega) hp hw hreads ih

/-- An opening parenthesis may stand wherever an expression may, and once there is one inside, so may
the closing one. -/
theorem opens_bracket (hp : Opens DerivesExpr p) : Opens DerivesExpr (p ++ [.symbol .leftParen]) ∧
    ∀ q e, DerivesExpr q e → Viable (p ++ [.symbol .leftParen] ++ q ++ [.symbol .rightParen]) := by
  have whole : ∀ q e, DerivesExpr q e →
      Viable (p ++ [.symbol .leftParen] ++ q ++ [.symbol .rightParen]) := fun q e hq => by
    simpa using hp _ _ (.operand (.bracket hq))
  exact ⟨fun q e hq => (whole q e hq).beginning (List.prefix_append _ _), whole⟩

theorem operand (hs : s.Visible) (hn : s.unread.length ≤ n) (hp : Opens DerivesExpr p)
    (hreads : ∀ u, u.Visible → u.unread.length < n → Reads inner u Phrase.expression)
    (ih : ∀ q u, Opens DerivesExpr q → u.Visible → u.unread.length < n →
      Accords q more inner inner' u) :
    Accords p more (operand inner) (operand inner') s := by
  have hw : ∀ w, Expected.expression.Admits w → Viable (p ++ w) := fun w ⟨e, he⟩ => hp w e he
  have refused : Accords p more (Reader.unexpected .expression : Reader Expr)
      (Reader.unexpected .expression) s := unexpected hw
  apply bind_current
  cases hc : s.cursor.peek? 0 with
  | none => exact ended _ (Reading.peek?_zero_eq_none.1 hc) hw
  | some t =>
    cases t with
    | integer value isLong => exact bind_skip hs rfl hc fun _ _ _ => pure _
    | identifier name =>
      exact chain hs hn (fun w e hw => hp w e (.operand (.chain hw))) hreads ih
    | symbol x =>
      cases x with
      | leftParen =>
        refine bind_skip hs rfl hc fun u hu hsu => ?_
        have hlt : u.unread.length < n := by simp [hsu] at hn; omega
        obtain ⟨hinner, hclose⟩ := opens_bracket hp
        exact (ih _ u hinner hu hlt).bind (hreads u hu hlt) fun e q v hv _ hq =>
          bind_expect hv (by decide) (hclose q e hq.1) fun _ _ _ => pure _
      | _ => exact refused
    | _ => exact refused

/-- One more operator may stand wherever each of them may. -/
theorem operation (hs : s.Visible) (hn : s.unread.length ≤ n)
    (hp : ∀ op : Operator, Opens DerivesExpr (p ++ [.symbol op.symbol]))
    (hreads : ∀ u, u.Visible → u.unread.length < n → Reads inner u Phrase.expression)
    (ih : ∀ q u, Opens DerivesExpr q → u.Visible → u.unread.length < n →
      Accords q more inner inner' u) :
    Accords p more (operation inner) (operation inner') s := by
  apply bind_current
  cases hc : (s.cursor.peek? 0).bind Operator.ofToken? with
  | none => exact pure none
  | some op =>
    refine bind_skip hs op.plain_symbol.1 (Operator.bind_ofToken?_iff.1 hc) fun u hu hsu => ?_
    have hle : u.unread.length ≤ n := by simp [hsu] at hn; omega
    exact (operand hu hle (hp op) hreads ih).bind (Reads.operand hu hle hreads)
      fun e _ _ _ _ _ => pure (some (op, e))

theorem expressionBody (hs : s.Visible) (hp : Opens DerivesExpr p)
    (hreads : ∀ u, u.Visible → u.unread.length < s.unread.length → Reads inner u Phrase.expression)
    (ih : ∀ q u, Opens DerivesExpr q → u.Visible → u.unread.length < s.unread.length →
      Accords q more inner inner' u) :
    Accords p more (expressionBody inner) (expressionBody inner') s := by
  refine (operand hs (Nat.le_refl _) hp hreads ih).bind (Reads.operand hs (Nat.le_refl _) hreads)
    fun first q u hu hsu hq => ?_
  have hle : ∀ v : Reading, v.unread.length ≤ u.unread.length →
      v.unread.length ≤ s.unread.length := fun v hv => by rw [hsu, List.length_append]; omega
  have step : ∀ v, v.Visible → v.unread.length ≤ u.unread.length →
      Reads (Reader.operation inner) v Phrase.operation := fun v hv hvu =>
    Reads.operation hv (hle v hvu) hreads
  have shrinks : ∀ r a us, Phrase.operation r (some a) us → r ≠ [] := by
    rintro r ⟨op, e⟩ us ⟨w, rfl, -⟩
    exact List.cons_ne_nil _ _
  refine (collect (I := fun r => ∀ op : Operator, Opens DerivesExpr (r ++ [.symbol op.symbol]))
    shrinks ?_ hu step (fun r v hr hv hvu => operation hv (hle v hvu) hr hreads ih)
    (hp.behind_operand hq.1)).bind (Reads.collect hu step shrinks) fun ops _ _ _ _ _ => pure _
  rintro r _ ⟨op, e⟩ us hr ⟨w, rfl, hw⟩ op'
  simpa using (hr op).behind_operand hw.1 op'

theorem expression (hs : s.Visible) (hp : Opens DerivesExpr p) :
    Accords p more expression expression s :=
  nested (fun _ _ ht hle =>
      Reads.nestedWithin (fun _ => Reads.noExpression) (fun _ _ => Reads.expressionBody) ht hle)
    (fun _ _ _ hq ht => ended _ ht fun w ⟨e, hw⟩ => hq w e hw)
    (fun _ _ _ _ hq ht hreads ih => expressionBody ht hq hreads ih) hs hp

end ClassText.Reader.Accords
