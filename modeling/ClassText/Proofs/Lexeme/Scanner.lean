import ClassText.Proofs.Lexeme.Integer
import ClassText.Proofs.Lexeme.Layout
import ClassText.Proofs.Lexeme.Symbol

/-! Reading with a character cursor gives the tokens of the text. Symbols are found in a table for their
first character, which lists them in an order that makes the first one found the longest. -/
namespace ClassText.Lexeme.Scanner

variable {p : Position} {cs : List Char} {c : CharacterCursor}

/-- Whether a table lists all symbols that begin with `lead`: the one of that character alone, and the
longer ones with what makes them longer, no shorter one before them. -/
def isTable (lead : Char) (plain : Symbol) (longer : List (List Char × Symbol)) : Bool :=
  plain.spelling.toList == [lead] && longer.all (fun o => o.2.spelling.toList == lead :: o.1) &&
  decide (longer.Pairwise fun o o' => o'.1.length ≤ o.1.length) &&
  Symbol.all.all fun s => s.spelling.toList.head? != some lead || s = plain || longer.any (·.2 = s)

theorem isTable_of_separator? {x : Char} {s : Symbol} (h : separator? x = some s) :
    isTable x s [] = true := by
  unfold separator? at h
  split at h <;> cases h <;> decide +kernel

theorem isTable_of_operators? {x : Char} (hx : operatorLeads.contains x = true) :
    ∃ plain longer, operators? x = some (plain, longer) ∧ isTable x plain longer = true := by
  have hall : operatorLeads.all (fun x => (operators? x).any fun o => isTable x o.1 o.2) = true := by
    decide +kernel
  have ht := List.all_eq_true.1 hall x (List.contains_iff_mem.1 hx)
  cases ho : operators? x with
  | none =>
    rw [ho] at ht
    cases ht
  | some o =>
    rw [ho] at ht
    exact ⟨o.1, o.2, rfl, ht⟩

theorem longestAt?_eq_none (cs : List Char) {x : Char} (hs : separator? x = none)
    (hx : operatorLeads.contains x = false) : Symbol.longestAt? (x :: cs) = none := by
  have hall : ∀ s ∈ Symbol.all, s.spelling.toList.head?.any
      (fun x => (separator? x).isSome || operatorLeads.contains x) = true := by
    decide +kernel
  refine Symbol.longestAt?_cons_eq_none_iff.2 fun s hc => ?_
  have hs' := hall s s.mem_all
  rw [hc, Option.any_some, hs, hx] at hs'
  cases hs'

theorem run_standsAt (ds : List Char) : ∀ (n : Nat), n + ds.length ≤ cs.length →
    (standsAt n ds).run ⟨p,cs⟩ = .ok (ds.isPrefixOf (cs.drop n)) ⟨p,cs⟩ := by
  induction ds with
  | nil => intro n hn; rfl
  | cons d ds ih =>
    intro n hn
    rw [List.length_cons] at hn
    have hlt : n < cs.length := by omega
    rw [standsAt, run_bind_ok (run_currentAt (List.getElem?_eq_getElem hlt)),
      List.drop_eq_getElem_cons hlt]
    by_cases hd : cs[n] = d
    · rw [if_pos hd, ih (n + 1) (by omega)]
      simp [List.isPrefixOf, hd]
    · rw [if_neg hd]
      have hne : (d == cs[n]) = false := beq_eq_false_iff_ne.2 (Ne.symm hd)
      rw [List.isPrefixOf, hne, Bool.false_and]
      rfl

theorem run_followedBy (suffix : List Char) (x : Char) :
    (followedBy suffix).run ⟨p, x :: cs⟩ = .ok (suffix.isPrefixOf cs) ⟨p, x :: cs⟩ := by
  rw [followedBy, run_bind_ok (run_hasNextAt suffix.length)]
  by_cases h : suffix.length + 1 ≤ (x :: cs).length
  · simp only [h, decide_true, if_true]
    exact run_standsAt suffix 1 (by omega)
  · have hp : suffix.isPrefixOf cs = false := by
      rw [← Bool.not_eq_true, List.isPrefixOf_iff_prefix]
      intro hp
      have hle := hp.length_le
      rw [List.length_cons] at h
      omega
    simp only [h, decide_false, hp]
    rfl

/-- The first symbol of the table that stands at the head of the text is the longest one there. -/
theorem run_operatorAmong {x : Char} {plain : Symbol} (hplain : plain.spelling.toList = [x])
    (longer : List (List Char × Symbol)) (hlonger : ∀ o ∈ longer, o.2.spelling.toList = x :: o.1)
    (horder : longer.Pairwise fun o o' => o'.1.length ≤ o.1.length)
    (hall : ∀ s : Symbol, s.spelling.toList <+: x :: cs → s = plain ∨ ∃ o ∈ longer, o.2 = s) :
    ∃ s ds, Symbol.longestAt? (x :: cs) = some s ∧ x :: cs = s.spelling.toList ++ ds ∧
      (operatorAmong plain longer).run ⟨p, x :: cs⟩ =
        .ok s ⟨p.after s.spelling.toList, ds⟩ := by
  induction longer with
  | nil =>
    refine ⟨plain, cs, Symbol.longestAt?_eq_some ?_ fun s hs => ?_, by rw [hplain]; rfl, ?_⟩
    · rw [hplain]
      exact List.prefix_append [x] cs
    · obtain rfl | ⟨o, ho, -⟩ := hall s hs
      · exact Nat.le_refl _
      · cases ho
    · rw [operatorAmong, run_bind_ok (run_advanceBy_one x), hplain]
      rfl
  | cons o longer ih =>
    obtain ⟨suffix, t⟩ := o
    obtain ⟨hfirst, horder⟩ := List.pairwise_cons.1 horder
    have ht : t.spelling.toList = x :: suffix := hlonger _ List.mem_cons_self
    rw [operatorAmong, run_bind_ok (run_followedBy suffix x)]
    by_cases hp : suffix.isPrefixOf cs = true
    · obtain ⟨ds, rfl⟩ := List.isPrefixOf_iff_prefix.1 hp
      refine ⟨t, ds, Symbol.longestAt?_eq_some ?_ fun s hs => ?_, by rw [ht]; rfl, ?_⟩
      · rw [ht]
        exact List.prefix_append (x :: suffix) ds
      · obtain rfl | ⟨o, ho, rfl⟩ := hall s hs
        · rw [hplain, ht]
          simp
        · obtain rfl | ho := List.mem_cons.1 ho
          · exact Nat.le_refl _
          · rw [hlonger o (List.mem_cons_of_mem _ ho), ht]
            exact Nat.succ_le_succ (hfirst o ho)
      · rw [if_pos hp, Nat.add_comm, ht]
        exact run_bind_ok (run_advanceBy (x :: suffix) ds)
    · rw [if_neg hp]
      refine ih (fun o ho => hlonger o (List.mem_cons_of_mem _ ho)) horder fun s hs => ?_
      obtain rfl | ⟨o, ho, rfl⟩ := hall s hs
      · exact .inl rfl
      · obtain rfl | ho := List.mem_cons.1 ho
        · rw [ht, List.cons_prefix_cons] at hs
          exact absurd (List.isPrefixOf_iff_prefix.2 hs.2) hp
        · exact .inr ⟨o,ho,rfl⟩

/-- A table gives the longest symbol, and it is passed over. -/
theorem run_operatorAmong_of_isTable (p : Position) (cs : List Char) {x : Char} {plain : Symbol}
    {longer : List (List Char × Symbol)} (h : isTable x plain longer = true) :
    ∃ s ds, Symbol.longestAt? (x :: cs) = some s ∧ x :: cs = s.spelling.toList ++ ds ∧
      (operatorAmong plain longer).run ⟨p, x :: cs⟩ =
        .ok s ⟨p.after s.spelling.toList, ds⟩ := by
  simp only [isTable, Bool.and_eq_true, beq_iff_eq, List.all_eq_true, decide_eq_true_eq] at h
  obtain ⟨⟨⟨hplain, hlonger⟩, horder⟩, hall⟩ := h
  refine run_operatorAmong hplain longer hlonger horder fun s hs => ?_
  have hhead : s.spelling.toList.head? = some x := by
    cases hc : s.spelling.toList with
    | nil => exact absurd hc s.spelling_ne_nil
    | cons y ys =>
      rw [hc, List.cons_prefix_cons] at hs
      rw [List.head?_cons, hs.1]
  simpa [hhead] using hall s s.mem_all

/-! One token. -/

theorem splitRadix_of_not (hx : ['0', 'x'].isPrefixOf cs = false) (hb : ['0', 'b'].isPrefixOf cs = false) :
    splitRadix cs = (.decimal, [], cs) := by
  unfold splitRadix
  split
  · simp at hx
  · simp at hb
  · rfl

theorem run_radix (c : CharacterCursor) : radix.run c = .ok (splitRadix c.ahead).1
    ⟨c.position.after (splitRadix c.ahead).2.1, (splitRadix c.ahead).2.2⟩ := by
  obtain ⟨p, cs⟩ := c
  rw [radix, run_bind_ok (run_pairIs '0' 'x')]
  by_cases hx : ['0', 'x'].isPrefixOf cs = true
  · obtain ⟨ds, rfl⟩ := eq_of_isPrefixOf hx
    rw [if_pos hx, run_bind_ok (run_advanceBy_two '0' 'x')]
    rfl
  · rw [if_neg hx, run_bind_ok (run_pairIs '0' 'b')]
    by_cases hb : ['0', 'b'].isPrefixOf cs = true
    · obtain ⟨ds, rfl⟩ := eq_of_isPrefixOf hb
      rw [if_pos hb, run_bind_ok (run_advanceBy_two '0' 'b')]
      rfl
    · rw [if_neg hb]
      dsimp only
      rw [splitRadix_of_not (Bool.eq_false_iff.2 hx) (Bool.eq_false_iff.2 hb)]
      rfl

theorem run_long (c : CharacterCursor) : long.run c = .ok (splitLong c.ahead).1
    ⟨c.position.after (splitLong c.ahead).2.1, (splitLong c.ahead).2.2⟩ := by
  obtain ⟨p, cs⟩ := c
  rw [long, run_bind_ok (run_currentIs _)]
  cases cs with
  | nil => rfl
  | cons x xs =>
    dsimp only
    by_cases hx : x = 'L'
    · subst hx
      exact run_bind_ok (run_advanceBy_one 'L')
    · have hne : (x == 'L') = false := beq_eq_false_iff_ne.2 hx
      have hs : Stops (· == 'L') (x :: xs) := by
        intro y hy
        obtain rfl : x = y := by simpa using hy
        exact hne
      rw [splitLong_of_stops hs, List.head?_cons, Option.any_some, hne]
      rfl

theorem run_integer (c : CharacterCursor) : integer.run c =
    .ok (.integer (splitInteger c.ahead).value (splitInteger c.ahead).isLong)
      ⟨c.position.after (splitInteger c.ahead).taken, (splitInteger c.ahead).rest⟩ := by
  rw [integer, run_bind_ok (run_radix c), run_bind_ok (run_takeRun _ _), run_bind_ok (run_long _)]
  simp only [splitInteger, Position.after_append]
  rfl

/-- What a token that is split off the text makes of the cursor, and what a flaw does. -/
def AnswersSplit (p : Position) (r : Except Flaw Split) : EStateM.Result Halt CharacterCursor Token → Prop
  | .ok t d => ∃ taken, r = .ok ⟨t, taken, d.ahead⟩ ∧ d.position = p.after taken
  | .error (.rejected e) _ => ∃ flaw, r = .error flaw ∧ e = flaw.toError p
  | .error _ _ => False

theorem run_quoted (quote : Char) (make : String → Token) :
    AnswersSplit p (splitQuoted quote make cs) ((quoted quote make).run ⟨p, quote :: cs⟩) := by
  rw [quoted, run_bind_ok run_position, run_bind_ok (run_advanceBy_one quote),
    run_bind_ok (run_takeRun _ _), run_bind_ok (run_hasNextAt 0)]
  unfold splitQuoted
  have hn := List.head?_dropWhile_not (· != quote) cs
  have hd := List.takeWhile_append_dropWhile (p := (· != quote)) (l := cs)
  dsimp only
  cases hq : cs.dropWhile (· != quote) with
  | nil => exact ⟨_,rfl,rfl⟩
  | cons q rest =>
    rw [hq] at hn
    obtain rfl : q = quote := by simpa using hn
    simp only [List.length_cons, Nat.le_add_left, decide_true, if_true]
    rw [run_bind_ok (run_advanceBy_one q)]
    refine ⟨_, rfl, ?_⟩
    simp

theorem run_token {x : Char} (hb : opensBlock (x :: cs) = false) :
    AnswersSplit p (splitToken x cs) (token.run ⟨p, x :: cs⟩) := by
  have hc : (currentAt 0).run ⟨p, x :: cs⟩ = .ok x ⟨p, x :: cs⟩ := rfl
  rw [token, run_bind_ok hc]
  have symbol {plain : Symbol} {longer : List (List Char × Symbol)}
      (ht : isTable x plain longer = true) : AnswersSplit p (splitToken x cs)
        ((operatorAmong plain longer >>= fun s => pure (.symbol s)).run ⟨p, x :: cs⟩) := by
    obtain ⟨s, ds, hs, hds, hr⟩ := run_operatorAmong_of_isTable p cs ht
    rw [run_bind_ok hr]
    exact ⟨_, splitToken_of_longestAt? hs hds hb, rfl⟩
  cases hsep : separator? x with
  | some s => exact symbol (isTable_of_separator? hsep)
  | none =>
    dsimp only
    by_cases hop : operatorLeads.contains x = true
    · rw [if_pos hop]
      obtain ⟨plain, longer, ho, ht⟩ := isTable_of_operators? hop
      have hr : operator x = operatorAmong plain longer := by rw [operator, ho]
      rw [hr]
      exact symbol ht
    · rw [if_neg hop]
      have hnone := longestAt?_eq_none cs hsep (Bool.eq_false_iff.2 hop)
      unfold splitToken
      by_cases hq : x = '\x27'
      · rw [if_pos hq, if_pos hq]
        exact hq ▸ run_quoted _ _
      rw [if_neg hq, if_neg hq]
      by_cases hq' : x = '\x22'
      · rw [if_pos hq', if_pos hq']
        exact hq' ▸ run_quoted _ _
      rw [if_neg hq', if_neg hq']
      by_cases hd : x.isDigit = true
      · rw [if_pos hd, if_pos hd, run_integer]
        exact ⟨_,rfl,rfl⟩
      rw [if_neg hd, if_neg hd]
      by_cases hw : Text.isWordChar x = true
      · rw [if_pos hw, if_pos hw, word, run_bind_ok (run_takeRun _ _)]
        exact ⟨_,rfl,rfl⟩
      rw [if_neg hw, if_neg hw, run_bind_ok run_position, if_neg (by simp [hb]), hnone]
      refine ⟨_, rfl, ?_⟩
      simp [Flaw.toError, Position.spanOver]

/-! All tokens. -/

/-- What the next step finds, as the scanner answers it. -/
def AnswersStep : Step → EStateM.Result Halt CharacterCursor (Option Located) → Prop
  | .done, r => ∃ d, r = .ok none d
  | .token l after, r => r = .ok (some l) ⟨after.position, after.text⟩
  | .error e, r => ∃ d, r = .error (.rejected e) d

theorem run_next (c : CharacterCursor) : AnswersStep c.tail.step (next.run c) := by
  obtain ⟨d, hr, hskip, hbare⟩ | ⟨e, d, hr, he⟩ := run_layout c
  · rw [next, run_bind_ok hr, hskip.step_eq]
    obtain ⟨p, cs⟩ := d
    cases cs with
    | nil => exact ⟨_,rfl⟩
    | cons x xs =>
      have hb : (hasNextAt 1).run ⟨p, x :: xs⟩ = .ok true ⟨p, x :: xs⟩ := by
        simp [run_hasNextAt]
      have ht := run_token (p := p) hbare.2
      simp only [Tail.step, CharacterCursor.tail, hbare.1, Position.after_nil]
      rw [run_bind_ok hb, if_pos rfl, run_bind_ok run_position]
      cases hr : token.run ⟨p, x :: xs⟩ with
      | ok t d =>
        rw [hr] at ht
        obtain ⟨taken, hs, hd⟩ := ht
        rw [run_bind_ok hr, run_bind_ok run_position, hs]
        simp only [AnswersStep, Position.spanOver, ← hd]
        rfl
      | error h d =>
        rw [hr] at ht
        rw [run_bind_error hr]
        cases h with
        | rejected e =>
          obtain ⟨flaw, hs, rfl⟩ := ht
          rw [hs]
          exact ⟨d,rfl⟩
        | broken f => exact ht.elim
        | noOperator lead => exact ht.elim
  · rw [next, run_bind_error hr, he]
    exact ⟨d,rfl⟩

/-- All answers, as the scanner gives them: the tokens, or the error that ends them. -/
def AnswersScan (found : Scan) : EStateM.Result Halt CharacterCursor (List Located) → Prop
  | .ok ls _ => found = ⟨ls, none⟩
  | .error (.rejected e) _ => found.error = some e
  | .error _ _ => False

theorem run_collect_next (c : CharacterCursor) : ∀ n, c.ahead.length ≤ n →
    AnswersScan (scanWithin n c.tail) ((collect next).run c) := by
  refine collect_induct (P := fun c r => ∀ n, c.ahead.length ≤ n →
    AnswersScan (scanWithin n c.tail) r) ?_ c
  intro c
  have hstep := run_next c
  cases hs : c.tail.step with
  | done =>
    rw [hs] at hstep
    obtain ⟨d, hr⟩ := hstep
    rw [hr]
    intro n _
    cases n with
    | zero => rfl
    | succ n => simp only [scanWithin, hs, AnswersScan]
  | token l after =>
    rw [hs] at hstep
    have hr : next.run c = .ok (some l) ⟨after.position, after.text⟩ := hstep
    have hlt : after.text.length < c.ahead.length := length_lt_of_step hs
    rw [hr]
    refine ⟨hlt, fun r hP n hn => ?_⟩
    cases n with
    | zero => omega
    | succ n =>
      have hrest := hP n (by dsimp only; omega)
      simp only [scanWithin, hs]
      cases r with
      | ok ls d =>
        have hscan : scanWithin n after = ⟨ls,none⟩ := hrest
        simp only [hscan, prepend, AnswersScan]
      | error h d =>
        cases h with
        | rejected e => exact hrest
        | broken f => exact hrest.elim
        | noOperator lead => exact hrest.elim
  | error e =>
    rw [hs] at hstep
    obtain ⟨d, hr⟩ := hstep
    rw [hr]
    intro n hn
    cases n with
    | zero =>
      have hnil : c.tail.text = [] := List.length_eq_zero_iff.1 (Nat.le_zero.1 hn)
      rw [step_of_nil (by rw [hnil]; rfl)] at hs
      cases hs
    | succ n => simp only [scanWithin, hs, AnswersScan]

/-- The scanner gives the tokens of a source, or the error that it has instead. -/
theorem run_tokens (source : String) :
    (∃ ls d, tokens.run (.ofSource source) = .ok ls d ∧ tokenize source = .ok ls) ∨
    ∃ e d, tokens.run (.ofSource source) = .error (.rejected e) d ∧ tokenize source = .error e := by
  have h : AnswersScan (scan source) (tokens.run (.ofSource source)) :=
    run_collect_next (.ofSource source) _ (Nat.le_refl _)
  unfold tokenize
  cases hr : tokens.run (.ofSource source) with
  | ok ls d =>
    rw [hr] at h
    have hscan : scan source = ⟨ls,none⟩ := h
    exact .inl ⟨ls, d, rfl, by rw [hscan]⟩
  | error f d =>
    rw [hr] at h
    cases f with
    | rejected e =>
      have hscan : (scan source).error = some e := h
      exact .inr ⟨e, d, rfl, by simp only [hscan]⟩
    | broken f => exact h.elim
    | noOperator lead => exact h.elim

end ClassText.Lexeme.Scanner
