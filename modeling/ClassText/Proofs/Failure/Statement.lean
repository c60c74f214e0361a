import ClassText.Proofs.Failure.Expr
import ClassText.Proofs.Failure.TypeExpr
import ClassText.Proofs.Reader.Statement

/-! Where the reader of statements stops: wherever any statement may stand. A statement that begins with
a lone variable is refused behind it; that a name alone may still be followed by what makes a type of it
is seen only with more tokens. -/
namespace ClassText.Reader.Accords

open Grammar

variable {p : List Token} {more : List Located} {s : Reading}

theorem initializer (hs : s.Visible) (hp : Opens DerivesExpr (p ++ [.symbol .assign])) :
    Accords p more initializer initializer s :=
  ifAccept hs (by decide)
    (fun u hu _ => (expression hu hp).bind (Reads.expression hu) fun e _ _ _ _ _ => pure (some e))
    fun _ _ _ _ => pure none

/-- What a local declaration consists of may stand piece by piece. -/
theorem opens_localDeclaration {isFinal : Bool}
    (hp : ∀ w st, Phrase.localDeclaration isFinal w st [] → Viable (p ++ w)) {q : List Token}
    {type : TypeExpr} (hq : DerivesType q type) (n : Name) {r : List Token} {value : Option Expr}
    (hr : Optional DerivesInitializer r value) :
    Viable (p ++ q ++ [.identifier n.text] ++ r ++ [.symbol .semicolon]) := by
  simpa using hp _ _ ⟨q, r, type, n, value, rfl, hq, hr, rfl⟩

theorem localDeclaration (hs : s.Visible) {isFinal : Bool}
    (hp : ∀ w st, Phrase.localDeclaration isFinal w st [] → Viable (p ++ w)) :
    Accords p more (localDeclaration isFinal) (localDeclaration isFinal) s := by
  have htype : Opens DerivesType p := fun q type hq =>
    (opens_localDeclaration hp hq someName .none).beginning (by simp)
  refine (typeExpr hs htype).bind (Reads.typeExpr hs) fun type q u hu _ hq => ?_
  refine bind_identifier hu
    (fun n => (opens_localDeclaration hp hq.1 n .none).beginning (by simp)) fun n v hv _ => ?_
  have hend : Viable (p ++ q ++ [.identifier n.text] ++ [.symbol .semicolon]) := by
    simpa using opens_localDeclaration hp hq.1 n .none
  have hvalue : Opens DerivesExpr (p ++ q ++ [.identifier n.text] ++ [.symbol .assign]) :=
    fun r value hr =>
      (opens_localDeclaration hp hq.1 n (.some (.intro hr))).beginning (by simp)
  refine unlessAtEnd (Reads.tooFew hv _ fun _ _ _ _ h => h) (fun hn => ?_) fun _ => ?_
  · exact endedBefore _ hn ((hvalue _ _ derivesExpr_some).beginning (List.prefix_append _ _)) hend
  · refine (initializer hv hvalue).bind (Reads.initializer hv) fun value r w hw _ hr => ?_
    have hclose := opens_localDeclaration hp hq.1 n (Phrase.initializer_of_behind hr)
    exact bind_expect hw (by decide) hclose fun _ _ _ => bind_build fun _ _ => pure _

/-- A value may be assigned to a chain that ends in a field. -/
theorem opens_assignField (hp : Opens DerivesStatement p) {q r : List Token} {base value : Expr}
    {n : Name} (hq : DerivesChain q (.field base n)) (hr : DerivesExpr r value) :
    Viable (p ++ q ++ [.symbol .assign] ++ r ++ [.symbol .semicolon]) := by
  have hlocal : opensLocal (q ++ .symbol .assign :: r ++ [.symbol .semicolon]) = false := by
    rw [List.append_assoc]
    exact opensLocal_of_field hq
  simpa using hp _ _ (.assignField hq (.intro hr) hlocal)

/-- What follows a chain that begins at `l` where any statement may stand. -/
theorem afterChain (hs : s.Visible) (hp : Opens DerivesStatement p) {q : List Token} {e : Expr}
    (hq : DerivesChain q e) {l : Located} (hl : q.head? = some l.token)
    (hbehind : q = [l.token] → s.cursor.behind.head? = some l) :
    Accords (p ++ q) more (afterChain l e) (afterChain l e) s := by
  cases e with
  | field base n =>
    have hassign : Opens DerivesExpr (p ++ q ++ [.symbol .assign]) := fun r value hr =>
      (opens_assignField hp hq hr).beginning (List.prefix_append _ _)
    refine bind_expect hs (by decide) (viable_of_admits (x := .expression) fun r ⟨value, hr⟩ =>
      hassign r value hr) fun u hu _ => ?_
    exact (expression hu hassign).bind (Reads.expression hu) fun value r v hv _ hr =>
      bind_expect hv (by decide) (opens_assignField hp hq hr.1) fun _ _ _ => pure _
  | call base n es =>
    have hclose : Viable (p ++ q ++ [.symbol .semicolon]) := by
      simpa using hp _ _ (.callMethod hq (opensLocal_of_call hq))
    exact bind_expect hs (by decide) hclose fun _ _ _ => pure _
  | «variable» x =>
    obtain ⟨x⟩ := hq
    have hl : l.token = .identifier x.text := (Option.some.inj hl).symm
    rw [← hl] at hbehind ⊢
    have hlast := hbehind rfl
    have hend : s.cursor.consumedEnd = l.span.stop := by simp [TokenCursor.consumedEnd, hlast]
    have hviable : Viable (p ++ [l.token]) := by
      rw [hl]
      exact hp.chain_of_statement _ _ (.variable x)
    refine ⟨.stay, .inr rfl, [], rfl, ?_⟩
    rw [List.append_nil, hend]
    exact .ambiguous hlast hl hviable hp
  | constant | binary | bracket => cases hq

theorem run_chainStatement {l : Located} {ls : List Located} (h : s.cursor.ahead = l :: ls) :
    Reader.chainStatement.run s = (Reader.chain Reader.expression >>= Reader.afterChain l).run s := by
  have hget : (get : Reader Reading).run s = .ok s s := rfl
  have hl : s.cursor.get? 0 = some l := by simp [TokenCursor.get?, h]
  rw [Reader.chainStatement, run_bind, hget]
  dsimp only
  rw [hl]

/-- A chain that stands where any statement may, and what follows it. -/
theorem chainStatement (hs : s.Visible) (hp : Opens DerivesStatement p) :
    Accords p more chainStatement chainStatement s := by
  cases hahead : s.cursor.ahead with
  | nil =>
    have hc : s.cursor.get? 0 = none := by simp [TokenCursor.get?, hahead]
    apply bind_get
    rw [hc]
    refine ended _ hahead ?_
    rintro w ⟨st, hw⟩
    exact hp w st hw
  | cons l ls =>
    have hchain : Accords p more (Reader.chain Reader.expression) (Reader.chain Reader.expression) s :=
      chain hs (Nat.le_refl _) hp.chain_of_statement (fun u hu _ => Reads.expression hu)
        fun q u hq hu _ => expression hu hq
    refine (hchain.bind_moving (Reads.chain hs (Nat.le_refl _) fun u hu _ => Reads.expression hu)
      fun e q t ht hm hst hq => ?_).of_run_eq (run_chainStatement hahead)
      (run_chainStatement (by rw [Reading.extend, hahead]; rfl))
    obtain ⟨name, r, rfl⟩ := Phrase.begins_of_chain e hq.1
    have hl : l.token = .identifier name := by
      have hseen := (Reading.head?_unread_iff (Token.plain_identifier name)).1 (by rw [hst]; rfl)
      rw [Reading.peek?_zero_of_ahead hahead] at hseen
      exact Option.some.inj hseen
    refine afterChain ht hp hq.1 (by rw [hl]; rfl) fun hone => hm.head?_behind hahead hl ?_
    have hlen := congrArg List.length hst
    rw [hone, List.length_append] at hlen
    exact hlen.trans (Nat.add_comm _ _)

/-- A name that is the last token is refused as a chain, though with more tokens it might begin a
type. -/
theorem chainStatement_last (r' : Reader Statement) (hs : s.Visible) (hp : Opens DerivesStatement p)
    {l : Located} (hahead : s.cursor.ahead = [l]) {name : String} (hl : l.token = .identifier name) :
    Accords p more Reader.chainStatement r' s := by
  have hunread : s.unread = [.identifier name] := by simp [Reading.unread, hahead, hl, Token.parts]
  let x : Name := ⟨name, hs name (by rw [hunread]; exact List.mem_cons_self)⟩
  have hchain : Phrase.chain [.identifier name] (.variable x) [] := by
    refine ⟨.variable x, ?_⟩
    rintro ⟨_, _, h⟩
    cases h
  obtain ⟨t, hrun, ht⟩ := (Reads.chain hs (Nat.le_refl _) fun u hu _ => Reads.expression hu).run_ok_iff.2
    ⟨_, hunread, hchain⟩
  have hend : Reader.chainStatement.run s = .error (.rejected (.ambiguousStatement l.position
      ⟨l.span.start, max t.cursor.consumedEnd l.span.start⟩)) t := by
    rw [run_chainStatement hahead, run_bind, hrun]
    rfl
  exact of_error_at_end r' (chainStatement hs hp) hend (Reading.unread_eq_nil_iff.1 ht)

/-- With nothing behind a name, it shows no type. -/
theorem run_ifShowsType {A B : Reader α} (h : s.cursor.peek? 1 = none) :
    (do if showsType (← peek? 1) then A else B : Reader α).run s = B.run s := by
  have hpeek : (peek? 1).run s = .ok (s.cursor.peek? 1) s := rfl
  rw [run_bind, hpeek, h]
  rfl

theorem statementBody (hs : s.Visible) (hp : Opens DerivesStatement p) :
    Accords p more statementBody statementBody s := by
  have hw : ∀ w, Expected.statement.Admits w → Viable (p ++ w) := fun w ⟨st, hst⟩ => hp w st hst
  have refused : Accords p more (Reader.unexpected .statement : Reader Statement)
      (Reader.unexpected .statement) s := unexpected hw
  have declared : Accords p more (Reader.localDeclaration false) (Reader.localDeclaration false) s :=
    localDeclaration hs fun w st hst => hp w st ((Phrase.statement_iff []).2 (.inr (.inl hst)))
  apply bind_current
  cases hc : s.cursor.peek? 0 with
  | none => exact ended _ (Reading.peek?_zero_eq_none.1 hc) hw
  | some t =>
    cases t with
    | keyword k =>
      cases k with
      | final =>
        refine bind_skip hs rfl hc fun u hu _ => localDeclaration hu fun w st hst => ?_
        simpa using hp _ st ((Phrase.statement_iff []).2 (.inl ⟨w, rfl, hst⟩))
      | «return» =>
        have hclose : ∀ q e, DerivesExpr q e →
            Viable (p ++ [.keyword .«return»] ++ q ++ [.symbol .semicolon]) := fun q e hq => by
          simpa using hp _ _ (.returnValue hq)
        refine bind_skip hs rfl hc fun u hu _ => ?_
        exact (expression hu fun q e hq => (hclose q e hq).beginning (List.prefix_append _ _)).bind
          (Reads.expression hu) fun value q v hv _ hq =>
            bind_expect hv (by decide) (hclose q value hq.1) fun _ _ _ => pure _
      | _ => first | exact declared | exact refused
    | symbol x =>
      cases x with
      | semicolon => exact bind_skip hs rfl hc fun _ _ _ => pure _
      | _ => exact refused
    | identifier name =>
      dsimp only
      by_cases hlong : 1 < s.cursor.ahead.length
      · apply bind_peek hlong
        split_ifs
        · exact declared
        · exact chainStatement hs hp
      · obtain ⟨l, hahead, hl⟩ := Reading.ahead_eq_singleton hc hlong
        have hnext : s.cursor.peek? 1 = none := by simp [TokenCursor.peek?, TokenCursor.get?, hahead]
        exact (chainStatement_last _ hs hp hahead hl).of_run_eq (run_ifShowsType hnext) rfl
    | _ => exact refused

theorem statement (hs : s.Visible) (hp : Opens DerivesStatement p) :
    Accords p more statement statement s :=
  (statementBody hs hp).bind (Reads.statementBody hs) fun _ _ _ _ _ _ => bind_record fun _ _ => pure _

end ClassText.Reader.Accords
