import ClassText.Proofs.Failure.Statement
import ClassText.Proofs.Reader.Member

/-! Where the reader of members stops: wherever any member may stand. -/
namespace ClassText

open Grammar

/-- Parameters that are read derive parameters, whatever follows. -/
theorem Phrase.derives_of_parameters {p us : List Token} {ps : List Parameter}
    (h : parameters p ps us) : DerivesParameters p ps := by
  obtain ⟨rfl, rfl, -⟩ | ⟨first, others, q, r, rfl, rfl, hq, hr⟩ := h
  · exact .nil
  · exact .some (.intro hq (hr.further (D := DerivesParameter) fun _ _ _ h => h))

namespace Reader.Accords

variable {p : List Token} {more : List Located} {s : Reading}

theorem modifier? (hs : s.Visible) : Accords p more modifier? modifier? s := by
  apply bind_current
  cases hc : s.cursor.peek? 0 with
  | none => exact pure none
  | some t =>
    cases t with
    | keyword k =>
      dsimp only
      cases Modifier.ofKeyword? k with
      | none => exact pure none
      | some m => exact bind_skip hs rfl hc fun _ _ _ => pure (some m)
    | _ => exact pure none

/-- Modifiers are never missed, so nothing is refused. -/
theorem modifiers (hs : s.Visible) : Accords p more modifiers modifiers s :=
  collect (I := fun _ => True) (fun _ _ _ => Phrase.modifier_ne_nil) (fun _ _ _ _ _ _ => trivial) hs
    (fun _ ht _ => Reads.modifier? ht) (fun _ _ _ ht _ => modifier? ht) trivial

/-- Items up to a closing brace, wherever the brace may stand behind any of them. -/
theorem itemsAndBrace {x x' : Reader Unit} {read read' : Reader α} {D : List Token → α → Prop}
    (hs : s.Visible) (hx : ∀ t, t.Visible → Reads x t fun _ _ _ => False)
    (hreads : ∀ t, t.Visible → Reads read t fun p a _ => D p a)
    (hD : ∀ p a, D p a → ∃ c q, p = c :: q ∧ c ≠ .symbol .rightBrace)
    (hp : ∀ q as, Sequence D q as → Viable (p ++ q ++ [.symbol .rightBrace]))
    (hend : ∀ r t, Viable (r ++ [.symbol .rightBrace]) → Opens D r → t.cursor.ahead = [] →
      Accords r more x x' t)
    (hread : ∀ r t, Opens D r → t.Visible → Accords r more read read' t) :
    Accords p more
      (Reader.collect do
        if ← atEnd then x
        if ← Reader.accept (.symbol .rightBrace) then return none else return some (← read))
      (Reader.collect do
        if ← atEnd then x'
        if ← Reader.accept (.symbol .rightBrace) then return none else return some (← read')) s := by
  refine collect (P := Phrase.item D) (I := fun r => ∃ q as, r = p ++ q ∧ Sequence D q as) ?_ ?_ hs
    (fun t ht _ => Reads.itemOrBrace ht (hx t ht) hreads hD) ?_ ⟨[], [], by simp, .nil⟩
  · rintro q a us h
    obtain ⟨c, q, rfl, -⟩ := hD q a h
    exact List.cons_ne_nil c q
  · rintro _ q a us ⟨r, as, rfl, hr⟩ h
    exact ⟨_, _, List.append_assoc .., hr.snoc h⟩
  · rintro _ t ⟨q, as, rfl, hq⟩ ht -
    have hopens : Opens D (p ++ q) := fun w a hw =>
      (hp _ _ (hq.snoc hw)).beginning (by simp)
    refine unlessAtEnd (hx t ht) (hend _ t (hp q as hq) hopens) fun _ => ?_
    refine ifAccept ht (by decide) (fun _ _ _ => pure none) fun u hu _ _ => ?_
    exact (hread _ u hopens hu).bind (hreads u hu) fun a _ _ _ _ _ => pure (some a)

theorem body (hs : s.Visible)
    (hp : ∀ q sts, Sequence DerivesStatement q sts → Viable (p ++ q ++ [.symbol .rightBrace])) :
    Accords p more body body s :=
  itemsAndBrace hs (fun _ ht => Reads.tooFewInBody ht fun _ _ _ _ h => h) (fun _ => Reads.statement)
    (fun _ _ => Reads.ne_rightBrace_of_statement) hp
    (fun r _ hr _ ht => tooFewInBody _ ht (hr.beginning (List.prefix_append r _)))
    fun _ _ hr ht => statement ht hr

theorem fieldRest (hs : s.Visible) (ms : List Modifier) (type : TypeExpr) (n : Name)
    (hp : ∀ r value, Optional DerivesInitializer r value → Viable (p ++ r ++ [.symbol .semicolon])) :
    Accords p more (fieldRest ms type n.text) (fieldRest ms type n.text) s := by
  have hend : Viable (p ++ [.symbol .semicolon]) := by simpa using hp _ _ .none
  have hclose : ∀ q value, DerivesExpr q value →
      Viable (p ++ [.symbol .assign] ++ q ++ [.symbol .semicolon]) := fun q value hq => by
    simpa using hp _ _ (.some (.intro hq))
  have hvalue : Opens DerivesExpr (p ++ [.symbol .assign]) := fun q value hq =>
    (hclose q value hq).beginning (List.prefix_append _ _)
  have hassign : Viable (p ++ [.symbol .assign]) :=
    (hvalue _ _ derivesExpr_some).beginning (List.prefix_append _ _)
  refine unlessAtEnd (Reads.tooFew hs _ fun _ _ _ _ h => h) (fun hn => endedBefore _ hn hassign hend)
    fun _ => ?_
  refine ifAccept hs (by decide) (fun _ _ _ => bind_build fun _ _ => pure _) fun u hu _ _ => ?_
  refine bind_expect hu (by decide) hassign fun v hv _ => ?_
  exact (expression hv hvalue).bind (Reads.expression hv) fun value q w hw _ hq =>
    bind_expect hw (by decide) (hclose q value hq.1) fun _ _ _ => bind_build fun _ _ => pure _

theorem parameter (hs : s.Visible) (hp : Opens DerivesParameter p) :
    Accords p more parameter parameter s := by
  refine (accept hs rfl).bind (Reads.accept hs (by decide)) fun isFinal w t ht _ hw => ?_
  obtain rfl : w = finalWord isFinal := by
    cases isFinal with
    | true => exact hw
    | false => exact hw.1
  have whole : ∀ q type (n : Name), DerivesType q type →
      Viable (p ++ finalWord isFinal ++ q ++ [.identifier n.text]) := fun q type n hq => by
    simpa using hp _ _ (.intro hq (.intro n))
  refine (typeExpr ht fun q type hq => (whole q type someName hq).beginning
    (List.prefix_append _ _)).bind (Reads.typeExpr ht) fun type q u hu _ hq => ?_
  exact bind_identifier hu (fun n => whole q type n hq.1) fun n v _ _ => bind_build fun _ _ => pure _

theorem parameters (hs : s.Visible)
    (hp : ∀ r ps, DerivesParameters r ps → Viable (p ++ r ++ [.symbol .rightParen])) :
    Accords p more parameters parameters s := by
  apply bind_sees
  by_cases h : s.cursor.peek? 0 = some (.symbol .rightParen)
  · simp only [h, decide_true, if_true]
    exact pure []
  · simp only [h, decide_false, Bool.false_eq_true, if_false]
    have hfirst : Opens DerivesParameter p := fun w a hw =>
      (hp _ _ (.some (.intro hw .nil))).beginning (by simp)
    refine (parameter hs hfirst).bind (Reads.parameter hs) fun first q u hu _ hq => ?_
    exact (eachBehind (D := DerivesParameter) (by decide) (fun _ _ _ h => h) hu (fun _ ht _ => Reads.parameter ht)
      (fun _ _ hr ht _ => parameter ht hr) fun r as hr w a hw =>
        (hp _ _ (.some (.intro hq (hr.snoc hw)))).beginning (by simp)).bind
      (Reads.eachBehind (by decide) hu fun _ ht _ => Reads.parameter ht)
      fun others _ _ _ _ _ => pure (first :: others)

/-- Parameters behind an opening parenthesis, and a body behind the closing one. -/
theorem methodRest (hs : s.Visible) (ms : List Modifier) (result : TypeExpr) (n : Name)
    (hp : ∀ r ps b body, DerivesParameters r ps → DerivesBody b body →
      Viable (p ++ [.symbol .leftParen] ++ r ++ [.symbol .rightParen] ++ b)) :
    Accords p more (methodRest ms result n.text) (methodRest ms result n.text) s := by
  have hclose : ∀ r ps, DerivesParameters r ps →
      Viable (p ++ [.symbol .leftParen] ++ r ++ [.symbol .rightParen]) := fun r ps hr =>
    (hp r ps _ _ hr .none).beginning (List.prefix_append _ _)
  have hopen : Viable (p ++ [.symbol .leftParen]) := (hclose _ _ .nil).beginning (by simp)
  refine bind_expect hs (by decide) hopen fun t ht _ => ?_
  refine (parameters ht hclose).bind (Reads.parameters ht) fun ps r u hu _ hr => ?_
  have hr := Phrase.derives_of_parameters hr
  refine bind_expect hu (by decide) (hclose r ps hr) fun v hv _ => ?_
  have hend : Viable (p ++ [.symbol .leftParen] ++ r ++ [.symbol .rightParen] ++ [.symbol .semicolon]) :=
    hp r ps _ _ hr .none
  have hbody : ∀ q sts, Sequence DerivesStatement q sts → Viable (p ++ [.symbol .leftParen] ++ r ++
      [.symbol .rightParen] ++ [.symbol .leftBrace] ++ q ++ [.symbol .rightBrace]) := fun q sts hq => by
    simpa using hp r ps _ _ hr (.some hq)
  have hbrace : Viable (p ++ [.symbol .leftParen] ++ r ++ [.symbol .rightParen] ++
      [.symbol .leftBrace]) := (hbody _ _ .nil).beginning (by simp)
  refine unlessAtEnd (Reads.tooFew hv _ fun _ _ _ _ h => h) (fun hn => endedBefore _ hn hend hbrace)
    fun _ => ?_
  refine ifAccept hv (by decide) (fun _ _ _ => bind_build fun _ _ => pure _) fun w hw _ _ => ?_
  refine bind_expect hw (by decide) hbrace fun x hx _ => ?_
  exact (body hx hbody).bind (Reads.body hx) fun _ _ _ _ _ _ => bind_build fun _ _ => pure _

/-- A parenthesis behind the name opens a method; what else comes there belongs to a field. -/
theorem memberRest (hs : s.Visible) (ms : List Modifier) (type : TypeExpr) (n : Name)
    (hp : ∀ w m, Phrase.memberRest ms type n.text w m [] → Viable (p ++ w)) :
    Accords p more (memberRest ms type n.text) (memberRest ms type n.text) s := by
  apply bind_sees
  by_cases h : s.cursor.peek? 0 = some (.symbol .leftParen)
  · simp only [h, decide_true, if_true]
    refine (methodRest hs ms type n fun r ps b body hr hb => ?_).bind
      (Reads.methodRest hs ms type n.visible) fun _ _ _ _ _ _ => bind_record fun _ _ => pure _
    simpa using hp _ _ (.inl ⟨r, b, n, ps, body, rfl, hr, hb, rfl, rfl⟩)
  · simp only [h, decide_false, Bool.false_eq_true, if_false]
    refine (fieldRest hs ms type n fun r value hr => ?_).bind
      (Reads.fieldRest hs ms type n.visible) fun _ _ _ _ _ _ => bind_record fun _ _ => pure _
    simpa using hp _ _ (.inr ⟨r, n, value, rfl, hr, rfl, rfl⟩)

theorem member (hs : s.Visible) (hp : Opens DerivesMember p) : Accords p more member member s := by
  refine (modifiers hs).bind (Reads.modifiers hs) fun ms w t ht _ hw => ?_
  obtain ⟨rfl, -⟩ := hw
  have field : ∀ q type (n : Name) r value, DerivesType q type → Optional DerivesInitializer r value →
      Viable (p ++ modifierWords ms ++ q ++ [.identifier n.text] ++ (r ++ [.symbol .semicolon])) :=
    fun q type n r value hq hr => by simpa using hp _ _ (.field hq (.intro n) hr)
  have htype : Opens DerivesType (p ++ modifierWords ms) := fun q type hq =>
    (field q type someName _ _ hq .none).beginning (by simp)
  refine (typeExpr ht htype).bind (Reads.typeExpr ht) fun type q u hu _ hq => ?_
  refine bind_identifier hu (fun n => (field q type n _ _ hq.1 .none).beginning
    (List.prefix_append _ _)) fun n v hv _ => memberRest hv ms type n ?_
  rintro _ _ (⟨r, b, x, ps, body, rfl, hr, hb, hx, -⟩ | ⟨r, x, value, rfl, hr, hx, -⟩)
  · rw [← hx]
    simpa using hp _ _ (.method hq.1 (.intro x) hr hb)
  · exact field q type n r value hq.1 hr

/-- Wherever a member may stand, so may a type. -/
theorem opens_type_of_member (hp : Opens DerivesMember p) : Opens DerivesType p := by
  intro q type hq
  have hfield : DerivesMember (modifierWords [] ++ q ++ [.identifier someName.text] ++ [] ++
      [.symbol .semicolon]) _ := .field hq (.intro someName) .none
  exact (hp _ _ hfield).beginning (by simp [modifierWords])

theorem members (hs : s.Visible)
    (hp : ∀ q ms, Sequence DerivesMember q ms → Viable (p ++ q ++ [.symbol .rightBrace])) :
    Accords p more members members s := by
  refine itemsAndBrace hs (fun _ ht => Reads.tooFew ht _ fun _ _ _ _ h => h) (fun _ => Reads.member)
    (fun _ _ => Reads.ne_rightBrace_of_member) hp (fun r t hbrace hr ht => ?_)
    fun _ _ hr ht => member ht hr
  refine tooFew _ ht (hbrace.beginning (List.prefix_append r _)) fun x hx w hw => ?_
  obtain rfl | hx := List.mem_cons.1 hx
  · obtain rfl : w = [.symbol .rightBrace] := hw
    exact hbrace
  · obtain rfl := List.mem_singleton.1 hx
    obtain ⟨type, hw⟩ := hw
    exact opens_type_of_member hr w type hw

end Reader.Accords
end ClassText
