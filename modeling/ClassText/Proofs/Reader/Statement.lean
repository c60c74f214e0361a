import ClassText.Proofs.Reader.Expr
import ClassText.Proofs.Reader.TypeExpr
import ClassText.Reader.Statement

/-! The reader of statements reads exactly the statements of the grammar. Looking at two tokens is
enough to choose between a local declaration and a chain. -/
namespace ClassText

open Grammar

namespace Phrase

theorem initializer_of_behind {p us : List Token} {o : Option Expr}
    (h : behind (.symbol .assign) expression p o us) : Optional DerivesInitializer p o := by
  cases o with
  | none =>
    obtain ⟨rfl, -⟩ := h
    exact .none
  | some e =>
    obtain ⟨q, rfl, hq, -⟩ := h
    exact .some (.intro hq)

/-- A value behind the sign of assignment, or nothing. -/
theorem behind_assign_iff {p us : List Token} {o : Option Expr} :
    behind (.symbol .assign) expression p o (.symbol .semicolon :: us) ↔
      Optional DerivesInitializer p o := by
  refine ⟨initializer_of_behind, fun h => ?_⟩
  cases h with
  | none => exact ⟨rfl, by simp⟩
  | @some _ e h =>
    obtain ⟨hq⟩ := h
    exact ⟨_, rfl, hq, e.endsBefore_of_head? rfl (by decide) (by simp) (by simp)⟩

/-- A local declaration, without the word `final`. -/
def localDeclaration (isFinal : Bool) : Phrase Statement := fun p st _ =>
  ∃ (q r : List Token) (type : TypeExpr) (n : Name) (value : Option Expr),
    p = q ++ .identifier n.text :: (r ++ [.symbol .semicolon]) ∧ DerivesType q type ∧
    Optional DerivesInitializer r value ∧ st = .declareLocal isFinal type n value

/-- What follows a chain depends on its last link. -/
def afterChain : Expr → Phrase Statement
  | .field base n => fun p st _ => ∃ (r : List Token) (value : Expr),
      p = .symbol .assign :: (r ++ [.symbol .semicolon]) ∧ DerivesExpr r value ∧
      st = .assignField base n value
  | .call base n es => fun p st _ => p = [.symbol .semicolon] ∧ st = .callMethod base n es
  | _ => fun _ _ _ => False

/-- An assignment to a field or a call. -/
def chainStatement : Phrase Statement := fun p st _ =>
  (∃ (q r : List Token) (base value : Expr) (n : Name),
    p = q ++ .symbol .assign :: (r ++ [.symbol .semicolon]) ∧ DerivesChain q (.field base n) ∧
    DerivesExpr r value ∧ st = .assignField base n value) ∨
  ∃ (q : List Token) (base : Expr) (n : Name) (es : List Expr),
    p = q ++ [.symbol .semicolon] ∧ DerivesChain q (.call base n es) ∧ st = .callMethod base n es

/-- The statements of the grammar, by what is read first. -/
theorem statement_iff (us : List Token) {p : List Token} {st : Statement} : DerivesStatement p st ↔
    (∃ q, p = .keyword .final :: q ∧ localDeclaration true q st us) ∨
    localDeclaration false p st us ∨
    (∃ (q : List Token) (value : Expr), p = .keyword .«return» :: (q ++ [.symbol .semicolon]) ∧
      DerivesExpr q value ∧ st = .returnValue value) ∨
    (p = [.symbol .semicolon] ∧ st = .empty) ∨ chainStatement p st us := by
  constructor
  · intro h
    cases h with
    | @declareLocal p type q n r value isFinal hp hq hr =>
      cases hq
      have hl : localDeclaration isFinal (p ++ .identifier n.text :: (r ++ [.symbol .semicolon]))
          (.declareLocal isFinal type n value) us := ⟨p, r, type, n, value, rfl, hp, hr, rfl⟩
      cases isFinal with
      | true => exact .inl ⟨_, by simp [finalWord], hl⟩
      | false => exact .inr (.inl (by simpa [finalWord] using hl))
    | @returnValue p value hp => exact .inr (.inr (.inl ⟨p, value, rfl, hp, rfl⟩))
    | empty => exact .inr (.inr (.inr (.inl ⟨rfl,rfl⟩)))
    | @assignField p base n q value hp hq =>
      cases hq with
      | @intro q _ hq =>
        exact .inr (.inr (.inr (.inr (.inl ⟨p, q, base, value, n, by simp, hp, hq, rfl⟩))))
    | @callMethod p base n es hp =>
      exact .inr (.inr (.inr (.inr (.inr ⟨p, base, n, es, rfl, hp, rfl⟩))))
  · rintro (⟨_, rfl, q, r, type, n, value, rfl, hq, hr, rfl⟩ |
      ⟨q, r, type, n, value, rfl, hq, hr, rfl⟩ | ⟨q, value, rfl, hq, rfl⟩ | ⟨rfl, rfl⟩ |
      ⟨q, r, base, value, n, rfl, hq, hr, rfl⟩ | ⟨q, base, n, es, rfl, hq, rfl⟩)
    · have h : DerivesStatement (finalWord true ++ q ++ [.identifier n.text] ++ r ++
          [.symbol .semicolon]) _ :=
        .declareLocal hq (.intro n) hr (by simpa using opensLocal_of_declared true hq)
      simpa [finalWord] using h
    · have h : DerivesStatement (finalWord false ++ q ++ [.identifier n.text] ++ r ++
          [.symbol .semicolon]) _ :=
        .declareLocal hq (.intro n) hr (by simpa using opensLocal_of_declared false hq)
      simpa [finalWord] using h
    · exact .returnValue hq
    · exact .empty
    · have h : DerivesStatement (q ++ .symbol .assign :: r ++ [.symbol .semicolon]) _ :=
        .assignField hq (.intro hr) (by
          rw [List.append_assoc]
          exact opensLocal_of_field hq)
      simpa using h
    · exact .callMethod hq (opensLocal_of_call hq)

theorem begins_of_localDeclaration {p us : List Token} {isFinal : Bool} {st : Statement}
    (h : localDeclaration isFinal p st us) : ∃ c q, p = c :: q ∧ BeginsType c := by
  obtain ⟨q, r, type, n, value, rfl, hq, -⟩ := h
  obtain ⟨c, q, rfl, hc⟩ := begins_of_type hq
  exact ⟨c, _, rfl, hc⟩

theorem begins_of_chainStatement {p us : List Token} {st : Statement}
    (h : chainStatement p st us) : ∃ name q, p = .identifier name :: q := by
  obtain ⟨q, r, base, value, n, rfl, hq, -⟩ | ⟨q, base, n, es, rfl, hq, -⟩ := h
  · obtain ⟨name, q, rfl⟩ := begins_of_chain _ hq
    exact ⟨name, _, rfl⟩
  · obtain ⟨name, q, rfl⟩ := begins_of_chain _ hq
    exact ⟨name, _, rfl⟩

theorem opensLocal_of_localDeclaration {p us : List Token} {isFinal : Bool} {st : Statement}
    (h : localDeclaration isFinal p st us) : opensLocal (p ++ us) = true := by
  obtain ⟨q, r, type, n, value, rfl, hq, -⟩ := h
  rw [List.append_assoc]
  exact opensLocal_of_type type hq (.inl ⟨n.text,rfl⟩)

theorem opensLocal_of_chainStatement {p us : List Token} {st : Statement}
    (h : chainStatement p st us) : opensLocal (p ++ us) = false := by
  obtain ⟨q, r, base, value, n, rfl, hq, -⟩ | ⟨q, base, n, es, rfl, hq, -⟩ := h
  · rw [List.append_assoc]
    exact opensLocal_of_field hq
  · rw [List.append_assoc]
    exact opensLocal_of_call hq

/-- The form of a statement with this first token. Of a name, the token behind it decides. -/
def statementBehind (c : Token) : Phrase Statement := fun q st us =>
  match c with
  | .keyword .final => localDeclaration true q st us
  | .keyword .«return» => ∃ (r : List Token) (value : Expr), q = r ++ [.symbol .semicolon] ∧
      DerivesExpr r value ∧ st = .returnValue value
  | .keyword _ => localDeclaration false (c :: q) st us
  | .identifier _ => if opensLocal (c :: (q ++ us)) then localDeclaration false (c :: q) st us
      else chainStatement (c :: q) st us
  | .symbol .semicolon => q = [] ∧ st = .empty
  | _ => False

theorem statement_cons_iff {c : Token} {q us : List Token} {st : Statement} :
    DerivesStatement (c :: q) st ↔ statementBehind c q st us := by
  rw [statement_iff us]
  constructor
  · rintro (⟨q, h, hq⟩ | hl | ⟨q, value, h, hq, rfl⟩ | ⟨h, rfl⟩ | hc)
    · cases h
      exact hq
    · obtain ⟨c, q, h, ⟨name, rfl⟩ | ⟨k, rfl⟩⟩ := begins_of_localDeclaration hl
      · cases h
        have ho := opensLocal_of_localDeclaration hl
        simp only [List.cons_append] at ho
        simpa only [statementBehind, ho, if_true] using hl
      · cases h
        cases k <;> exact hl
    · cases h
      exact ⟨q, value, rfl, hq, rfl⟩
    · cases h
      exact ⟨rfl,rfl⟩
    · obtain ⟨name, q, h⟩ := begins_of_chainStatement hc
      cases h
      have ho := opensLocal_of_chainStatement hc
      simp only [List.cons_append] at ho
      simpa only [statementBehind, ho, Bool.false_eq_true, if_false] using hc
  · intro h
    unfold statementBehind at h
    split at h
    · exact .inl ⟨q, rfl, h⟩
    · obtain ⟨r, value, rfl, hr, rfl⟩ := h
      exact .inr (.inr (.inl ⟨r, value, rfl, hr, rfl⟩))
    · exact .inr (.inl h)
    · split_ifs at h with ho
      · exact .inr (.inl h)
      · exact .inr (.inr (.inr (.inr h)))
    · obtain ⟨rfl, rfl⟩ := h
      exact .inr (.inr (.inr (.inl ⟨rfl,rfl⟩)))
    · exact h.elim

theorem localDeclaration_of_keyword {k : Keyword} {q us : List Token} {st : Statement}
    (hf : k ≠ .final) (hr : k ≠ .«return») (h : statementBehind (.keyword k) q st us) :
    localDeclaration false (.keyword k :: q) st us := by
  cases k with
  | final => exact (hf rfl).elim
  | «return» => exact (hr rfl).elim
  | _ => exact h

theorem statement_ne_nil {p : List Token} {st : Statement} (h : DerivesStatement p st) :
    p ≠ [] := by
  cases h <;> simp

end Phrase

namespace Reader.Reads

variable {s : Reading}

theorem initializer (hs : s.Visible) :
    Reads initializer s (Phrase.behind (.symbol .assign) Phrase.expression) :=
  oneBehind (by decide) hs fun _ hu _ => expression hu

theorem localDeclaration (hs : s.Visible) (isFinal : Bool) :
    Reads (localDeclaration isFinal) s (Phrase.localDeclaration isFinal) := by
  refine ((typeExpr hs).bind fun type _ u hu _ _ => bind_identifier hu fun name v hv _ hname =>
    unlessAtEnd ((initializer hv).bind fun value _ w hw _ _ => bind_expect hw (by decide) fun x hx _ =>
      bind_name hx hname fun n y hy => pure hy (Statement.declareLocal isFinal type n value))
      (tooFew hv _ fun _ _ _ _ h => h) ?_).congr fun p st us _ => ?_
  · rintro b ⟨q, r, o, h, -, _, h', -⟩
    obtain ⟨-, rfl⟩ := List.append_eq_nil_iff.1 h.symm
    cases h'
  · constructor
    · rintro ⟨q, _, type, rfl, ⟨hq, -⟩, _, _, rfl, r, _, value, rfl, hr, _, rfl, n, rfl, rfl, rfl⟩
      exact ⟨q, r, type, n, value, rfl, hq, Phrase.behind_assign_iff.1 hr, rfl⟩
    · rintro ⟨q, r, type, n, value, rfl, hq, hr, rfl⟩
      have htype : type.EndsBefore (.identifier n.text :: (r ++ [.symbol .semicolon]) ++ us) :=
        type.endsBefore_of_head? rfl (by simp) (by simp)
      exact ⟨q, _, type, rfl, ⟨hq,htype⟩, n.text, _, rfl, r, _, value, rfl,
        Phrase.behind_assign_iff.2 hr, [], rfl, n, rfl, rfl, rfl⟩

theorem afterChain (hs : s.Visible) (l : Located) (e : Expr) :
    Reads (afterChain l e) s (Phrase.afterChain e) := by
  cases e with
  | field base n =>
    refine (bind_expect hs (by decide) fun u hu _ => (expression hu).bind fun value _ v hv _ _ =>
      bind_expect hv (by decide) fun w hw _ => pure hw (Statement.assignField base n value)).congr
      fun p st us _ => ?_
    constructor
    · rintro ⟨_, rfl, r, _, value, rfl, ⟨hr, -⟩, _, rfl, rfl, rfl⟩
      exact ⟨r, value, rfl, hr, rfl⟩
    · rintro ⟨r, value, rfl, hr, rfl⟩
      have hvalue : value.EndsBefore (.symbol .semicolon :: us) :=
        value.endsBefore_of_head? rfl (by decide) (by simp) (by simp)
      exact ⟨_, rfl, r, _, value, rfl, ⟨hr,hvalue⟩, [], rfl, rfl, rfl⟩
  | call base n es =>
    refine (bind_expect hs (by decide) fun u hu _ =>
      pure hu (Statement.callMethod base n es)).congr fun p st us _ => ?_
    constructor
    · rintro ⟨_, rfl, rfl, rfl⟩
      exact ⟨rfl,rfl⟩
    · rintro ⟨rfl, rfl⟩
      exact ⟨[], rfl, rfl, rfl⟩
  | _ => exact ⟨hs, fun _ _ _ _ h => h⟩

theorem chainStatement (hs : s.Visible) : Reads chainStatement s Phrase.chainStatement := by
  apply bind_get
  split
  · next hc =>
    have hu : s.unread = [] := s.peek?_zero_eq_none_iff.1 (by simp [TokenCursor.peek?, hc])
    refine tooFew hs _ fun p st us hp h => ?_
    obtain ⟨rfl, rfl⟩ := List.append_eq_nil_iff.1 (hp.symm.trans hu)
    obtain ⟨q, r, _, _, _, h, -⟩ | ⟨q, _, _, _, h, -⟩ := h <;> simp at h
  · next l hc =>
    refine ((chain hs (Nat.le_refl _) fun u hu _ => expression hu).bind
      fun e _ t ht _ _ => afterChain ht l e).congr fun p st us _ => ?_
    constructor
    · rintro ⟨q, _, e, rfl, ⟨hq, -⟩, he⟩
      cases e with
      | field base n =>
        obtain ⟨r, value, rfl, hr, rfl⟩ := he
        exact .inl ⟨q, r, base, value, n, rfl, hq, hr, rfl⟩
      | call base n es =>
        obtain ⟨rfl, rfl⟩ := he
        exact .inr ⟨q, base, n, es, rfl, hq, rfl⟩
      | _ => exact he.elim
    · rintro (⟨q, r, base, value, n, rfl, hq, hr, rfl⟩ | ⟨q, base, n, es, rfl, hq, rfl⟩)
      · exact ⟨q, _, _, rfl, ⟨hq, Expr.operandEndsBefore_of_head? _ rfl (by simp) (by simp)⟩,
          r, value, rfl, hr, rfl⟩
      · exact ⟨q, _, _, rfl, ⟨hq, Expr.operandEndsBefore_of_head? _ rfl (by simp) (by simp)⟩,
          rfl, rfl⟩

/-- The second token counts for as much before compound symbols are taken apart as after. -/
theorem showsType_iff {name : String} (h : s.cursor.peek? 0 = some (.identifier name)) :
    showsType (s.cursor.peek? 1) = opensLocal s.unread := by
  rw [Reading.unread_eq_cons rfl h, ← Reading.peek?_advance]
  obtain ⟨hc, hu⟩ | ⟨t, hc, hu⟩ := s.advance.current_cases
  · simp [hc, hu, showsType, opensLocal]
  · rw [hc, hu]
    cases t with
    | symbol x => cases x <;> rfl
    | _ => rfl

/-- A statement that lies ahead begins with the current token. -/
theorem statementBehind_of_derives {c : Token} (hc : c.parts = [c]) (h : s.cursor.peek? 0 = some c)
    {p us : List Token} {st : Statement} (hp : s.unread = p ++ us) (hst : DerivesStatement p st) :
    ∃ q, p = c :: q ∧ Phrase.statementBehind c q st us := by
  rw [Reading.unread_eq_cons hc h] at hp
  cases p with
  | nil => exact absurd rfl (Phrase.statement_ne_nil hst)
  | cons d q =>
    obtain rfl := (List.cons.inj hp).1
    exact ⟨q, rfl, Phrase.statement_cons_iff.1 hst⟩

theorem finalDeclaration (hs : s.Visible) (hc : s.cursor.peek? 0 = some (.keyword .final)) :
    Reads (do Reader.skip; Reader.localDeclaration true) s fun p st _ => DerivesStatement p st := by
  refine (bind_skip hs rfl hc fun u hu _ => localDeclaration hu true).congr fun p st us hp => ?_
  constructor
  · rintro ⟨q, rfl, hq⟩
    exact Phrase.statement_cons_iff.2 (show Phrase.statementBehind _ q st us from hq)
  · intro h
    obtain ⟨q, rfl, hq⟩ := statementBehind_of_derives rfl hc hp h
    exact ⟨q, rfl, hq⟩

theorem returnStatement (hs : s.Visible) (hc : s.cursor.peek? 0 = some (.keyword .«return»)) :
    Reads (do
      Reader.skip
      let value ← Reader.expression
      Reader.expect (.symbol .semicolon)
      return .returnValue value) s fun p st _ => DerivesStatement p st := by
  refine (bind_skip hs rfl hc fun u hu _ => (expression hu).bind fun value _ v hv _ _ =>
    bind_expect hv (by decide) fun w hw _ => pure hw (Statement.returnValue value)).congr
    fun p st us hp => ?_
  constructor
  · rintro ⟨_, rfl, q, _, value, rfl, ⟨hq, -⟩, _, rfl, rfl, rfl⟩
    exact .returnValue hq
  · intro h
    obtain ⟨_, rfl, r, value, rfl, hr, rfl⟩ := statementBehind_of_derives rfl hc hp h
    have hvalue : value.EndsBefore (.symbol .semicolon :: us) :=
      value.endsBefore_of_head? rfl (by decide) (by simp) (by simp)
    exact ⟨_, rfl, r, _, value, rfl, ⟨hr,hvalue⟩, [], rfl, rfl, rfl⟩

theorem emptyStatement (hs : s.Visible) (hc : s.cursor.peek? 0 = some (.symbol .semicolon)) :
    Reads (do Reader.skip; return .empty) s fun p st _ => DerivesStatement p st := by
  refine (bind_skip hs rfl hc fun u hu _ => pure hu Statement.empty).congr fun p st us hp => ?_
  constructor
  · rintro ⟨_, rfl, rfl, rfl⟩
    exact .empty
  · intro h
    obtain ⟨_, rfl, rfl, rfl⟩ := statementBehind_of_derives rfl hc hp h
    exact ⟨[], rfl, rfl, rfl⟩

/-- Behind any other reserved word there is a declaration, if the word names a type. -/
theorem keywordStatement (hs : s.Visible) {k : Keyword} (hc : s.cursor.peek? 0 = some (.keyword k))
    (hf : k ≠ .final) (hr : k ≠ .«return») :
    Reads (if (Primitive.ofKeyword? k).isSome then Reader.localDeclaration false
      else Reader.unexpected .statement) s fun p st _ => DerivesStatement p st := by
  split_ifs with hk
  · refine (localDeclaration hs false).congr fun p st us hp => ?_
    constructor
    · exact fun hl => (Phrase.statement_iff us).2 (.inr (.inl hl))
    · intro h
      obtain ⟨q, rfl, hq⟩ := statementBehind_of_derives rfl hc hp h
      exact Phrase.localDeclaration_of_keyword hf hr hq
  · refine unexpected hs _ fun p st us hp h => ?_
    obtain ⟨q, rfl, hq⟩ := statementBehind_of_derives rfl hc hp h
    have hl := Phrase.localDeclaration_of_keyword hf hr hq
    obtain ⟨c, r, he, ⟨name, rfl⟩ | ⟨kind, rfl⟩⟩ := Phrase.begins_of_localDeclaration hl
    · cases he
    · cases he
      exact hk (by simp [Primitive.ofKeyword?_keyword])

theorem namedStatement (hs : s.Visible) {name : String}
    (hc : s.cursor.peek? 0 = some (.identifier name)) :
    Reads (do if showsType (← peek? 1) then Reader.localDeclaration false else Reader.chainStatement) s
      fun p st _ => DerivesStatement p st := by
  have hu := Reading.unread_eq_cons rfl hc
  apply bind_peek
  rw [showsType_iff hc]
  split_ifs with ho
  · refine (localDeclaration hs false).congr fun p st us hp => ?_
    constructor
    · exact fun hl => (Phrase.statement_iff us).2 (.inr (.inl hl))
    · intro h
      obtain ⟨q, rfl, hq⟩ := statementBehind_of_derives rfl hc hp h
      rw [hp] at ho
      simpa only [Phrase.statementBehind, ← List.cons_append, ho, if_true] using hq
  · refine (chainStatement hs).congr fun p st us hp => ?_
    constructor
    · exact fun hl => (Phrase.statement_iff us).2 (.inr (.inr (.inr (.inr hl))))
    · intro h
      obtain ⟨q, rfl, hq⟩ := statementBehind_of_derives rfl hc hp h
      rw [hp] at ho
      simpa only [Phrase.statementBehind, ← List.cons_append, ho, Bool.false_eq_true, if_false]
        using hq

/-- No statement begins with any other token. -/
theorem noStatement (hs : s.Visible) {t : Token} (hc : s.cursor.peek? 0 = some t)
    (hkeyword : ∀ k, t ≠ .keyword k) (hname : ∀ name, t ≠ .identifier name)
    (hempty : t ≠ .symbol .semicolon) :
    Reads (Reader.unexpected .statement) s fun p st _ => DerivesStatement p st := by
  refine unexpected hs _ fun p st us hp h => ?_
  cases p with
  | nil => exact Phrase.statement_ne_nil h rfl
  | cons d q =>
    have seen (hd : d.Plain) : t = d := by
      have := (Reading.head?_unread_iff hd).1 (by rw [hp]; rfl)
      exact Option.some.inj (hc.symm.trans this)
    have hq : Phrase.statementBehind d q st us := Phrase.statement_cons_iff.1 h
    unfold Phrase.statementBehind at hq
    split at hq
    · exact hkeyword _ (seen (Token.plain_keyword _))
    · exact hkeyword _ (seen (Token.plain_keyword _))
    · exact hkeyword _ (seen (Token.plain_keyword _))
    · exact hname _ (seen (Token.plain_identifier _))
    · exact hempty (seen (by decide))
    · exact hq

theorem statementBody (hs : s.Visible) :
    Reads statementBody s fun p st _ => DerivesStatement p st := by
  apply bind_current
  split
  · next hc =>
    refine tooFew hs _ fun p st us hp h => Phrase.statement_ne_nil h ?_
    rw [s.peek?_zero_eq_none_iff.1 hc] at hp
    exact (List.append_eq_nil_iff.1 hp.symm).1
  · next hc => exact finalDeclaration hs hc
  · next hc => exact returnStatement hs hc
  · next hc => exact emptyStatement hs hc
  · next k hf hr hc => exact keywordStatement hs hc (fun h => hf (h ▸ rfl)) fun h => hr (h ▸ rfl)
  · next name hc => exact namedStatement hs hc
  · next t _ _ hempty hkeyword hname hc =>
    exact noStatement hs hc (fun k h => hkeyword k h) (fun name h => hname name h) fun h => hempty h

theorem statement (hs : s.Visible) : Reads statement s fun p st _ => DerivesStatement p st := by
  refine ((statementBody hs).bind fun st _ u hu _ _ => bind_record hu fun v hv _ =>
    pure hv st).congr fun p st us _ => ?_
  rw [Phrase.andThen_nil]
  constructor
  · rintro ⟨_, hp, rfl⟩
    exact hp
  · exact fun hp => ⟨st,hp,rfl⟩

end Reader.Reads
end ClassText
