import ClassText.Proofs.Reader.Statement
import ClassText.Reader.Declaration

/-! The reader of members reads exactly the fields and methods of the grammar. -/
namespace ClassText

open Grammar

namespace Phrase

/-- One more modifier. -/
def modifier : Phrase (Option Modifier)
  | p, some m, _ => p = [.keyword m.keyword]
  | p, none, us => p = [] ∧ ∀ m : Modifier, us.head? ≠ some (.keyword m.keyword)

theorem modifier_ne_nil {p us : List Token} {m : Modifier} (h : modifier p (some m) us) : p ≠ [] := by
  obtain rfl : p = [.keyword m.keyword] := h
  exact List.cons_ne_nil _ _

theorem rounds_modifier_iff {p us : List Token} {ms : List Modifier} : Rounds modifier p ms us ↔
    p = modifierWords ms ∧ ∀ m : Modifier, us.head? ≠ some (.keyword m.keyword) := by
  constructor
  · intro h
    induction h with
    | stop h => exact h
    | @go p m q ms us h _ ih =>
      obtain ⟨rfl, hn⟩ := ih
      rw [show p = [.keyword m.keyword] from h]
      exact ⟨rfl,hn⟩
  · rintro ⟨rfl, hn⟩
    induction ms with
    | nil => exact .stop ⟨rfl,hn⟩
    | cons m ms ih => exact .go (p := [.keyword m.keyword]) rfl ih

/-- Items up to a closing brace. -/
def item (D : List Token → α → Prop) : Phrase (Option α)
  | p, some a, _ => D p a
  | p, none, _ => p = [.symbol .rightBrace]

theorem rounds_item_iff {D : List Token → α → Prop} {p us : List Token} {as : List α} :
    Rounds (item D) p as us ↔ ∃ q, p = q ++ [.symbol .rightBrace] ∧ Sequence D q as := by
  rw [rounds_iff (D := D) fun _ _ _ => Iff.rfl]
  constructor
  · rintro ⟨q, _, rfl, hq, rfl⟩
    exact ⟨q, rfl, hq⟩
  · rintro ⟨q, rfl, hq⟩
    exact ⟨q, _, rfl, hq, rfl⟩

/-- Parameters up to a closing parenthesis, or as far as commas reach. -/
def parameters : Phrase (List Parameter) := fun p ps us =>
  (p = [] ∧ ps = [] ∧ us.head? = some (.symbol .rightParen)) ∨
  ∃ (first : Parameter) (others : List Parameter) (q r : List Token), ps = first :: others ∧
    p = q ++ r ∧ DerivesParameter q first ∧
    Rounds (behind (.symbol .comma) fun p a _ => DerivesParameter p a) r others us

theorem parameters_iff {p us : List Token} {ps : List Parameter} :
    parameters p ps (.symbol .rightParen :: us) ↔ DerivesParameters p ps := by
  have further {r : List Token} {others : List Parameter} :
      Rounds (behind (.symbol .comma) fun p a _ => DerivesParameter p a) r others
        (.symbol .rightParen :: us) ↔ Further DerivesParameter .comma r others :=
    rounds_behind_iff (E := fun _ _ => True) (by simp) (by simp) (by simp) (by simp)
  constructor
  · rintro (⟨rfl, rfl, -⟩ | ⟨first, others, q, r, rfl, rfl, hq, hr⟩)
    · exact .nil
    · exact .some (.intro hq (further.1 hr))
  · intro h
    cases h with
    | nil => exact .inl ⟨rfl,rfl,rfl⟩
    | some h =>
      obtain ⟨hq, hr⟩ := h
      exact .inr ⟨_, _, _, _, rfl, rfl, hq, further.2 hr⟩

theorem begins_of_parameter {p : List Token} {a : Parameter} (h : DerivesParameter p a) :
    ∃ c q, p = c :: q ∧ (c = .keyword .final ∨ BeginsType c) := by
  obtain @⟨q, type, _, n, isFinal, hq, hn⟩ := h
  cases isFinal with
  | true => exact ⟨_, _, rfl, .inl rfl⟩
  | false =>
    obtain ⟨c, r, rfl, hc⟩ := begins_of_type hq
    exact ⟨c, _, rfl, .inr hc⟩

/-- A method behind its name, or a field. -/
def memberRest (ms : List Modifier) (type : TypeExpr) (name : String) : Phrase Member := fun p m _ =>
  (∃ (r b : List Token) (n : Name) (ps : List Parameter) (body : Option (List Statement)),
    p = .symbol .leftParen :: (r ++ .symbol .rightParen :: b) ∧ DerivesParameters r ps ∧
    DerivesBody b body ∧ n.text = name ∧ m = .method ⟨ms, type, n, ps, body⟩) ∨
  ∃ (r : List Token) (n : Name) (value : Option Expr), p = r ++ [.symbol .semicolon] ∧
    Optional DerivesInitializer r value ∧ n.text = name ∧ m = .field ⟨ms, type, n, value⟩

end Phrase

namespace Reader.Reads

variable {s : Reading}

theorem noModifier (hs : s.Visible)
    (h : ∀ m : Modifier, s.cursor.peek? 0 ≠ some (.keyword m.keyword)) :
    Reads (Pure.pure none) s Phrase.modifier := by
  simp only [Ne, ← Reading.head?_unread_iff (Token.plain_keyword _)] at h
  refine nothing hs ⟨rfl,h⟩ (fun p us hp => hp.1) fun p m us hp hm => h m ?_
  obtain rfl : p = [.keyword m.keyword] := hm
  rw [hp]
  rfl

theorem someModifier (hs : s.Visible) {m : Modifier}
    (hc : s.cursor.peek? 0 = some (.keyword m.keyword)) :
    Reads (do Reader.skip; return some m) s Phrase.modifier := by
  have hu := Reading.unread_eq_cons rfl hc
  refine (bind_skip hs rfl hc fun u hu _ => pure hu (some m)).congr fun p o us hp => ?_
  cases o with
  | none =>
    constructor
    · rintro ⟨_, _, _, h⟩
      cases h
    · rintro ⟨rfl, hn⟩
      exact absurd (by rw [← show s.unread = us from hp, hu]; rfl) (hn m)
  | some m' =>
    constructor
    · rintro ⟨_, rfl, rfl, h⟩
      cases h
      rfl
    · rintro rfl
      obtain ⟨h, -⟩ : m.keyword = m'.keyword ∧ _ := by simpa [hu] using hp
      obtain rfl := Modifier.keyword_injective h
      exact ⟨[], rfl, rfl, rfl⟩

theorem modifier? (hs : s.Visible) : Reads modifier? s Phrase.modifier := by
  apply bind_current
  split
  · next k hc =>
    split
    · next m hm =>
      obtain rfl := Modifier.keyword_of_ofKeyword? hm
      exact someModifier hs hc
    · next hm =>
      refine noModifier hs fun m h => ?_
      rw [hc] at h
      cases h
      simp [Modifier.ofKeyword?_keyword] at hm
  · next hk =>
    exact noModifier hs fun m h => hk _ h

theorem modifiers (hs : s.Visible) : Reads modifiers s fun p ms us =>
    p = modifierWords ms ∧ ∀ m : Modifier, us.head? ≠ some (.keyword m.keyword) :=
  (collect hs (fun _ ht _ => modifier? ht) fun _ _ _ => Phrase.modifier_ne_nil).congr
    fun _ _ _ _ => Phrase.rounds_modifier_iff

/-- Either the closing brace or one more item, which does not begin with it. -/
theorem itemOrBrace {x : Reader Unit} {read : Reader α} {D : List Token → α → Prop}
    (hs : s.Visible) (hx : Reads x s fun _ _ _ => False)
    (hread : ∀ t, t.Visible → Reads read t fun p a _ => D p a)
    (hD : ∀ p a, D p a → ∃ c q, p = c :: q ∧ c ≠ .symbol .rightBrace) :
    Reads (do
      if ← atEnd then x
      if ← Reader.accept (.symbol .rightBrace) then return none else return some (← read)) s
      (Phrase.item D) := by
  refine unlessAtEnd ?_ hx ?_
  · refine (ifAccept hs (by decide) (fun u hu _ => pure hu none) fun u hu _ _ =>
      (hread u hu).bind_pure some).congr fun p o us hp => ?_
    cases o with
    | none =>
      constructor
      · rintro (⟨_, rfl, rfl, -⟩ | ⟨-, _, _, h⟩)
        · rfl
        · cases h
      · rintro rfl
        exact .inl ⟨[], rfl, rfl, rfl⟩
    | some a =>
      constructor
      · rintro (⟨_, rfl, _, h⟩ | ⟨-, b, hq, h⟩)
        · cases h
        · cases h
          exact hq
      · intro hq
        obtain ⟨c, q, rfl, hc⟩ := hD p a hq
        exact .inr ⟨by simpa using hc, a, hq, rfl⟩
  · rintro (_ | a) h
    · cases h
    · obtain ⟨c, q, h, -⟩ := hD _ a h
      cases h

/-- Items are read until the brace that closes them, with which no item begins. -/
theorem itemsAndBrace {x : Reader Unit} {read : Reader α} {D : List Token → α → Prop}
    (hs : s.Visible) (hx : ∀ t, t.Visible → Reads x t fun _ _ _ => False)
    (hread : ∀ t, t.Visible → Reads read t fun p a _ => D p a)
    (hD : ∀ p a, D p a → ∃ c q, p = c :: q ∧ c ≠ .symbol .rightBrace) :
    Reads (Reader.collect do
      if ← atEnd then x
      if ← Reader.accept (.symbol .rightBrace) then return none else return some (← read)) s
      fun p as _ => ∃ q, p = q ++ [.symbol .rightBrace] ∧ Sequence D q as := by
  refine (collect (P := Phrase.item D) hs (fun t ht _ => itemOrBrace ht (hx t ht) hread hD) ?_).congr
    fun p as us _ => Phrase.rounds_item_iff
  rintro p a us h
  obtain ⟨c, q, rfl, -⟩ := hD p a h
  exact List.cons_ne_nil c q

/-- No statement begins with the brace that closes a body. -/
theorem ne_rightBrace_of_statement {p : List Token} {st : Statement} (h : DerivesStatement p st) :
    ∃ c q, p = c :: q ∧ c ≠ .symbol .rightBrace := by
  cases p with
  | nil => exact absurd rfl (Phrase.statement_ne_nil h)
  | cons c q =>
    refine ⟨c, q, rfl, ?_⟩
    rintro rfl
    have hq : Phrase.statementBehind (.symbol .rightBrace) q st [] := Phrase.statement_cons_iff.1 h
    exact hq

theorem body (hs : s.Visible) : Reads body s fun p sts _ =>
    ∃ q, p = q ++ [.symbol .rightBrace] ∧ Sequence DerivesStatement q sts :=
  itemsAndBrace hs (fun _ ht => tooFewInBody ht fun _ _ _ _ h => h) (fun _ => statement)
    fun _ _ => ne_rightBrace_of_statement

/-- The rest of a field behind its name. -/
theorem fieldRest (hs : s.Visible) (ms : List Modifier) (type : TypeExpr) {name : String}
    (hname : Text.isBlankText name = false) : Reads (fieldRest ms type name) s fun p f _ =>
      ∃ (r : List Token) (n : Name) (value : Option Expr), p = r ++ [.symbol .semicolon] ∧
        Optional DerivesInitializer r value ∧ n.text = name ∧ f = ⟨ms, type, n, value⟩ := by
  refine unlessAtEnd ((ifAccept hs (by decide)
    (fun u hu _ => bind_name hu hname fun n v hv => pure hv (Field.mk ms type n none))
    fun u hu _ _ => bind_expect hu (by decide) fun v hv _ => (expression hv).bind
      fun value _ w hw _ _ => bind_expect hw (by decide) fun x hx _ =>
        bind_name hx hname fun n y hy => pure hy (Field.mk ms type n (some value))).congr
    fun p f us _ => ?_) (tooFew hs _ fun _ _ _ _ h => h) ?_
  · constructor
    · rintro (⟨_, rfl, n, rfl, rfl, rfl⟩ |
        ⟨-, _, rfl, q, _, value, rfl, ⟨hq, -⟩, _, rfl, n, rfl, rfl, rfl⟩)
      · exact ⟨[], n, none, rfl, .none, rfl, rfl⟩
      · exact ⟨.symbol .assign :: q, n, some value, rfl, .some (.intro hq), rfl, rfl⟩
    · rintro ⟨r, n, value, rfl, hr, rfl, rfl⟩
      cases hr with
      | none => exact .inl ⟨[], rfl, n, rfl, rfl, rfl⟩
      | @some _ value hr =>
        obtain @⟨q, _, hq⟩ := hr
        have hvalue : value.EndsBefore (.symbol .semicolon :: us) :=
          value.endsBefore_of_head? rfl (by decide) (by simp) (by simp)
        exact .inr ⟨by simp, _, rfl, q, _, value, rfl, ⟨hq,hvalue⟩, [], rfl, n, rfl, rfl, rfl⟩
  · rintro f ⟨r, n, value, h, -⟩
    simp at h

theorem parameter (hs : s.Visible) : Reads parameter s fun p a _ => DerivesParameter p a := by
  refine ((accept hs (by decide)).bind fun isFinal _ t ht _ _ => (typeExpr ht).bind
    fun type _ u hu _ _ => bind_identifier hu fun name v hv _ hname =>
      bind_name hv hname fun n w hw => pure hw (Parameter.mk isFinal type n)).congr
    fun p a us hp => ?_
  constructor
  · rintro ⟨w, _, isFinal, rfl, hw, q, _, type, rfl, ⟨hq, -⟩, _, _, rfl, n, rfl, rfl, rfl⟩
    have hfinal : w = finalWord isFinal := by
      cases isFinal with
      | true => exact hw
      | false => exact hw.1
    subst hfinal
    rw [← List.append_assoc]
    exact .intro hq (.intro n)
  · intro h
    obtain @⟨q, type, _, n, isFinal, hq, hn⟩ := h
    obtain ⟨n⟩ := hn
    have hword : if isFinal then finalWord isFinal = [.keyword .final] else
        finalWord isFinal = [] ∧
          (q ++ [Token.identifier n.text] ++ us).head? ≠ some (Token.keyword .final) := by
      cases isFinal with
      | true => rfl
      | false =>
        refine ⟨rfl, ?_⟩
        rw [List.append_assoc]
        exact Phrase.head?_ne_of_type hq fun kind => by cases kind <;> decide
    have htype : type.EndsBefore ([.identifier n.text] ++ us) :=
      type.endsBefore_of_head? rfl (by simp) (by simp)
    exact ⟨_, _, isFinal, List.append_assoc .., hword, q, _, type, rfl, ⟨hq,htype⟩, n.text, [], rfl,
      n, rfl, rfl, rfl⟩

theorem parameters (hs : s.Visible) : Reads parameters s Phrase.parameters := by
  apply bind_sees (by decide)
  by_cases h : s.unread.head? = some (.symbol .rightParen)
  · simp only [h, decide_true, if_true]
    refine (pure hs []).congr fun p ps us hp => ?_
    constructor
    · rintro ⟨rfl, rfl⟩
      exact .inl ⟨rfl, rfl, by rw [← h, hp]; rfl⟩
    · rintro (⟨rfl, rfl, -⟩ | ⟨first, others, q, r, rfl, rfl, hq, hr⟩)
      · exact ⟨rfl,rfl⟩
      · obtain ⟨c, q, rfl, hc⟩ := Phrase.begins_of_parameter hq
        obtain rfl : c = .symbol .rightParen := by simpa [hp] using h
        simp [Phrase.BeginsType] at hc
  · simp only [h, decide_false, Bool.false_eq_true, if_false]
    refine ((parameter hs).bind fun first p u hu hp _ =>
      (eachBehind (by decide) hu fun v hv _ => parameter hv).bind_pure (first :: ·)).congr
      fun p ps us hp => ?_
    constructor
    · rintro ⟨q, r, first, rfl, hq, others, hr, rfl⟩
      exact .inr ⟨first, others, q, r, rfl, rfl, hq, hr⟩
    · rintro (⟨rfl, rfl, h'⟩ | ⟨first, others, q, r, rfl, rfl, hq, hr⟩)
      · exact absurd (by rw [hp]; exact h') h
      · exact ⟨q, r, first, rfl, hq, others, hr, rfl⟩

/-- The rest of a method behind its name. -/
theorem methodRest (hs : s.Visible) (ms : List Modifier) (result : TypeExpr) {name : String}
    (hname : Text.isBlankText name = false) : Reads (methodRest ms result name) s fun p m _ =>
      ∃ (r b : List Token) (n : Name) (ps : List Parameter) (body : Option (List Statement)),
        p = .symbol .leftParen :: (r ++ .symbol .rightParen :: b) ∧ DerivesParameters r ps ∧
        DerivesBody b body ∧ n.text = name ∧ m = ⟨ms, result, n, ps, body⟩ := by
  refine (bind_expect hs (by decide) fun t ht _ => (parameters ht).bind fun ps _ u hu _ _ =>
    bind_expect hu (by decide) fun v hv _ => unlessAtEnd (ifAccept hv (by decide)
      (fun w hw _ => bind_name hw hname fun n x hx => pure hx (Method.mk ms result n ps none))
      fun w hw _ _ => bind_expect hw (by decide) fun x hx _ => (body hx).bind fun sts _ y hy _ _ =>
        bind_name hy hname fun n z hz => pure hz (Method.mk ms result n ps (some sts)))
      (tooFew hv _ fun _ _ _ _ h => h) ?_).congr fun p m us _ => ?_
  · rintro m (⟨_, h, -⟩ | ⟨-, _, h, -⟩) <;> cases h
  · constructor
    · rintro ⟨_, rfl, r, _, ps, rfl, hr, _, rfl, ⟨_, rfl, n, rfl, rfl, rfl⟩ |
        ⟨-, _, rfl, _, _, sts, rfl, ⟨q, rfl, hq⟩, n, rfl, rfl, rfl⟩⟩
      · exact ⟨r, _, n, ps, none, rfl, Phrase.parameters_iff.1 hr, .none, rfl, rfl⟩
      · exact ⟨r, _, n, ps, some sts, by simp, Phrase.parameters_iff.1 hr, .some hq, rfl, rfl⟩
    · rintro ⟨r, b, n, ps, body, rfl, hr, hb, rfl, rfl⟩
      refine ⟨_, rfl, r, _, ps, rfl, Phrase.parameters_iff.2 hr, b, rfl, ?_⟩
      cases hb with
      | none => exact .inl ⟨[], rfl, n, rfl, rfl, rfl⟩
      | @some q sts hq =>
        exact .inr ⟨by simp, _, rfl, _, [], sts, (List.append_nil _).symm, ⟨q, rfl, hq⟩, n, rfl, rfl,
          rfl⟩

/-- The token behind the name tells a method from a field. -/
theorem memberRest (hs : s.Visible) (ms : List Modifier) (type : TypeExpr) {name : String}
    (hname : Text.isBlankText name = false) :
    Reads (memberRest ms type name) s (Phrase.memberRest ms type name) := by
  apply bind_sees (by decide)
  by_cases h : s.unread.head? = some (.symbol .leftParen)
  · simp only [h, decide_true, if_true]
    refine ((methodRest hs ms type hname).bind fun m _ u hu _ _ => bind_record hu fun v hv _ =>
      pure hv (Member.method m)).congr fun p m us hp => ?_
    rw [Phrase.andThen_nil]
    constructor
    · rintro ⟨_, ⟨r, b, n, ps, body, rfl, hr, hb, rfl, rfl⟩, rfl⟩
      exact .inl ⟨r, b, n, ps, body, rfl, hr, hb, rfl, rfl⟩
    · rintro (⟨r, b, n, ps, body, rfl, hr, hb, rfl, rfl⟩ | ⟨r, n, value, rfl, hr, -⟩)
      · exact ⟨_, ⟨r, b, n, ps, body, rfl, hr, hb, rfl, rfl⟩, rfl⟩
      · obtain _ | ⟨⟨_⟩⟩ := hr <;> simp [hp] at h
  · simp only [h, decide_false, Bool.false_eq_true, if_false]
    refine ((fieldRest hs ms type hname).bind fun f _ u hu _ _ => bind_record hu fun v hv _ =>
      pure hv (Member.field f)).congr fun p m us hp => ?_
    rw [Phrase.andThen_nil]
    constructor
    · rintro ⟨_, ⟨r, n, value, rfl, hr, rfl, rfl⟩, rfl⟩
      exact .inr ⟨r, n, value, rfl, hr, rfl, rfl⟩
    · rintro (⟨r, b, n, ps, body, rfl, -⟩ | ⟨r, n, value, rfl, hr, rfl, rfl⟩)
      · simp [hp] at h
      · exact ⟨_, ⟨r, n, value, rfl, hr, rfl, rfl⟩, rfl⟩

theorem member (hs : s.Visible) : Reads member s fun p m _ => DerivesMember p m := by
  refine ((modifiers hs).bind fun ms _ t ht _ _ => (typeExpr ht).bind fun type _ u hu _ _ =>
    bind_identifier hu fun name v hv _ hname => memberRest hv ms type hname).congr fun p m us _ => ?_
  constructor
  · rintro ⟨_, _, ms, rfl, ⟨rfl, -⟩, q, _, type, rfl, ⟨hq, -⟩, _, _, rfl,
      ⟨r, b, n, ps, body, rfl, hr, hb, rfl, rfl⟩ | ⟨r, n, value, rfl, hr, rfl, rfl⟩⟩
    · have h : DerivesMember (modifierWords ms ++ q ++ [.identifier n.text] ++ .symbol .leftParen ::
          (r ++ .symbol .rightParen :: b)) _ := .method hq (.intro n) hr hb
      simpa using h
    · have h : DerivesMember (modifierWords ms ++ q ++ [.identifier n.text] ++ r ++
          [.symbol .semicolon]) _ := .field hq (.intro n) hr
      simpa using h
  · intro h
    -- The modifiers end where the type begins, and the type ends before the name.
    have first {q vs : List Token} {type : TypeExpr} (hq : DerivesType q type) (m : Modifier) :
        (q ++ vs ++ us).head? ≠ some (.keyword m.keyword) := by
      rw [List.append_assoc]
      exact Phrase.head?_ne_of_type hq fun kind => by cases kind <;> cases m <;> decide
    have last {type : TypeExpr} {name : String} {vs : List Token} :
        type.EndsBefore (.identifier name :: vs ++ us) :=
      type.endsBefore_of_head? rfl (by simp) (by simp)
    cases h with
    | @field q type _ n r value ms hq hn hr =>
      obtain ⟨n⟩ := hn
      exact ⟨_, _, ms, by simp, ⟨rfl, first hq⟩, q, _, type, rfl, ⟨hq,last⟩, n.text, _, rfl,
        .inr ⟨r, n, value, rfl, hr, rfl, rfl⟩⟩
    | @method q type _ n r ps b body ms hq hn hr hb =>
      obtain ⟨n⟩ := hn
      exact ⟨_, _, ms, by simp, ⟨rfl, first hq⟩, q, _, type, rfl, ⟨hq,last⟩, n.text, _, rfl,
        .inl ⟨r, b, n, ps, body, rfl, hr, hb, rfl, rfl⟩⟩

/-- No member begins with the brace that closes a class. -/
theorem ne_rightBrace_of_member {p : List Token} {m : Member} (h : DerivesMember p m) :
    ∃ c q, p = c :: q ∧ c ≠ .symbol .rightBrace := by
  have begins (ms : List Modifier) {q r : List Token} {type : TypeExpr} (hq : DerivesType q type) :
      ∃ c v, modifierWords ms ++ (q ++ r) = c :: v ∧ c ≠ .symbol .rightBrace := by
    cases ms with
    | nil =>
      obtain ⟨c, v, rfl, ⟨name, rfl⟩ | ⟨k, rfl⟩⟩ := Phrase.begins_of_type hq
      · exact ⟨_, _, rfl, by simp⟩
      · exact ⟨_, _, rfl, by simp⟩
    | cons m ms => exact ⟨_, _, rfl, by simp⟩
  cases h with
  | field hq => simpa using begins _ hq
  | method hq => simpa using begins _ hq

theorem members (hs : s.Visible) : Reads members s fun p ms _ =>
    ∃ q, p = q ++ [.symbol .rightBrace] ∧ Sequence DerivesMember q ms :=
  itemsAndBrace hs (fun _ ht => tooFew ht _ fun _ _ _ _ h => h) (fun _ => member)
    fun _ _ => ne_rightBrace_of_member

end Reader.Reads
end ClassText
