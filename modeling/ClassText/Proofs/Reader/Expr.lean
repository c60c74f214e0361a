import ClassText.Proofs.Reader.Repetition
import ClassText.Reader.Expr

/-! The reader of expressions reads exactly the expressions of the grammar, as far as their operators
and chains reach. -/
namespace ClassText

open Grammar

namespace Expr

/-- A dot and a name, which go on with a chain. -/
def OpensLink (us : List Token) : Prop := ∃ name vs, us = .symbol .dot :: .identifier name :: vs

/-- Nothing that follows belongs to the operand any more. -/
def OperandEndsBefore : Expr → List Token → Prop
  | .variable _, us => ¬ OpensLink us
  | .field _ _, us => ¬ OpensLink us ∧ us.head? ≠ some (.symbol .leftParen)
  | .call _ _ _, us => ¬ OpensLink us
  | _, _ => True

def lastOperand : Expr → Expr
  | .binary _ _ right => right.lastOperand
  | e => e

/-- Nothing that follows belongs to the expression any more. -/
def EndsBefore (e : Expr) (us : List Token) : Prop :=
  us.head?.bind Operator.ofToken? = none ∧ e.lastOperand.OperandEndsBefore us

theorem operandEndsBefore_of_head? (e : Expr) {us : List Token} {u : Token}
    (h : us.head? = some u) (h₁ : u ≠ .symbol .dot) (h₂ : u ≠ .symbol .leftParen) :
    e.OperandEndsBefore us := by
  have hn : ¬ OpensLink us := by
    rintro ⟨name, vs, rfl⟩
    exact h₁ (Option.some.inj h).symm
  cases e <;> simp [OperandEndsBefore, hn, h, h₂]

theorem endsBefore_of_head? (e : Expr) {us : List Token} {u : Token} (h : us.head? = some u)
    (h₀ : Operator.ofToken? u = none) (h₁ : u ≠ .symbol .dot) (h₂ : u ≠ .symbol .leftParen) :
    e.EndsBefore us :=
  ⟨by simp [h, h₀], e.lastOperand.operandEndsBefore_of_head? h h₁ h₂⟩

end Expr

namespace Operator

theorem ofToken?_symbol (op : Operator) : ofToken? (.symbol op.symbol) = some op := by
  cases op <;> rfl

theorem eq_symbol_of_ofToken? {t : Token} {op : Operator} (h : ofToken? t = some op) :
    t = .symbol op.symbol := by
  simpa using List.find?_some h

theorem bind_ofToken?_iff {o : Option Token} {op : Operator} :
    o.bind ofToken? = some op ↔ o = some (.symbol op.symbol) := by
  constructor
  · intro h
    obtain ⟨t, rfl, ht⟩ := Option.bind_eq_some_iff.1 h
    rw [eq_symbol_of_ofToken? ht]
  · rintro rfl
    exact op.ofToken?_symbol

theorem plain_symbol (op : Operator) : (Token.symbol op.symbol).Plain := by
  cases op <;> decide

end Operator

namespace Phrase

def expression : Phrase Expr := fun p e us => DerivesExpr p e ∧ e.EndsBefore us

def operand : Phrase Expr := fun p e us => DerivesOperand p e ∧ e.OperandEndsBefore us

def chain : Phrase Expr := fun p e us => DerivesChain p e ∧ e.OperandEndsBefore us

/-- Arguments and the parenthesis that closes them. -/
def arguments : Phrase (List Expr) := fun p es _ =>
  ∃ q, p = q ++ [.symbol .rightParen] ∧ DerivesArguments q es

/-- One more link of a chain. -/
def link (base : Expr) : Phrase (Option Expr)
  | p, some e, us =>
    (∃ n : Name, p = [.symbol .dot, .identifier n.text] ∧ e = .field base n ∧
      us.head? ≠ some (.symbol .leftParen)) ∨
    ∃ (n : Name) (q : List Token) (es : List Expr),
      p = .symbol .dot :: .identifier n.text :: .symbol .leftParen :: (q ++ [.symbol .rightParen]) ∧
      DerivesArguments q es ∧ e = .call base n es
  | p, none, us => p = [] ∧ ¬ Expr.OpensLink us

/-- One more operator and the operand behind it. -/
def operation : Phrase (Option (Operator × Expr))
  | p, some (op, e), us => ∃ q, p = .symbol op.symbol :: q ∧ operand q e us
  | p, none, us => p = [] ∧ us.head?.bind Operator.ofToken? = none

/-- Arguments behind a first one, up to the closing parenthesis. -/
theorem further_expr_iff {p us : List Token} {es : List Expr} :
    Rounds (behind (.symbol .comma) expression) p es (.symbol .rightParen :: us) ↔
      Further DerivesExpr .comma p es :=
  rounds_behind_iff (fun _ _ _ => Iff.rfl)
    (fun e _ => e.endsBefore_of_head? rfl (by decide) (by simp) (by simp))
    (fun e => e.endsBefore_of_head? rfl (by decide) (by simp) (by simp)) (by simp)

/-- A chain begins with a name. -/
theorem begins_of_chain : (e : Expr) → {p : List Token} → DerivesChain p e →
    ∃ name q, p = .identifier name :: q
  | _, _, .variable n => ⟨n.text, [], rfl⟩
  | .field b _, _, .field _ hb => by
    obtain ⟨name, q, rfl⟩ := begins_of_chain b hb
    exact ⟨name, _, rfl⟩
  | .call b _ _, _, .call _ hb _ => by
    obtain ⟨name, q, rfl⟩ := begins_of_chain b hb
    exact ⟨name, _, rfl⟩

/-- The tokens with which an operand may begin. -/
def BeginsOperand (t : Token) : Prop :=
  (∃ value isLong, t = .integer value isLong) ∨ (∃ name, t = .identifier name) ∨
    t = .symbol .leftParen

theorem begins_of_operand {p : List Token} {e : Expr} (h : DerivesOperand p e) :
    ∃ c q, p = c :: q ∧ BeginsOperand c := by
  cases h with
  | constant value isLong => exact ⟨_, _, rfl, .inl ⟨value, isLong, rfl⟩⟩
  | chain h =>
    obtain ⟨name, q, rfl⟩ := begins_of_chain e h
    exact ⟨_, q, rfl, .inr (.inl ⟨name,rfl⟩)⟩
  | bracket => exact ⟨_, _, rfl, .inr (.inr rfl)⟩

theorem begins_of_expr {p : List Token} {e : Expr} (h : DerivesExpr p e) :
    ∃ c q, p = c :: q ∧ BeginsOperand c := by
  cases h with
  | operand h => exact begins_of_operand h
  | operation op h =>
    obtain ⟨c, q, rfl, hc⟩ := begins_of_operand h
    exact ⟨c, _, rfl, hc⟩

/-- Links that are read one after the other derive a chain. -/
theorem Extends.chain {b e : Expr} {p q us : List Token} (h : Extends link b p e us)
    (hq : DerivesChain q b)
    (hb : ∀ c n, b = .field c n → (p ++ us).head? ≠ some (.symbol .leftParen)) :
    chain (q ++ p) e us := by
  induction h generalizing q with
  | @stop b p us h =>
    obtain ⟨rfl, hn⟩ := h
    rw [List.append_nil]
    refine ⟨hq, ?_⟩
    cases b with
    | field c n => exact ⟨hn, hb c n rfl⟩
    | «variable» | call => exact hn
    | _ => trivial
  | go h _ ih =>
    rw [← List.append_assoc]
    obtain ⟨n, rfl, rfl, hn⟩ | ⟨n, r, es, rfl, hr, rfl⟩ := h
    · exact ih (.field n hq) fun _ _ _ => hn
    · exact ih (.call n hq hr) (by simp)

/-- The links of a chain of the grammar, the innermost first, are read from left to right. -/
theorem Extends.of_chain : (e : Expr) → {p r us : List Token} → {f : Expr} → DerivesChain p e →
    (∀ c n, e = .field c n → (r ++ us).head? ≠ some (.symbol .leftParen)) →
    Extends link e r f us →
    ∃ (n : Name) (m : List Token), p ++ r = .identifier n.text :: m ∧
      Extends link (.variable n) m f us
  | .variable _, _, r, _, _, .variable n, _, hr => ⟨n, r, rfl, hr⟩
  | .field b n, _, r, us, f, .field _ hb, hn, hr => by
    rw [List.append_assoc]
    exact of_chain b hb (by simp) (.go (.inl ⟨n, rfl, rfl, hn b n rfl⟩) hr)
  | .call b n es, _, r, us, f, .call _ hb hes, _, hr => by
    rw [List.append_assoc]
    exact of_chain b hb (by simp) (.go (.inr ⟨n, _, es, rfl, hes, rfl⟩) hr)

theorem chain_iff {p us : List Token} {e : Expr} :
    chain p e us ↔ ∃ (n : Name) (q : List Token), p = .identifier n.text :: q ∧
      Extends link (.variable n) q e us := by
  constructor
  · rintro ⟨hp, he⟩
    have hstop : Extends link e [] e us := by
      refine .stop ⟨rfl, ?_⟩
      cases hp with
      | field => exact he.1
      | «variable» | call => exact he
    obtain ⟨n, m, hm, hx⟩ := Extends.of_chain e hp (fun c n h => by subst h; exact he.2) hstop
    exact ⟨n, m, by rwa [List.append_nil] at hm, hx⟩
  · rintro ⟨n, q, rfl, hq⟩
    exact hq.chain (.variable n) (by simp)

/-- Operators and operands that are read one after the other derive an expression. -/
theorem Rounds.expression {first : Expr} {ops : List (Operator × Expr)} {p q us : List Token}
    (h : Rounds operation p ops us) (hq : operand q first (p ++ us)) :
    expression (q ++ p) (.rightNested first ops) us := by
  induction h generalizing q first with
  | stop h =>
    obtain ⟨rfl, hn⟩ := h
    rw [List.append_nil]
    refine ⟨.operand hq.1, hn, ?_⟩
    obtain ⟨hq, he⟩ := hq
    cases hq with
    | chain hq => cases hq <;> exact he
    | _ => trivial
  | @go p a r ops us h _ ih =>
    obtain ⟨op, e⟩ := a
    obtain ⟨m, rfl, hm⟩ := h
    obtain ⟨hx, he⟩ := ih hm
    exact ⟨.operation op hq.1 hx, he⟩

theorem lastOperand_of_operand {p : List Token} {e : Expr} (h : DerivesOperand p e) :
    e.lastOperand = e := by
  cases h with
  | chain h => cases h <;> rfl
  | _ => rfl

/-- An expression of the grammar is an operand, and rounds of an operator and a further operand. -/
theorem Rounds.of_expression {e : Expr} {p us : List Token} (hp : DerivesExpr p e)
    (he : e.EndsBefore us) : ∃ (q r : List Token) (first : Expr) (ops : List (Operator × Expr)),
      p = q ++ r ∧ operand q first (r ++ us) ∧ Rounds operation r ops us ∧
      .rightNested first ops = e := by
  cases hp with
  | operand hp =>
    exact ⟨p, [], e, [], (List.append_nil p).symm,
      ⟨hp, by simpa [lastOperand_of_operand hp] using he.2⟩, .stop ⟨rfl,he.1⟩, rfl⟩
  | @operation _ left _ _ op hl hr =>
    obtain ⟨q, r, first, ops, rfl, hq, hops, rfl⟩ := of_expression hr he
    have hleft : left.OperandEndsBefore (.symbol op.symbol :: (q ++ (r ++ us))) :=
      left.operandEndsBefore_of_head? rfl (by cases op <;> simp [Operator.symbol])
        (by cases op <;> simp [Operator.symbol])
    exact ⟨_, _, left, (op,first) :: ops, rfl, ⟨hl, by simpa using hleft⟩,
      .go (p := .symbol op.symbol :: q) ⟨q, rfl, hq⟩ hops, rfl⟩
termination_by sizeOf e

theorem expression_iff {p us : List Token} {e : Expr} :
    expression p e us ↔ ∃ (q r : List Token) (first : Expr) (ops : List (Operator × Expr)),
      p = q ++ r ∧ operand q first (r ++ us) ∧ Rounds operation r ops us ∧
      .rightNested first ops = e := by
  constructor
  · rintro ⟨hp, he⟩
    exact Rounds.of_expression hp he
  · rintro ⟨q, r, first, ops, rfl, hq, hr, rfl⟩
    exact hr.expression hq

end Phrase

namespace Reader.Reads

variable {s : Reading} {inner : Reader Expr} {n : Nat}

theorem arguments (hs : s.Visible) (hn : s.unread.length < n)
    (ih : ∀ u, u.Visible → u.unread.length < n → Reads inner u Phrase.expression) :
    Reads (arguments inner) s Phrase.arguments := by
  apply bind_sees (by decide)
  by_cases h : s.unread.head? = some (.symbol .rightParen)
  · simp only [h, decide_true, if_true]
    refine (bind_expect hs (by decide) fun u hu _ => pure hu []).congr fun p es us hp => ?_
    constructor
    · rintro ⟨_, rfl, rfl, rfl⟩
      exact ⟨[], rfl, .nil⟩
    · rintro ⟨q, rfl, hq⟩
      cases hq with
      | nil => exact ⟨[], rfl, rfl, rfl⟩
      | cons he =>
        obtain ⟨c, r, rfl, hc⟩ := Phrase.begins_of_expr he
        obtain rfl : c = .symbol .rightParen := by simpa [hp] using h
        simp [Phrase.BeginsOperand] at hc
  · simp only [h, decide_false, Bool.false_eq_true, if_false]
    refine ((ih s hs hn).bind fun first p u hu hp _ =>
      have hlen : u.unread.length < n := by simp [hp] at hn; omega
      (eachBehind (by decide) hu fun v hv hvu => ih v hv (by omega)).bind fun others _ v hv _ _ =>
      bind_expect hv (by decide) fun w hw _ => pure hw (first :: others)).congr fun p es us hp => ?_
    constructor
    · rintro ⟨q, _, first, rfl, ⟨hq, -⟩, r, _, others, rfl, hr, _, rfl, rfl, rfl⟩
      exact ⟨q ++ r, by simp, .cons hq (Phrase.further_expr_iff.1 hr)⟩
    · rintro ⟨q, rfl, hq⟩
      cases hq with
      | nil => exact absurd (by simp [hp]) h
      | @cons q first r others hq hr =>
        have hfirst : first.EndsBefore (r ++ .symbol .rightParen :: us) := by
          cases hr <;> exact first.endsBefore_of_head? rfl (by decide) (by simp) (by simp)
        exact ⟨q, _, first, List.append_assoc .., ⟨hq, by simpa using hfirst⟩, r, _, others, rfl,
          Phrase.further_expr_iff.2 hr, [], rfl, rfl, rfl⟩

/-- Where a dot and a name follow each other, the two are one more link. -/
theorem opensLink_iff : Expr.OpensLink s.unread ↔ s.unread.head? = some (.symbol .dot) ∧
    ∃ name, s.cursor.peek? 1 = some (.identifier name) := by
  have behind (hd : s.unread.head? = some (.symbol .dot)) (name : String) :
      s.advance.unread.head? = some (.identifier name) ↔
        s.cursor.peek? 1 = some (.identifier name) := by
    rw [Reading.head?_unread_iff (Token.plain_identifier name), Reading.peek?_advance]
  constructor
  · rintro ⟨name, vs, hu⟩
    have hd : s.unread.head? = some (.symbol .dot) := by rw [hu]; rfl
    have hs := Reading.unread_eq_cons rfl ((Reading.head?_unread_iff (by decide)).1 hd)
    have hv := (List.cons.inj (hs.symm.trans hu)).2
    exact ⟨hd, name, (behind hd name).1 (by rw [hv]; rfl)⟩
  · rintro ⟨hd, name, hn⟩
    have hs := Reading.unread_eq_cons rfl ((Reading.head?_unread_iff (by decide)).1 hd)
    obtain ⟨vs, hv⟩ := List.head?_eq_some_iff.1 ((behind hd name).2 hn)
    exact ⟨name, vs, by rw [hs, hv]⟩

theorem noLink (hs : s.Visible) (h : ¬ Expr.OpensLink s.unread) (base : Expr) :
    Reads (Pure.pure none) s (Phrase.link base) := by
  refine nothing hs ⟨rfl,h⟩ (fun p us hp => hp.1) fun p e us hp he => h ?_
  rw [hp]
  obtain ⟨n, rfl, -⟩ | ⟨n, q, es, rfl, -⟩ := he <;> exact ⟨_, _, rfl⟩

theorem someLink (hs : s.Visible) (hn : s.unread.length ≤ n)
    (ih : ∀ u, u.Visible → u.unread.length < n → Reads inner u Phrase.expression) (base : Expr)
    (h : Expr.OpensLink s.unread) : Reads (do
      Reader.skip
      let name ← Reader.identifier Role.memberName
      if ← Reader.accept (.symbol .leftParen) then
        let given ← Reader.arguments inner
        return some (← Reader.build (Expr.checkCall base name given))
      else return some (← Reader.build (Expr.checkField base name))) s (Phrase.link base) := by
  have hdot := (Reading.head?_unread_iff (by decide)).1 (opensLink_iff.1 h).1
  refine (bind_skip hs rfl hdot fun u hu hsu => bind_identifier hu fun name v hv huv hname =>
    have hlen : s.unread.length = v.unread.length + 2 := by simp [hsu, huv]
    ifAccept hv (by decide)
      (fun w hw hvw => (arguments hw (by simp [hvw] at hlen; omega) ih).bind
        fun es _ y hy _ _ => (build_named hy hname (fun n => Expr.call base n es)
          (by simp [Expr.checkCall, Name.check, hname])).bind_pure some)
      fun w hw _ _ => (build_named hw hname (fun n => Expr.field base n)
        (by simp [Expr.checkField, Name.check, hname])).bind_pure some).congr fun p o us hp => ?_
  cases o with
  | none =>
    constructor
    · rintro ⟨_, _, x, _, _, ⟨_, _, _, _, es, _, _, _, _, h⟩ | ⟨_, _, _, h⟩⟩
      · cases h
      · cases h
    · rintro ⟨rfl, hn⟩
      rw [show s.unread = us from hp] at h
      exact absurd h hn
  | some e =>
    constructor
    · rintro ⟨_, rfl, _, _, rfl, ⟨_, rfl, _, _, es, rfl, ⟨q, rfl, hq⟩, _, ⟨rfl, n, rfl, rfl⟩, h⟩ |
        ⟨hn, _, ⟨rfl, n, rfl, rfl⟩, h⟩⟩
      · cases h
        exact .inr ⟨n, q, es, by simp, hq, rfl⟩
      · cases h
        exact .inl ⟨n, rfl, rfl, hn⟩
    · rintro (⟨n, rfl, rfl, hn⟩ | ⟨n, q, es, rfl, hq, rfl⟩)
      · exact ⟨_, rfl, n.text, [], rfl, .inr ⟨hn, _, ⟨rfl, n, rfl, rfl⟩, rfl⟩⟩
      · exact ⟨_, rfl, n.text, _, rfl, .inl ⟨_, rfl, _, [], es, (List.append_nil _).symm,
          ⟨q, rfl, hq⟩, _, ⟨rfl, n, rfl, rfl⟩, rfl⟩⟩

theorem chainLink (hs : s.Visible) (hn : s.unread.length ≤ n)
    (ih : ∀ u, u.Visible → u.unread.length < n → Reads inner u Phrase.expression) (base : Expr) :
    Reads (chainLink inner base) s (Phrase.link base) := by
  apply bind_sees (by decide)
  apply bind_peek
  split
  · next x hc =>
    split_ifs with hd
    · exact someLink hs hn ih base (opensLink_iff.2 ⟨of_decide_eq_true hd, x, hc⟩)
    · refine noLink hs (fun hl => hd ?_) base
      simpa using (opensLink_iff.1 hl).1
  · next hc =>
    refine noLink hs (fun hl => ?_) base
    obtain ⟨-, name, hname⟩ := opensLink_iff.1 hl
    exact hc name hname

theorem chain (hs : s.Visible) (hn : s.unread.length ≤ n)
    (ih : ∀ u, u.Visible → u.unread.length < n → Reads inner u Phrase.expression) :
    Reads (chain inner) s Phrase.chain := by
  refine (bind_identifier hs fun name u hu hsu hname =>
    have hlen : s.unread.length = u.unread.length + 1 := by simp [hsu]
    (build_named hu hname Expr.variable (by simp [Expr.checkVariable, Name.check, hname])).bind
      fun e q v hv hq hqe => extend hv
        (fun e t ht hle => chainLink ht (by simp [hq] at hlen; omega) ih e) ?_ e).congr
    fun p e us hp => ?_
  · rintro e r f us (⟨n, rfl, -⟩ | ⟨n, q, es, rfl, -⟩) <;> simp
  · rw [Phrase.chain_iff]
    constructor
    · rintro ⟨_, _, rfl, _, q, _, rfl, ⟨rfl, n, rfl, rfl⟩, hq⟩
      exact ⟨n, q, rfl, hq⟩
    · rintro ⟨n, q, rfl, hq⟩
      exact ⟨n.text, q, rfl, [], q, _, rfl, ⟨rfl, n, rfl, rfl⟩, hq⟩

theorem constantOperand (hs : s.Visible) {value : Nat} {isLong : Bool}
    (hc : s.cursor.peek? 0 = some (.integer value isLong)) :
    Reads (do Reader.skip; return .constant value isLong) s Phrase.operand := by
  have hu := Reading.unread_eq_cons rfl hc
  refine (bind_skip hs rfl hc fun v hv _ => pure hv (Expr.constant value isLong)).congr
    fun p e us hp => ?_
  constructor
  · rintro ⟨_, rfl, rfl, rfl⟩
    exact ⟨.constant value isLong, trivial⟩
  · rintro ⟨he, -⟩
    cases he with
    | constant v l =>
      obtain ⟨⟨rfl, rfl⟩, -⟩ : (value = v ∧ isLong = l) ∧ _ := by simpa [hu] using hp
      exact ⟨[], rfl, rfl, rfl⟩
    | chain he =>
      obtain ⟨name, q, rfl⟩ := Phrase.begins_of_chain e he
      simp [hu] at hp
    | bracket => simp [hu] at hp

theorem chainOperand (hs : s.Visible) (hn : s.unread.length ≤ n)
    (ih : ∀ u, u.Visible → u.unread.length < n → Reads inner u Phrase.expression) {name : String}
    (hc : s.cursor.peek? 0 = some (.identifier name)) :
    Reads (Reader.chain inner) s Phrase.operand := by
  have hu := Reading.unread_eq_cons rfl hc
  refine (chain hs hn ih).congr fun p e us hp => ?_
  constructor
  · rintro ⟨he, hx⟩
    exact ⟨.chain he,hx⟩
  · rintro ⟨he, hx⟩
    cases he with
    | chain he => exact ⟨he,hx⟩
    | _ => simp [hu] at hp

theorem bracketOperand (hs : s.Visible) (hn : s.unread.length ≤ n)
    (ih : ∀ u, u.Visible → u.unread.length < n → Reads inner u Phrase.expression)
    (hc : s.cursor.peek? 0 = some (.symbol .leftParen)) : Reads (do
      Reader.skip
      let e ← inner
      Reader.expect (.symbol .rightParen)
      return .bracket e) s Phrase.operand := by
  have hu := Reading.unread_eq_cons rfl hc
  refine (bind_skip hs rfl hc fun v hv hsv =>
    (ih v hv (by simp [hsv] at hn; omega)).bind fun e _ w hw _ _ =>
      bind_expect hw (by decide) fun x hx _ => pure hx (Expr.bracket e)).congr fun p e us hp => ?_
  constructor
  · rintro ⟨_, rfl, q, _, e, rfl, ⟨hq, -⟩, _, rfl, rfl, rfl⟩
    exact ⟨.bracket hq, trivial⟩
  · rintro ⟨he, -⟩
    cases he with
    | constant => simp [hu] at hp
    | chain he =>
      obtain ⟨name, q, rfl⟩ := Phrase.begins_of_chain e he
      simp [hu] at hp
    | @bracket q e hq =>
      have hend : e.EndsBefore (.symbol .rightParen :: us) :=
        e.endsBefore_of_head? rfl (by decide) (by simp) (by simp)
      exact ⟨_, rfl, q, [.symbol .rightParen], e, rfl, ⟨hq,hend⟩, [], rfl, rfl, rfl⟩

/-- Whatever the grammar allows as an operand begins with the current token. -/
theorem begins_operand {p us : List Token} {e : Expr} (hp : s.unread = p ++ us)
    (he : Phrase.operand p e us) : ∃ t, s.cursor.peek? 0 = some t ∧ Phrase.BeginsOperand t := by
  obtain ⟨c, q, rfl, hc⟩ := Phrase.begins_of_operand he.1
  refine ⟨c, (Reading.head?_unread_iff ?_).1 (by rw [hp]; rfl), hc⟩
  obtain ⟨_, _, rfl⟩ | ⟨_, rfl⟩ | rfl := hc
  · exact ⟨rfl, by simp⟩
  · exact Token.plain_identifier _
  · decide

theorem operand (hs : s.Visible) (hn : s.unread.length ≤ n)
    (ih : ∀ u, u.Visible → u.unread.length < n → Reads inner u Phrase.expression) :
    Reads (operand inner) s Phrase.operand := by
  apply bind_current
  split
  · next hc =>
    refine tooFew hs _ fun p e us hp he => ?_
    obtain ⟨t, ht, -⟩ := begins_operand hp he
    simp [hc] at ht
  · next value isLong hc => exact constantOperand hs hc
  · next name hc => exact chainOperand hs hn ih hc
  · next hc => exact bracketOperand hs hn ih hc
  · next h₁ h₂ h₃ hc =>
    refine unexpected hs _ fun p e us hp he => ?_
    obtain ⟨t, ht, ⟨_, _, rfl⟩ | ⟨_, rfl⟩ | rfl⟩ := begins_operand hp he
    · exact h₁ _ _ (Option.some.inj (hc.symm.trans ht))
    · exact h₂ _ (Option.some.inj (hc.symm.trans ht))
    · exact h₃ (Option.some.inj (hc.symm.trans ht))

/-- An operator is seen before compound symbols are taken apart as well as after. -/
theorem seen_operator (op : Operator) : s.unread.head?.bind Operator.ofToken? = some op ↔
    (s.cursor.peek? 0).bind Operator.ofToken? = some op := by
  rw [Operator.bind_ofToken?_iff, Operator.bind_ofToken?_iff,
    Reading.head?_unread_iff op.plain_symbol]

theorem someOperation (hs : s.Visible) (hn : s.unread.length ≤ n)
    (ih : ∀ u, u.Visible → u.unread.length < n → Reads inner u Phrase.expression) {op : Operator}
    (hc : (s.cursor.peek? 0).bind Operator.ofToken? = some op) :
    Reads (do Reader.skip; return some (op, ← Reader.operand inner)) s Phrase.operation := by
  have hcur := Operator.bind_ofToken?_iff.1 hc
  have hu := Reading.unread_eq_cons op.plain_symbol.1 hcur
  refine (bind_skip hs op.plain_symbol.1 hcur fun v hv hsv =>
    (operand hv (by simp [hsv] at hn; omega) ih).bind_pure fun e => some (op,e)).congr
    fun p o us hp => ?_
  match o with
  | none =>
    constructor
    · rintro ⟨_, _, _, _, h⟩
      cases h
    · rintro ⟨rfl, hn⟩
      rw [← show s.unread = us from hp, (seen_operator op).2 hc] at hn
      cases hn
  | some (op', e) =>
    constructor
    · rintro ⟨q, rfl, _, hq, h⟩
      cases h
      exact ⟨q, rfl, hq⟩
    · rintro ⟨q, rfl, hq⟩
      have hop : op.symbol = op'.symbol := by simpa [hu] using (congrArg List.head? hp)
      obtain rfl : op = op' := by
        rw [← Option.some_inj, ← op.ofToken?_symbol, hop, op'.ofToken?_symbol]
      exact ⟨q, rfl, e, hq, rfl⟩

theorem operation (hs : s.Visible) (hn : s.unread.length ≤ n)
    (ih : ∀ u, u.Visible → u.unread.length < n → Reads inner u Phrase.expression) :
    Reads (operation inner) s Phrase.operation := by
  apply bind_current
  split
  · next op hc => exact someOperation hs hn ih hc
  · next hc =>
    have hnone (op : Operator) : s.unread.head?.bind Operator.ofToken? ≠ some op := by
      rw [Ne, seen_operator, hc]
      simp
    refine nothing hs ⟨rfl, Option.eq_none_iff_forall_ne_some.2 hnone⟩ (fun p us hp => hp.1) ?_
    rintro p ⟨op, e⟩ us hp ⟨q, rfl, -⟩
    exact hnone op (by simp [hp, op.ofToken?_symbol])

/-- An operand, and operators with further operands as far as they reach. -/
theorem expressionBody (hs : s.Visible)
    (ih : ∀ u, u.Visible → u.unread.length < s.unread.length → Reads inner u Phrase.expression) :
    Reads (expressionBody inner) s Phrase.expression := by
  refine ((operand hs (Nat.le_refl _) ih).bind fun first p u hu hp _ =>
    (collect hu (fun v hv hle => operation hv (by simp [hp]; omega) ih) ?_).bind_pure
      (Expr.rightNested first)).congr fun p e us _ => ?_
  · rintro p ⟨op, e⟩ us ⟨q, rfl, -⟩
    simp
  · rw [Phrase.expression_iff]
    constructor
    · rintro ⟨q, r, first, rfl, hq, ops, hr, rfl⟩
      exact ⟨q, r, first, ops, rfl, hq, hr, rfl⟩
    · rintro ⟨q, r, first, ops, rfl, hq, hr, rfl⟩
      exact ⟨q, r, first, rfl, hq, ops, hr, rfl⟩

theorem noExpression (hs : s.Visible) (hn : s.unread = []) :
    Reads (Reader.tooFew [.expression]) s Phrase.expression := by
  refine tooFew hs _ fun p e us hp ⟨he, _⟩ => ?_
  obtain ⟨c, q, rfl, -⟩ := Phrase.begins_of_expr he
  simp [hn] at hp

theorem expression (hs : s.Visible) : Reads expression s Phrase.expression :=
  nested (fun _ => noExpression) (fun _ _ ht ih => expressionBody ht ih) hs

end Reader.Reads
end ClassText
