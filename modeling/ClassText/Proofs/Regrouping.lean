import ClassText.Proofs.Failure.Basic
import ClassText.Proofs.RoundTrip

/-! What the text of an expression tells of its tree: everything but how operators have been grouped. A
text is read with its operators nested to the right, so that the trees with the same text are those with
the same operands and the same operators between them, in their order. -/
namespace ClassText

open Lexeme Piece

namespace Expr

mutual

/-- The first operand of an expression, and further ones with the operators before them. Whatever stands
within an operand is regrouped. -/
def spine : Expr → Expr × List (Operator × Expr)
  | .constant value isLong => (.constant value isLong, [])
  | .variable n => (.variable n, [])
  | .field base n => (.field (.rightNested (spine base).1 (spine base).2) n, [])
  | .call base n arguments =>
    (.call (.rightNested (spine base).1 (spine base).2) n (regroupedList arguments), [])
  | .binary op left right =>
    ((spine left).1, (spine left).2 ++ (op, (spine right).1) :: (spine right).2)
  | .bracket inner => (.bracket (.rightNested (spine inner).1 (spine inner).2), [])

def regroupedList : List Expr → List Expr
  | [] => []
  | e :: es => .rightNested (spine e).1 (spine e).2 :: regroupedList es

end

/-- The same operands and operators, nested to the right. -/
def regrouped (e : Expr) : Expr := .rightNested e.spine.1 e.spine.2

mutual

/-- Fields and calls have a chain for their base. -/
def hasChainBases : Expr → Bool
  | .constant _ _ | .variable _ => true
  | .field base _ => base.isChain && hasChainBases base
  | .call base _ arguments => base.isChain && hasChainBases base && haveChainBases arguments
  | .binary _ left right => hasChainBases left && hasChainBases right
  | .bracket inner => hasChainBases inner

def haveChainBases : List Expr → Bool
  | [] => true
  | e :: es => hasChainBases e && haveChainBases es

end

mutual

/-- No operation is the left operand of another. -/
def nestsRight : Expr → Bool
  | .constant _ _ | .variable _ => true
  | .field base _ => nestsRight base
  | .call base _ arguments => nestsRight base && nestRight arguments
  | .binary _ left right => !left.isBinary && nestsRight left && nestsRight right
  | .bracket inner => nestsRight inner

def nestRight : List Expr → Bool
  | [] => true
  | e :: es => nestsRight e && nestRight es

end

mutual

theorem isNormal_eq : (e : Expr) → e.isNormal = (e.hasChainBases && e.nestsRight)
  | .constant _ _ | .variable _ => rfl
  | .field base _ => by simp [isNormal, hasChainBases, nestsRight, isNormal_eq base, Bool.and_assoc]
  | .call base _ arguments => by
    simp only [isNormal, hasChainBases, nestsRight, isNormal_eq base, areNormal_eq arguments]
    ac_rfl
  | .binary _ left right => by
    simp only [isNormal, hasChainBases, nestsRight, isNormal_eq left, isNormal_eq right]
    ac_rfl
  | .bracket inner => isNormal_eq inner

theorem areNormal_eq : (es : List Expr) → areNormal es = (haveChainBases es && nestRight es)
  | [] => rfl
  | e :: es => by
    simp only [areNormal, haveChainBases, nestRight, isNormal_eq e, areNormal_eq es]
    ac_rfl

end

/-! Regrouping keeps the text. -/

theorem pieces_rightNested (first : Expr) (ops : List (Operator × Expr)) :
    (rightNested first ops).pieces =
      first.pieces ++ ops.flatMap fun p => sign p.1.symbol :: p.2.pieces := by
  induction ops generalizing first with
  | nil => simp [rightNested]
  | cons p ops ih => simp [rightNested, pieces, ih]

mutual

theorem pieces_spine : (e : Expr) →
    e.spine.1.pieces ++ (e.spine.2.flatMap fun p => sign p.1.symbol :: p.2.pieces) = e.pieces
  | .constant _ _ | .variable _ => by simp [spine]
  | .field base n => by simp [spine, pieces, pieces_rightNested, ← pieces_spine base]
  | .call base n arguments => by
    simp [spine, pieces, pieces_rightNested, ← pieces_spine base, argumentPieces_regroupedList arguments]
  | .binary op left right => by
    simp [spine, pieces, ← pieces_spine left, ← pieces_spine right]
  | .bracket inner => by simp [spine, pieces, pieces_rightNested, ← pieces_spine inner]

theorem argumentPieces_regroupedList : (es : List Expr) →
    argumentPieces (regroupedList es) = argumentPieces es
  | [] => rfl
  | e :: es => by
    simp [regroupedList, argumentPieces, pieces_rightNested, ← pieces_spine e,
      furtherPieces_regroupedList es]

theorem furtherPieces_regroupedList : (es : List Expr) →
    furtherPieces (regroupedList es) = furtherPieces es
  | [] => rfl
  | e :: es => by
    simp [regroupedList, furtherPieces, pieces_rightNested, ← pieces_spine e,
      furtherPieces_regroupedList es]

end

theorem pieces_regrouped (e : Expr) : e.regrouped.pieces = e.pieces := by
  rw [regrouped, pieces_rightNested, pieces_spine]

/-! What is regrouped nests to the right. -/

/-- The operands of a spine. -/
def operandsOf (s : Expr × List (Operator × Expr)) : List Expr := s.1 :: s.2.map (·.2)

theorem nestsRight_rightNested {first : Expr} {ops : List (Operator × Expr)}
    (h : ∀ x ∈ operandsOf (first, ops), x.isBinary = false ∧ x.nestsRight = true) :
    (rightNested first ops).nestsRight = true := by
  induction ops generalizing first with
  | nil => exact (h first List.mem_cons_self).2
  | cons p ops ih =>
    obtain ⟨hb, hn⟩ := h first List.mem_cons_self
    simp [rightNested, nestsRight, hb, hn, ih fun x hx => h x (List.mem_cons_of_mem _ hx)]

theorem hasChainBases_rightNested {first : Expr} {ops : List (Operator × Expr)}
    (h : ∀ x ∈ operandsOf (first, ops), x.hasChainBases = true) :
    (rightNested first ops).hasChainBases = true := by
  induction ops generalizing first with
  | nil => exact h first List.mem_cons_self
  | cons p ops ih =>
    simp [rightNested, hasChainBases, h first List.mem_cons_self,
      ih fun x hx => h x (List.mem_cons_of_mem _ hx)]

/-- The operands of an operation are those of its two sides. -/
theorem mem_operandsOf_binary {op : Operator} {left right x : Expr} :
    x ∈ operandsOf (binary op left right).spine ↔
      x ∈ operandsOf left.spine ∨ x ∈ operandsOf right.spine := by
  simp [operandsOf, spine, or_assoc]

mutual

theorem operands_nestRight : (e : Expr) →
    ∀ x ∈ operandsOf e.spine, x.isBinary = false ∧ x.nestsRight = true
  | .constant _ _ | .variable _ => by simp [operandsOf, spine, isBinary, nestsRight]
  | .field base _ => by
    simpa [operandsOf, spine, isBinary, nestsRight] using nestsRight_rightNested (operands_nestRight base)
  | .call base _ arguments => by
    simpa [operandsOf, spine, isBinary, nestsRight] using
      ⟨nestsRight_rightNested (operands_nestRight base), regroupedList_nestRight arguments⟩
  | .binary op left right => fun x hx =>
    (mem_operandsOf_binary.1 hx).elim (operands_nestRight left x) (operands_nestRight right x)
  | .bracket inner => by
    simpa [operandsOf, spine, isBinary, nestsRight] using nestsRight_rightNested (operands_nestRight inner)

theorem regroupedList_nestRight : (es : List Expr) → nestRight (regroupedList es) = true
  | [] => rfl
  | e :: es => by
    simp [regroupedList, nestRight, nestsRight_rightNested (operands_nestRight e), regroupedList_nestRight es]

end

theorem nestsRight_regrouped (e : Expr) : e.regrouped.nestsRight = true :=
  nestsRight_rightNested (operands_nestRight e)

/-- What is no operation is its own only operand. -/
theorem spine_of_not_binary {e : Expr} (h : e.isBinary = false) : e.spine = (e.regrouped, []) := by
  cases e with
  | binary => cases h
  | _ => rfl

theorem isChain_regrouped {e : Expr} (h : e.isChain = true) : e.regrouped.isChain = true := by
  cases e with
  | «variable» | field | call => rfl
  | _ => cases h

mutual

theorem operands_haveChainBases : (e : Expr) → e.hasChainBases = true →
    ∀ x ∈ operandsOf e.spine, x.hasChainBases = true
  | .constant _ _, _ | .variable _, _ => by simp [operandsOf, spine, hasChainBases]
  | .field base _, h => by
    obtain ⟨hc, hb⟩ : base.isChain = true ∧ base.hasChainBases = true := by simpa [hasChainBases] using h
    have hbase := hasChainBases_rightNested (operands_haveChainBases base hb)
    simpa [operandsOf, spine, hasChainBases] using ⟨isChain_regrouped hc, hbase⟩
  | .call base _ arguments, h => by
    obtain ⟨⟨hc, hb⟩, ha⟩ : (base.isChain = true ∧ base.hasChainBases = true) ∧
        haveChainBases arguments = true := by simpa [hasChainBases] using h
    have hbase := hasChainBases_rightNested (operands_haveChainBases base hb)
    simpa [operandsOf, spine, hasChainBases] using
      ⟨⟨isChain_regrouped hc, hbase⟩, regroupedList_haveChainBases arguments ha⟩
  | .binary op left right, h => by
    obtain ⟨hl, hr⟩ : left.hasChainBases = true ∧ right.hasChainBases = true := by
      simpa [hasChainBases] using h
    intro x hx
    obtain hx | hx := mem_operandsOf_binary.1 hx
    · exact operands_haveChainBases left hl x hx
    · exact operands_haveChainBases right hr x hx
  | .bracket inner, h => by
    simpa [operandsOf, spine, hasChainBases] using
      hasChainBases_rightNested (operands_haveChainBases inner h)

theorem regroupedList_haveChainBases : (es : List Expr) → haveChainBases es = true →
    haveChainBases (regroupedList es) = true
  | [], _ => rfl
  | e :: es, h => by
    obtain ⟨he, hes⟩ : e.hasChainBases = true ∧ haveChainBases es = true := by
      simpa [haveChainBases] using h
    simp [regroupedList, haveChainBases, hasChainBases_rightNested (operands_haveChainBases e he),
      regroupedList_haveChainBases es hes]

end

theorem isNormal_regrouped {e : Expr} (h : e.hasChainBases = true) : e.regrouped.isNormal = true := by
  rw [isNormal_eq, e.nestsRight_regrouped, Bool.and_true]
  exact hasChainBases_rightNested (operands_haveChainBases e h)

mutual

theorem regrouped_of_nestsRight : (e : Expr) → e.nestsRight = true → e.regrouped = e
  | .constant _ _, _ | .variable _, _ => rfl
  | .field base n, h => congrArg (field · n) (regrouped_of_nestsRight base h)
  | .call base n arguments, h => by
    obtain ⟨hb, ha⟩ : base.nestsRight = true ∧ nestRight arguments = true := by
      simpa [nestsRight] using h
    exact congrArg₂ (call · n) (regrouped_of_nestsRight base hb) (regroupedList_of_nestRight arguments ha)
  | .binary op left right, h => by
    obtain ⟨⟨hb, hl⟩, hr⟩ : (left.isBinary = false ∧ left.nestsRight = true) ∧
        right.nestsRight = true := by simpa [nestsRight] using h
    calc (binary op left right).regrouped
        = rightNested left.spine.1 (left.spine.2 ++ (op, right.spine.1) :: right.spine.2) := rfl
      _ = binary op left.regrouped right.regrouped := by
        rw [spine_of_not_binary hb]
        rfl
      _ = binary op left right := by
        rw [regrouped_of_nestsRight left hl, regrouped_of_nestsRight right hr]
  | .bracket inner, h => congrArg bracket (regrouped_of_nestsRight inner h)

theorem regroupedList_of_nestRight : (es : List Expr) → nestRight es = true → regroupedList es = es
  | [], _ => rfl
  | e :: es, h => by
    obtain ⟨he, hes⟩ : e.nestsRight = true ∧ nestRight es = true := by simpa [nestRight] using h
    exact congrArg₂ List.cons (regrouped_of_nestsRight e he) (regroupedList_of_nestRight es hes)

end

/-- A tree is left as it is exactly if no operation is the left operand of another. -/
theorem regrouped_eq_iff (e : Expr) : e.regrouped = e ↔ e.nestsRight = true := by
  constructor
  · intro h
    rw [← h]
    exact e.nestsRight_regrouped
  · exact regrouped_of_nestsRight e

theorem regrouped_regrouped (e : Expr) : e.regrouped.regrouped = e.regrouped :=
  regrouped_of_nestsRight _ e.nestsRight_regrouped

/-! Regrouped is how a text is read. -/

theorem operandEndsBefore_nil (e : Expr) : e.OperandEndsBefore [] := by
  have hn : ¬ OpensLink [] := by
    rintro ⟨_, _, h⟩
    cases h
  cases e <;> simp [OperandEndsBefore, hn]

/-- The text of an expression is cut into the tokens of its pieces, and these are read to the last one. -/
theorem run_expression_render {e : Expr} (hn : ∀ n ∈ e.names, isWord n.text = true)
    (hb : e.hasChainBases = true) : ∃ ls, tokenize e.render = .ok ls ∧
      ∃ r, Reader.expression.run (.ofTokens ls) = .ok e.regrouped r ∧ r.cursor.ahead = [] := by
  obtain ⟨_, hrun, -⟩ := e.run_pieces hn (a := .gap) rfl
  obtain ⟨ls, hls, he⟩ := tokenize_join hrun
  have hunread : (Reading.ofTokens ls).unread = tokens e.regrouped.pieces ++ [] := by
    rw [pieces_regrouped, List.append_nil]
    exact he
  have hs : (Reading.ofTokens ls).Visible := fun name hname =>
    visible_of_tokenize hls name (Token.identifier_mem_expand.1 hname)
  obtain ⟨r, hr, hend⟩ := (Reader.Reads.expression hs).run_ok_iff.2 ⟨_, hunread,
    e.regrouped.derivesExpr_iff.2 ⟨isNormal_regrouped hb, rfl⟩, rfl, operandEndsBefore_nil _⟩
  exact ⟨ls, hls, r, hr, Reading.unread_eq_nil_iff.1 hend⟩

/-- Two trees have the same text exactly if they only differ in how their operators are grouped. -/
theorem render_eq_iff {e f : Expr} (hen : ∀ n ∈ e.names, isWord n.text = true)
    (heb : e.hasChainBases = true) (hfn : ∀ n ∈ f.names, isWord n.text = true)
    (hfb : f.hasChainBases = true) : e.render = f.render ↔ e.regrouped = f.regrouped := by
  constructor
  · intro h
    obtain ⟨ls, hls, r, hr, -⟩ := run_expression_render hen heb
    obtain ⟨ms, hms, u, hu, -⟩ := run_expression_render hfn hfb
    rw [h, hms] at hls
    cases hls
    exact (EStateM.Result.ok.inj (hr.symm.trans hu)).1
  · intro h
    rw [render, render, ← pieces_regrouped, h, pieces_regrouped]

/-- The text of an expression is read as the same operands and operators nested to the right, up to its
last token. It is read as the expression itself exactly if no operation is the left operand of another,
and of other expressions it tells no less. -/
theorem render_forgets_grouping {e : Expr} (hn : ∀ n ∈ e.names, isWord n.text = true)
    (hb : e.hasChainBases = true) :
    (∃ ls, tokenize e.render = .ok ls ∧
      ∃ r, Reader.expression.run (.ofTokens ls) = .ok e.regrouped r ∧ r.cursor.ahead = []) ∧
    e.regrouped.regrouped = e.regrouped ∧ (e.regrouped = e ↔ e.nestsRight = true) ∧
    ∀ f : Expr, (∀ n ∈ f.names, isWord n.text = true) → f.hasChainBases = true →
      (e.render = f.render ↔ e.regrouped = f.regrouped) :=
  ⟨run_expression_render hn hb, e.regrouped_regrouped, e.regrouped_eq_iff,
    fun _ hfn hfb => render_eq_iff hn hb hfn hfb⟩

/-- Operations on the left of others, also in brackets and among arguments. -/
theorem render_forgets_grouping_left :
    ∃ e : Expr, e.render = "a-b*a.b((a-b)/2,a/b/1L)" ∧ e.nestsRight = false ∧ e.regrouped ≠ e ∧
      ∃ ls, tokenize e.render = .ok ls ∧
        ∃ r, Reader.expression.run (.ofTokens ls) = .ok e.regrouped r ∧ r.cursor.ahead = [] := by
  let a : Name := ⟨"a", by decide⟩
  let b : Name := ⟨"b", by decide⟩
  let difference : Expr := .binary .minus (.variable a) (.variable b)
  let quotient : Expr := .binary .divide (.binary .divide (.variable a) (.variable b)) (.constant 1 true)
  let e : Expr := .binary .times difference
    (.call (.variable a) b [.binary .divide (.bracket difference) (.constant 2 false), quotient])
  have h := render_forgets_grouping (e := e) (by decide) (by decide)
  have hleft : e.nestsRight = false := by decide
  have hne : e.regrouped ≠ e := fun he => by
    rw [h.2.2.1.1 he] at hleft
    cases hleft
  exact ⟨e, by decide +kernel, hleft, hne, h.1⟩

end Expr
end ClassText
