import ClassText.Proofs.Canonical.Parts
import ClassText.Proofs.Failure.Declaration
import ClassText.Proofs.Recognition

/-! Errors tell the truth about what could have come. Where reading a declaration fails, what has been
consumed can be completed to a class, and so it can with anything behind it that the error expects;
and an error that the input is too short comes at its very end. -/
namespace ClassText

open Grammar Piece

namespace Expected

/-! What is admitted where a tree is expected are the canonical tokens of the trees in normal form. -/

theorem admits_type_iff {w : List Token} :
    Expected.type.Admits w ↔ ∃ t : TypeExpr, w = tokens t.pieces :=
  exists_congr fun t => t.derivesType_iff

theorem admits_expression_iff {w : List Token} :
    Expected.expression.Admits w ↔ ∃ e : Expr, e.isNormal = true ∧ w = tokens e.pieces :=
  exists_congr fun e => e.derivesExpr_iff

theorem admits_statement_iff {w : List Token} :
    Expected.statement.Admits w ↔ ∃ st : Statement, st.isNormal = true ∧ w = tokens st.pieces :=
  exists_congr fun st => st.derives_iff

end Expected

/-- What an error expects at the place where it stands. -/
def SyntaxError.alternatives : SyntaxError → List Expected
  | .unexpectedToken x _ _ _ => [x]
  | .tooFewTokens (.expected xs) _ => xs
  | _ => []

namespace Reader

/-- Something can follow with which a declaration is read, wherever the tokens stand. -/
def Completable (p : List Token) : Prop := ∃ us c, ∀ ts : List Located,
  ts.map (·.token) = p ++ us → ∃ t, nextDeclaration.run (.ofTokens ts) = .ok (some c) t

theorem completable_of_viable {p : List Token} (h : Viable p) : Completable p := by
  obtain ⟨us, c, hc⟩ := h
  refine ⟨us, c, fun ts hts => ?_⟩
  have hvisible : VisibleTokens (ts.map (·.token)) := fun x hx =>
    visible_of_derives hc (by rwa [← hts])
  have hall : Token.expand (ts.map (·.token)) = (p ++ us) ++ [] := by
    rw [hts, expand_of_derives hc, List.append_nil]
  obtain ⟨t, ht, -⟩ := (run_nextDeclaration_iff hvisible).2 ⟨p ++ us, hall, hc⟩
  exact ⟨t, ht⟩

theorem visible_ofTokens {ts : List Located} (hts : VisibleTokens (ts.map (·.token))) :
    (Reading.ofTokens ts).Visible :=
  fun name hn => hts name (Token.identifier_mem_expand.1 hn)

/-- Where reading a declaration fails, the error fits the place to which the reader has moved. -/
theorem fits_of_error {ts : List Located} (hts : VisibleTokens (ts.map (·.token))) {stop : Stop}
    {t : Reading} (h : nextDeclaration.run (.ofTokens ts) = .error stop t) :
    (TokenCursor.ofTokens ts).Moves t.cursor ∧ ∃ e p, stop = .rejected e ∧
      Token.expand (ts.map (·.token)) = p ++ t.unread ∧ e.Fits p t.cursor := by
  have hs := visible_ofTokens hts
  have hne : ts ≠ [] := by
    rintro rfl
    cases h
  have haccords : Accords [] [] nextDeclaration nextDeclaration (.ofTokens ts) :=
    Accords.nextDeclaration hs
  obtain ⟨e, rfl⟩ := (reads_nextDeclaration hts hne).rejected_of_error h
  obtain ⟨hm, -, p, hp, hfit⟩ := haccords.of_rejected h
  exact ⟨hm, e, p, rfl, hp, hfit⟩

end Reader

namespace SyntaxError.Fits

variable {e : SyntaxError} {p : List Token} {c : TokenCursor}

theorem viable (h : e.Fits p c) : Viable p := by
  cases h with
  | unexpected _ h => exact Reader.Accords.viable_of_admits h
  | tooFew _ h => exact h
  | inBody _ h => exact h
  | ambiguous _ _ h => exact h

theorem viable_append (h : e.Fits p c) {x : Expected} (hx : x ∈ e.alternatives) {w : List Token}
    (hw : x.Admits w) : Viable (p ++ w) := by
  cases h with
  | unexpected _ h =>
    obtain rfl := List.mem_singleton.1 hx
    exact h w hw
  | tooFew _ _ h => exact h x hx w hw
  | inBody => cases hx
  | ambiguous => cases hx

theorem completable_append (h : e.Fits p c) {x : Expected} (hx : x ∈ e.alternatives) {w : List Token}
    (hw : x.Admits w) : Reader.Completable (p ++ w) :=
  Reader.completable_of_viable (h.viable_append hx hw)

theorem ahead_eq_nil {shortage : Shortage} {span : Span} (h : (tooFewTokens shortage span).Fits p c) :
    c.ahead = [] := by
  cases h with
  | tooFew h => exact h
  | inBody h => exact h

end SyntaxError.Fits

/-- Where reading a declaration fails, what has been consumed can be completed, alone as well as with
anything behind it that the error expects. If the error is that there are too few tokens, none is left
unread. -/
theorem Reader.completable_of_error {ts : List Located} (hts : VisibleTokens (ts.map (·.token)))
    {stop : Stop} {t : Reading} (h : nextDeclaration.run (.ofTokens ts) = .error stop t) :
    ∃ e p, stop = .rejected e ∧ Token.expand (ts.map (·.token)) = p ++ t.unread ∧ Completable p ∧
      (∀ x ∈ e.alternatives, ∀ w, x.Admits w → Completable (p ++ w)) ∧
      ∀ shortage span, e = .tooFewTokens shortage span → t.unread = [] := by
  obtain ⟨-, e, p, he, hp, hfit⟩ := fits_of_error hts h
  refine ⟨e, p, he, hp, completable_of_viable hfit.viable, fun x hx w hw => ?_, ?_⟩
  · exact hfit.completable_append hx hw
  · rintro shortage span rfl
    exact Reading.unread_eq_nil_iff.2 hfit.ahead_eq_nil

/-- Of a compound symbol that is only partly consumed, the first character counts as consumed: behind it
a name is missed, and any name completes a class there. -/
theorem Reader.completable_of_error_behind_split :
    let consumed : List Token := [.keyword .«class», .identifier "A", .symbol .leftBrace,
      .identifier "B", .symbol .lt, .identifier "C"]
    let located : Token → Located := fun t => ⟨t, .origin, ⟨0,0⟩⟩
    let ts := (consumed ++ [Token.symbol .shr, .symbol .semicolon]).map located
    VisibleTokens (ts.map (·.token)) ∧
      ∃ e t, nextDeclaration.run (.ofTokens ts) = .error (.rejected e) t ∧
        t.unread = [.symbol .gt, .symbol .semicolon] ∧ Completable (consumed ++ [.symbol .gt]) ∧
        ∀ n : Name, Completable (consumed ++ [.symbol .gt] ++ [.identifier n.text]) := by
  intro consumed located ts
  have hts : VisibleTokens (ts.map (·.token)) := by decide +kernel
  let e : SyntaxError :=
    .unexpectedToken (.identifier Role.memberName) (.symbol .gt) ⟨1, 2, 1⟩ ⟨1, 0⟩
  let t : Reading := ⟨⟨(consumed.map located).reverse,
    [⟨.symbol .gt, ⟨1, 2, 1⟩, ⟨1, 0⟩⟩, located (.symbol .semicolon)]⟩, []⟩
  have hrun : nextDeclaration.run (.ofTokens ts) = .error (.rejected e) t := by rfl
  obtain ⟨e', p, he, hp, hcompletable, hadmits, -⟩ := completable_of_error hts hrun
  cases he
  obtain rfl : consumed ++ [.symbol .gt] = p := List.append_cancel_right (show
    (consumed ++ [.symbol .gt]) ++ t.unread = p ++ t.unread from hp)
  exact ⟨hts, e, t, hrun, rfl, hcompletable, fun n => hadmits _ List.mem_cons_self _ ⟨n,rfl⟩⟩

/-- Where an error expects a type, an expression or a statement, any tree of that kind in normal form may
follow what has been consumed, as the tree is written. -/
theorem Reader.completable_append_tree {ts : List Located}
    (hts : VisibleTokens (ts.map (·.token))) {e : SyntaxError} {t : Reading}
    (h : nextDeclaration.run (.ofTokens ts) = .error (.rejected e) t) :
    ∃ p, Token.expand (ts.map (·.token)) = p ++ t.unread ∧
      (.type ∈ e.alternatives → ∀ type : TypeExpr, Completable (p ++ tokens type.pieces)) ∧
      (.expression ∈ e.alternatives → ∀ x : Expr, x.isNormal = true →
        Completable (p ++ tokens x.pieces)) ∧
      (.statement ∈ e.alternatives → ∀ st : Statement, st.isNormal = true →
        Completable (p ++ tokens st.pieces)) := by
  obtain ⟨-, e', p, he, hp, hfit⟩ := fits_of_error hts h
  cases he
  refine ⟨p, hp, fun hx type => ?_, fun hx x hn => ?_, fun hx st hn => ?_⟩
  · exact hfit.completable_append hx (Expected.admits_type_iff.2 ⟨type, rfl⟩)
  · exact hfit.completable_append hx (Expected.admits_expression_iff.2 ⟨x, hn, rfl⟩)
  · exact hfit.completable_append hx (Expected.admits_statement_iff.2 ⟨st, hn, rfl⟩)

end ClassText
