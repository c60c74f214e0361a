import ClassText.Parse
import ClassText.Proofs.Blind.Reader

/-! Layout does not matter to what is read. Sessions over the same tokens answer alike to whatever is
asked of them, in any order and after any errors, wherever the tokens stand; and sources that are cut
into the same tokens have the same tree or the same error. Only places in errors may differ. -/
namespace ClassText

open Lexeme

/-- The error without its place in the tokens. -/
def Error.unplaced : Error → Error
  | .grammatical e => .grammatical e.unplaced
  | e => e

theorem Stop.toError_unplaced (e : Stop) : e.unplaced.toError = e.toError.unplaced := by
  cases e <;> rfl

namespace Session

/-- The answer without the place of an error. -/
def unplaced (a : Except Stop α) : Except Stop α := a.mapError Stop.unplaced

theorem unplaced_map (a : Except Stop α) (f : α → β) : unplaced (a.map f) = (unplaced a).map f := by
  cases a <;> rfl

/-- Sessions that stand at the same tokens. -/
structure Same (s t : Session) : Prop where
  reading : s.reading.Same t.reading
  failed : s.failed = t.failed

/-- Answers alike, and sessions that stand at the same tokens after them. -/
def SameAnswer (a b : Except Stop α × Session) : Prop := unplaced a.1 = unplaced b.1 ∧ a.2.Same b.2

variable {s t : Session}

theorem SameAnswer.map {a b : Except Stop α × Session} (h : SameAnswer a b) (f : α → β) :
    SameAnswer (a.map (·.map f) id) (b.map (·.map f) id) := by
  refine ⟨?_, h.2⟩
  rw [Prod.map_fst, Prod.map_fst, unplaced_map, unplaced_map, h.1]

theorem run_same {r : Reader α} (hr : r.Blind) (h : s.Same t) : SameAnswer (s.run r) (t.run r) := by
  obtain ⟨a, u, v, hs, ht, huv⟩ | ⟨e, f, u, v, hs, ht, he, huv⟩ := (hr _ _ h.reading).cases
  · rw [run_of_ok hs, run_of_ok ht]
    exact ⟨rfl, huv, h.failed⟩
  · rw [run_of_error hs, run_of_error ht]
    exact ⟨congrArg Except.error he, huv, h.failed⟩

/-- Both have failed before, or they answer as the reader does; and then both fail or neither. -/
theorem next_same (h : s.Same t) : SameAnswer s.next t.next := by
  cases hf : s.failed with
  | true =>
    rw [next_of_failed hf, next_of_failed (h.failed ▸ hf)]
    exact ⟨rfl, h⟩
  | false =>
    have hf' : t.failed = false := h.failed ▸ hf
    obtain ⟨o, u, v, hs, ht, huv⟩ | ⟨e, e', u, v, hs, ht, he, huv⟩ :=
      (Reader.closed_blind.nextDeclaration _ _ h.reading).cases
    · rw [next_of_ok hf hs, next_of_ok hf' ht]
      exact ⟨rfl, huv, h.failed⟩
    · cases e with
      | rejected x =>
        cases e' with
        | rejected y =>
          rw [next_of_rejected hf hs, next_of_rejected hf' ht]
          exact ⟨congrArg Except.error he, huv, rfl⟩
        | broken f => cases he
      | broken f =>
        cases e' with
        | rejected y => cases he
        | broken f' =>
          rw [next_of_broken hf hs, next_of_broken hf' ht]
          exact ⟨congrArg Except.error he, huv, h.failed⟩

theorem perform_same (h : s.Same t) (o : Operation) : SameAnswer (s.perform o) (t.perform o) := by
  cases o with
  | next => exact (next_same h).map _
  | nextDeclaration => exact (run_same Reader.closed_blind.nextDeclaration h).map _
  | type => exact (run_same Reader.closed_blind.typeExpr h).map _
  | expression => exact (run_same Reader.closed_blind.expression h).map _
  | statement => exact (run_same Reader.closed_blind.statement h).map _

theorem answers_same (h : s.Same t) (os : List Operation) :
    (s.answers os).map unplaced = (t.answers os).map unplaced := by
  induction os generalizing s t with
  | nil => rfl
  | cons o os ih =>
    obtain ⟨hanswer, hrest⟩ := perform_same h o
    rw [answers, answers, List.map_cons, List.map_cons, hanswer, ih hrest]

end Session

/-- Reading a declaration from the same tokens answers alike, also where there is none to read. -/
theorem parseTokens_same (a b : String) {ls ms : List Located}
    (h : ls.map (·.token) = ms.map (·.token)) :
    (parseTokens a ls).1.mapError Error.unplaced = (parseTokens b ms).1.mapError Error.unplaced := by
  unfold parseTokens
  obtain ⟨o, u, v, hs, ht, -⟩ | ⟨e, f, u, v, hs, ht, he, -⟩ :=
    (Reader.closed_blind.nextDeclaration _ _ (.ofTokens h)).cases
  · rw [hs, ht]
    cases o <;> rfl
  · rw [hs, ht]
    refine congrArg Except.error ?_
    rw [← Stop.toError_unplaced, ← Stop.toError_unplaced, he]

/-- Sessions over the same tokens give the same trees, and the same errors but for their places, to any
operations in turn; and so it is with sources that are cut into the same tokens. -/
theorem indifferent_to_places {ls ms : List Located} (h : ls.map (·.token) = ms.map (·.token)) :
    (∀ os, ((Session.ofTokens ls).answers os).map Session.unplaced =
      ((Session.ofTokens ms).answers os).map Session.unplaced) ∧
    ∀ a b, tokenize a = .ok ls → tokenize b = .ok ms →
      (parse a).mapError Error.unplaced = (parse b).mapError Error.unplaced := by
  have hsame : (Session.ofTokens ls).Same (.ofTokens ms) := ⟨.ofTokens h, rfl⟩
  refine ⟨fun os => Session.answers_same hsame os, fun a b ha hb => ?_⟩
  rw [parse, ha, parse, hb]
  exact parseTokens_same a b h

/-- A compound symbol closes a type in part before errors come, under two layouts and with two spellings
of an integer. -/
theorem indifferent_to_places_behind_split :
    let a := "A<B>>c=0x10;"
    let b := "A < B /* > */ >>\nc = 1_6 ; // end"
    let os : List Session.Operation := [.type, .next, .statement, .next, .expression, .nextDeclaration]
    ∃ ls ms, tokenize a = .ok ls ∧ tokenize b = .ok ms ∧ ls ≠ ms ∧
      ls.map (·.token) = ms.map (·.token) ∧
      ((Session.ofTokens ls).answers os).map Session.unplaced =
        ((Session.ofTokens ms).answers os).map Session.unplaced ∧
      (parse a).mapError Error.unplaced = (parse b).mapError Error.unplaced := by
  intro a b os
  have hsame : ∃ ls ms, tokenize a = .ok ls ∧ tokenize b = .ok ms ∧ ls ≠ ms ∧
      ls.map (·.token) = ms.map (·.token) := by
    have hcut : ((tokenize a).toOption.any fun ls => (tokenize b).toOption.any fun ms =>
        ls ≠ ms && ls.map (·.token) = ms.map (·.token)) = true := by decide +kernel
    cases ha : tokenize a with
    | error e =>
      rw [ha] at hcut
      cases hcut
    | ok ls =>
      cases hb : tokenize b with
      | error e =>
        rw [ha, hb] at hcut
        cases hcut
      | ok ms =>
        rw [ha, hb] at hcut
        simp only [Except.toOption, Option.any_some, Bool.and_eq_true, decide_eq_true_eq] at hcut
        exact ⟨ls, ms, rfl, rfl, hcut⟩
  obtain ⟨ls, ms, ha, hb, hne, h⟩ := hsame
  obtain ⟨hanswers, hparse⟩ := indifferent_to_places h
  exact ⟨ls, ms, ha, hb, hne, h, hanswers os, hparse a b ha hb⟩

end ClassText
