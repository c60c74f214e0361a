import ClassText.Proofs.Lexeme.Scanner
import ClassText.Proofs.RoundTrip

/-! No precondition is ever broken. The scanner of a source asks its cursor for nothing that is not there,
and whatever is asked of a session over the tokens of a source, in any order and after any errors,
no node is built from what it may not be built from. -/
namespace ClassText

open Lexeme

namespace Reader

/-- The token `n` places ahead, taken behind the question whether there is one. -/
def look (n : Nat) : Reader (Option Token) := do
  let c := (← get).cursor
  if ← build (c.hasNextAt (n + 1)) then return some (← build (c.currentAt n)) else return none

/-- Looking ahead without that question finds the same, so that no look goes beyond the last token. -/
theorem look_eq_peek? (n : Nat) : look n = peek? n := by
  funext s
  have hr : look n s = (do
      if ← build (s.cursor.hasNextAt (n + 1)) then return some (← build (s.cursor.currentAt n))
      else return none : Reader (Option Token)) s := rfl
  have hask : s.cursor.hasNextAt (n + 1) = .ok (decide (n + 1 ≤ s.cursor.ahead.length)) := rfl
  have hpeek : peek? n s = .ok (s.cursor.peek? n) s := rfl
  rw [hr, hask, hpeek]
  by_cases h : n < s.cursor.ahead.length
  · have hc : s.cursor.peek? n = some s.cursor.ahead[n].token := by
      simp [TokenCursor.peek?, TokenCursor.get?, h]
    have hcur : s.cursor.currentAt n = .ok s.cursor.ahead[n].token := by
      rw [TokenCursor.currentAt, hc]
    rw [decide_eq_true (Nat.succ_le_of_lt h), hcur, hc]
    rfl
  · have hc : s.cursor.peek? n = none := by
      simp [TokenCursor.peek?, TokenCursor.get?, Nat.le_of_not_lt h]
    rw [decide_eq_false (by omega), hc]
    rfl

/-- At the end of the tokens there is no declaration, and nothing changes. -/
theorem run_nextDeclaration_at_end {s : Reading} (h : s.unread = []) :
    nextDeclaration.run s = .ok none s := by
  have hc := s.peek?_zero_eq_none_iff.2 h
  have hr : nextDeclaration.run s = (if (s.cursor.peek? 0).isNone = true then pure none else do
      let c ← classDecl
      record (.declaration c.name c.fields.length c.methods.length)
      return some c : Reader (Option ClassDecl)).run s := rfl
  rw [hr, hc]
  rfl

end Reader

namespace Session

/-- A session that has stopped where no unread identifier is blank. -/
def Sound (s : Session) : Prop := s.reading.Visible

/-- An answer that does not come from a broken precondition. -/
def Proper (a : Except Stop α) : Prop := ∀ f, a ≠ .error (.broken f)

theorem Proper.map {a : Except Stop α} (h : Proper a) (f : α → β) : Proper (a.map f) := by
  cases a with
  | ok a => exact nofun
  | error e =>
    intro g hg
    exact h g (by rw [Except.error.inj hg])

/-- What a reader reads is proper, and it stops where nothing unread is blank. -/
theorem run_sound {r : Reader α} {P : Phrase α} {s : Session} (h : Reader.Reads r s.reading P) :
    Proper (s.run r).1 ∧ (s.run r).2.Sound := by
  unfold Reader.Reads at h
  unfold run
  cases hr : r.run s.reading with
  | ok a t =>
    rw [hr] at h
    exact ⟨nofun, h.1⟩
  | error e t =>
    rw [hr] at h
    cases e with
    | rejected e => exact ⟨nofun, h.1⟩
    | broken f => exact h.elim

theorem run_nextDeclaration_sound {s : Session} (hs : s.Sound) :
    Proper (s.run Reader.nextDeclaration).1 ∧ (s.run Reader.nextDeclaration).2.Sound := by
  by_cases hn : s.reading.unread = []
  · rw [run_of_ok (Reader.run_nextDeclaration_at_end hn)]
    exact ⟨nofun, hs⟩
  · exact run_sound (Reader.Reads.nextDeclaration hs hn)

/-- One operation keeps a session sound, also where it fails. -/
theorem perform_sound {s : Session} (hs : s.Sound) (o : Operation) :
    Proper (s.perform o).1 ∧ (s.perform o).2.Sound := by
  cases o with
  | next =>
    obtain ⟨hp, hs'⟩ := run_nextDeclaration_sound hs
    have hnext : Proper s.next.1 ∧ s.next.2.Sound := by
      unfold next
      split
      · exact ⟨nofun,hs⟩
      · split
        · next e t h =>
          rw [h] at hs'
          exact ⟨nofun,hs'⟩
        · exact ⟨hp,hs'⟩
    exact ⟨hnext.1.map _, hnext.2⟩
  | nextDeclaration =>
    obtain ⟨hp, hs'⟩ := run_nextDeclaration_sound hs
    exact ⟨hp.map _, hs'⟩
  | type =>
    obtain ⟨hp, hs'⟩ := run_sound (Reader.Reads.typeExpr hs)
    exact ⟨hp.map _, hs'⟩
  | expression =>
    obtain ⟨hp, hs'⟩ := run_sound (Reader.Reads.expression hs)
    exact ⟨hp.map _, hs'⟩
  | statement =>
    obtain ⟨hp, hs'⟩ := run_sound (Reader.Reads.statement hs)
    exact ⟨hp.map _, hs'⟩

theorem proper_of_mem_answers {s : Session} (hs : s.Sound) {os : List Operation}
    {a : Except Stop Answer} (ha : a ∈ s.answers os) : Proper a := by
  induction os generalizing s with
  | nil => cases ha
  | cons o os ih =>
    obtain ⟨hp, hs'⟩ := perform_sound hs o
    obtain rfl | ha := List.mem_cons.1 ha
    · exact hp
    · exact ih hs' ha

theorem sound_ofTokens {source : String} {ls : List Located} (h : tokenize source = .ok ls) :
    (ofTokens ls).Sound := fun name hn =>
  visible_of_tokenize h name (Token.identifier_mem_expand.1 hn)

end Session

theorem parse_ne_broken (source : String) (f : Fault) : parse source ≠ .error (.broken f) := by
  unfold parse
  cases hls : tokenize source with
  | error e =>
    intro h
    cases h
  | ok ls =>
    have hp := (Session.run_nextDeclaration_sound (Session.sound_ofTokens hls)).1
    simp only [Session.run, Session.ofTokens] at hp
    dsimp only
    unfold parseTokens
    cases hr : Reader.nextDeclaration.run (.ofTokens ls) with
    | ok o r =>
      intro h
      cases o <;> cases h
    | error e r =>
      rw [hr] at hp
      cases e with
      | rejected e =>
        intro h
        cases h
      | broken f => exact absurd rfl (hp f)

/-- No source breaks a precondition. The scanner of characters gives its tokens or an error of it, with
each look and each move within the text; reading it gives a tree or an error of it; each look at its
tokens stands behind the question whether there is one; and so it is with whatever is asked of a
session over its tokens. -/
theorem never_broken (source : String) :
    ((∃ ls c, Scanner.tokens.run (.ofSource source) = .ok ls c ∧ tokenize source = .ok ls) ∨
      ∃ e c, Scanner.tokens.run (.ofSource source) = .error (.rejected e) c ∧
        tokenize source = .error e) ∧
    (∀ f, parse source ≠ .error (.broken f)) ∧
    (∀ n, Reader.look n = Reader.peek? n) ∧
    ∀ ls, tokenize source = .ok ls → ∀ os, ∀ a ∈ (Session.ofTokens ls).answers os,
      ∀ f, a ≠ .error (.broken f) :=
  ⟨Scanner.run_tokens source, parse_ne_broken source, Reader.look_eq_peek?, fun _ hls _ _ ha =>
    Session.proper_of_mem_answers (Session.sound_ofTokens hls) ha⟩

/-- A session goes on behind a compound symbol of which only the first character has closed a type. -/
theorem never_broken_behind_split : ∃ ls, tokenize "A<B>>c;" = .ok ls ∧
    ∀ a ∈ (Session.ofTokens ls).answers [.type, .next, .statement, .next, .expression, .nextDeclaration],
      ∀ f, a ≠ .error (.broken f) := by
  have hok : (tokenize "A<B>>c;").toOption.isSome = true := by decide +kernel
  cases hls : tokenize "A<B>>c;" with
  | error e =>
    rw [hls] at hok
    cases hok
  | ok ls => exact ⟨ls, rfl, (never_broken "A<B>>c;").2.2.2 ls hls _⟩

end ClassText
