import ClassText.Proofs.Grouping
import ClassText.Proofs.Safety

/-! The course of a session. Whatever is asked of it, its cursor only moves forward, and asking for the
next declaration comes to one of three things: there are no tokens left, a class is derived from a
beginning of them, or none is and the session has failed for good. -/
namespace ClassText

open Grammar

/-- What is moved over is a beginning of the parts ahead. -/
theorem TokenCursor.Moves.exists_passed {c d : TokenCursor} (h : Moves c d) :
    ∃ p, Token.expand (c.ahead.map (·.token)) = p ++ Token.expand (d.ahead.map (·.token)) := by
  induction h with
  | stay => exact ⟨[], rfl⟩
  | @skip l _ ls d _ _ ih =>
    obtain ⟨p, hp⟩ := ih
    refine ⟨l.token.parts ++ p, ?_⟩
    rw [List.map_cons, Token.expand_cons, List.append_assoc]
    exact congrArg _ hp
  | @split _ _ _ _ l _ ht hx _ ih =>
    obtain ⟨p, hp⟩ := ih
    refine ⟨.symbol .gt :: p, ?_⟩
    rw [List.map_cons, Token.expand_cons, Located.token_splitTo] at hp
    rw [List.map_cons, Token.expand_cons, Token.parts_of_afterAngle? ht hx, List.cons_append,
      List.cons_append]
    exact congrArg _ hp

namespace Session

variable {s : Session}

/-- A reader that accords with some beginning of a class moves its session forward, also where it
fails. -/
theorem run_moves {r : Reader α} {P : Phrase α} {p : List Token} (hr : r.Reads s.reading P)
    (ha : Reader.Accords p [] r r s.reading) : s.reading.cursor.Moves (s.run r).2.reading.cursor := by
  cases h : r.run s.reading with
  | ok a u =>
    rw [run_of_ok h]
    exact (ha.of_ok h).1
  | error e u =>
    obtain ⟨e, rfl⟩ := hr.rejected_of_error h
    rw [run_of_error h]
    exact (ha.of_rejected h).1

theorem run_nextDeclaration_moves (hs : s.Sound) :
    s.reading.cursor.Moves (s.run Reader.nextDeclaration).2.reading.cursor := by
  by_cases hn : s.reading.unread = []
  · rw [run_of_ok (Reader.run_nextDeclaration_at_end hn)]
    exact .stay
  · exact run_moves (.nextDeclaration hs hn) (Reader.Accords.nextDeclaration hs)

theorem next_moves (hs : s.Sound) : s.reading.cursor.Moves s.next.2.reading.cursor := by
  have hrun := run_nextDeclaration_moves hs
  unfold next
  split
  · exact .stay
  · split
    · next h =>
      rw [h] at hrun
      exact hrun
    · exact hrun

theorem next_sound (hs : s.Sound) : s.next.2.Sound := (perform_sound hs .next).2

/-- Nothing that is asked of a session takes its cursor back. -/
theorem perform_moves (hs : s.Sound) (o : Operation) :
    s.reading.cursor.Moves (s.perform o).2.reading.cursor := by
  cases o with
  | next => exact next_moves hs
  | nextDeclaration => exact run_nextDeclaration_moves hs
  | type =>
    obtain ⟨p, hp⟩ := exists_opens_type
    exact run_moves (.typeExpr hs) (Reader.Accords.typeExpr hs hp)
  | expression =>
    obtain ⟨p, hp⟩ := exists_opens_expr
    exact run_moves (.expression hs) (Reader.Accords.expression hs hp)
  | statement =>
    obtain ⟨p, hp⟩ := exists_opens_statement
    exact run_moves (.statement hs) (Reader.Accords.statement hs hp)

/-- Whatever is asked, a part of what was unread is passed and the rest is still unread. -/
theorem exists_passed (hs : s.Sound) (o : Operation) :
    ∃ p, s.reading.unread = p ++ (s.perform o).2.reading.unread :=
  (perform_moves hs o).exists_passed

/-- Asking for the next declaration before any failure: no token is left, or a class is derived from a
beginning of the tokens, or none is and the session has failed. -/
theorem next_cases (hs : s.Sound) (hf : s.failed = false) :
    (s.reading.unread = [] ∧ s.next = (.ok none, s)) ∨
    (∃ c p t, s.next = (.ok (some c), t) ∧ t.Sound ∧ t.failed = false ∧
      s.reading.unread = p ++ t.reading.unread ∧ DerivesClass p c) ∨
    ∃ e t, s.next = (.error (.rejected e), t) ∧ t.Sound ∧ t.failed = true ∧
      ∀ p c rest, s.reading.unread = p ++ rest → ¬ DerivesClass p c := by
  by_cases hn : s.reading.unread = []
  · exact .inl ⟨hn, next_of_ok hf (Reader.run_nextDeclaration_at_end hn)⟩
  · have hreads := Reader.Reads.nextDeclaration hs hn
    have hsound := next_sound hs
    cases h : Reader.nextDeclaration.run s.reading with
    | ok o u =>
      obtain ⟨p, hp, c, rfl, hc⟩ := hreads.run_ok_iff.1 ⟨u, h, rfl⟩
      have hnext := next_of_ok hf h
      rw [hnext] at hsound
      exact .inr (.inl ⟨c, p, _, hnext, hsound, hf, hp, hc⟩)
    | error e u =>
      obtain ⟨e, rfl⟩ := hreads.rejected_of_error h
      have hnext := next_of_rejected hf h
      rw [hnext] at hsound
      refine .inr (.inr ⟨e, _, hnext, hsound, rfl, fun p c rest hp hc => ?_⟩)
      obtain ⟨t, ht, -⟩ := hreads.run_ok_iff.2 ⟨p, hp, c, rfl, hc⟩
      rw [ht] at h
      cases h

end Session
end ClassText
