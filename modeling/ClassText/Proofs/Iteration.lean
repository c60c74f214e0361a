import ClassText.Proofs.Course
import ClassText.Proofs.Lexeme.Scan

/-! Asking again and again. A stream of tokens gives its tokens, then the error that ends them if there is
one, and then nothing for ever. A session gives declarations, then at most one error, and then nothing
for ever, whatever else is asked of it in between; and the declarations are no more than a quarter of
its tokens. -/
namespace ClassText

open Grammar Lexeme

section Answers

variable {γ : Type} {n : Nat} {given : List γ} {last : Option γ} {nothing : γ}

/-- The first `n` answers of one who gives these, then perhaps a last one, and nothing from then on. -/
def firstAnswers (n : Nat) (given : List γ) (last : Option γ) (nothing : γ) : List γ :=
  (given ++ last.toList ++ List.replicate n nothing).take n

theorem firstAnswers_nothing : firstAnswers n [] none nothing = List.replicate n nothing := by
  simp [firstAnswers]

theorem firstAnswers_last {a : γ} :
    firstAnswers (n + 1) [] (some a) nothing = a :: List.replicate n nothing := by
  simp [firstAnswers]

theorem firstAnswers_cons {a : γ} :
    firstAnswers (n + 1) (a :: given) last nothing = a :: firstAnswers n given last nothing := by
  simp only [firstAnswers, List.cons_append, List.take_succ_cons, List.take_append, List.take_replicate]
  congr 3
  omega

end Answers

namespace Lexeme.Stream

/-- The answers to asking for the next token `n` times. -/
def answers (s : Stream) : Nat → List (Option (Except LexicalError Located))
  | 0 => []
  | n + 1 => s.next.1 :: s.next.2.answers n

theorem answers_finished (t : Tail) (n : Nat) :
    answers ⟨t, true⟩ n = List.replicate n none := by
  induction n with
  | zero => rfl
  | succ n ih =>
    have hnext : next ⟨t, true⟩ = (none, ⟨t, true⟩) := rfl
    rw [answers, hnext, ih, List.replicate_succ]

/-- The tokens of a text come one by one, then its error, then nothing. -/
theorem answers_eq (t : Tail) (n : Nat) : answers ⟨t, false⟩ n =
    firstAnswers n (t.scan.tokens.map fun l => some (.ok l)) (t.scan.error.map fun e => some (.error e))
      none := by
  induction n generalizing t with
  | zero => rfl
  | succ n ih =>
    cases hs : t.step with
    | done =>
      have hnext : next ⟨t, false⟩ = (none, ⟨t, true⟩) := by simp [next, hs]
      rw [answers, hnext, answers_finished, Tail.scan_of_done hs, List.map_nil, Option.map_none,
        firstAnswers_nothing, List.replicate_succ]
    | error e =>
      have hnext : next ⟨t, false⟩ = (some (.error e), ⟨t, true⟩) := by simp [next, hs]
      rw [answers, hnext, answers_finished, Tail.scan_of_error hs, List.map_nil, Option.map_some,
        firstAnswers_last]
    | token l after =>
      have hnext : next ⟨t, false⟩ = (some (.ok l), ⟨after, false⟩) := by simp [next, hs]
      rw [answers, hnext, ih, Tail.scan_of_token hs, List.map_cons, firstAnswers_cons]

end Lexeme.Stream

namespace Token

/-- How many of the tokens are neither compound nor part of what closes type arguments. -/
def plainCount (ts : List Token) : Nat := ts.countP fun t => decide t.Plain

theorem plainCount_append (ts us : List Token) :
    plainCount (ts ++ us) = plainCount ts + plainCount us := List.countP_append

theorem plainCount_singleton {t : Token} (h : t.Plain) : plainCount [t] = 1 := by
  simp [plainCount, h]

theorem plainCount_parts_le (t : Token) : plainCount t.parts ≤ 1 := by
  cases t with
  | symbol s =>
    have hall : ∀ s ∈ Symbol.all, plainCount (symbol s).parts ≤ 1 := by decide +kernel
    exact hall s s.mem_all
  | _ => exact List.countP_le_length

/-- Taking compound symbols apart makes no plain tokens out of nothing. -/
theorem plainCount_expand_le (ts : List Token) : plainCount (expand ts) ≤ ts.length := by
  induction ts with
  | nil => exact Nat.le_refl _
  | cons t ts ih =>
    have ht := t.plainCount_parts_le
    rw [expand_cons, plainCount_append, List.length_cons]
    omega

end Token

/-- A class has at least its reserved word, its name and its braces. -/
theorem Grammar.plainCount_of_class {p : List Token} {c : ClassDecl} (h : DerivesClass p c) :
    4 ≤ Token.plainCount p := by
  cases h with
  | intro hhead =>
  cases hhead with
  | intro _ _ _ hname =>
  cases hname with
  | intro =>
    have hword := Token.plainCount_singleton (Token.plain_keyword .«class»)
    have hname := Token.plainCount_singleton (Token.plain_identifier c.name.text)
    have hopen := Token.plainCount_singleton (t := .symbol .leftBrace) (by decide)
    have hclose := Token.plainCount_singleton (t := .symbol .rightBrace) (by decide)
    rw [← List.singleton_append]
    simp only [Token.plainCount_append, hword, hname, hopen, hclose]
    omega

namespace Session

variable {s : Session}

theorem failed_run (r : Reader α) : (s.run r).2.failed = s.failed := by
  unfold run
  split <;> rfl

/-- Only asking for the next declaration makes a session fail. -/
theorem failed_perform (o : Operation) (h : o = .next → s.failed = true) :
    (s.perform o).2.failed = s.failed := by
  cases o with
  | next =>
    have hnext := next_of_failed (h rfl)
    change s.next.2.failed = s.failed
    rw [hnext]
  | _ => exact failed_run _

/-- A session that has failed or has no tokens left. -/
def Ended (s : Session) : Prop := s.failed = true ∨ s.reading.unread = []

theorem Ended.next (h : s.Ended) : s.next = (.ok none, s) := by
  cases hf : s.failed with
  | true => exact next_of_failed hf
  | false =>
    obtain h | h := h
    · rw [hf] at h
      cases h
    · exact next_of_ok hf (Reader.run_nextDeclaration_at_end h)

/-- A session that has ended stays so, whatever is asked of it. -/
theorem Ended.perform (h : s.Ended) (hs : s.Sound) (o : Operation) : (s.perform o).2.Ended := by
  obtain h | h := h
  · left
    rw [failed_perform o fun _ => h, h]
  · right
    obtain ⟨p, hp⟩ := exists_passed hs o
    rw [h] at hp
    exact (List.append_eq_nil_iff.1 hp.symm).2

/-- Of the answers to operations in turn, those to asking for the next declaration. -/
def nextAnswers (s : Session) (os : List Operation) : List (Except Stop Answer) :=
  (os.zip (s.answers os)).filterMap fun (o, a) => if o = .next then some a else none

theorem nextAnswers_next (os : List Operation) :
    s.nextAnswers (.next :: os) = (s.perform .next).1 :: (s.perform .next).2.nextAnswers os := rfl

theorem nextAnswers_of_ne {o : Operation} (h : o ≠ .next) (os : List Operation) :
    s.nextAnswers (o :: os) = (s.perform o).2.nextAnswers os := by
  simp [nextAnswers, answers, h]

theorem nextAnswers_of_ended (h : s.Ended) (hs : s.Sound) (os : List Operation) :
    s.nextAnswers os = List.replicate (os.count .next) (.ok (.declaration none)) := by
  induction os generalizing s with
  | nil => rfl
  | cons o os ih =>
    have hrest := ih (h.perform hs o) (perform_sound hs o).2
    by_cases ho : o = .next
    · subst ho
      have hanswer : (s.perform .next).1 = .ok (.declaration none) := by
        rw [Session.perform, h.next]
        rfl
      rw [nextAnswers_next, hanswer, hrest, List.count_cons_self, List.replicate_succ]
    · rw [nextAnswers_of_ne ho, hrest, List.count_cons_of_ne ho]

/-- Each class takes its plain tokens from those unread, and after an error or at the end there is nothing
any more. -/
theorem nextAnswers_eq (hs : s.Sound) (hf : s.failed = false) (os : List Operation) :
    ∃ (cs : List ClassDecl) (e : Option SyntaxError),
      4 * cs.length ≤ Token.plainCount s.reading.unread ∧
      s.nextAnswers os = firstAnswers (os.count .next) (cs.map fun c => .ok (.declaration (some c)))
        (e.map fun e => .error (.rejected e)) (.ok (.declaration none)) := by
  induction os generalizing s with
  | nil => exact ⟨[], none, Nat.zero_le _, rfl⟩
  | cons o os ih =>
    by_cases ho : o = .next
    · subst ho
      rw [List.count_cons_self]
      obtain ⟨hn, -⟩ | ⟨c, p, t, ht, hs', hf', hp, hc⟩ | ⟨e, t, ht, hs', hf', -⟩ := next_cases hs hf
      · refine ⟨[], none, Nat.zero_le _, ?_⟩
        rw [nextAnswers_of_ended (.inr hn) hs, List.count_cons_self, List.map_nil, Option.map_none,
          firstAnswers_nothing]
      · obtain ⟨cs, e, hle, hrest⟩ := ih hs' hf'
        have hcount := plainCount_of_class hc
        refine ⟨c :: cs, e, ?_, ?_⟩
        · rw [hp, Token.plainCount_append, List.length_cons]
          omega
        · rw [nextAnswers_next, perform, ht, List.map_cons, firstAnswers_cons, ← hrest]
          rfl
      · refine ⟨[], some e, Nat.zero_le _, ?_⟩
        have hrest := nextAnswers_of_ended (.inl hf') hs' os
        rw [nextAnswers_next, perform, ht, List.map_nil, Option.map_some, firstAnswers_last, ← hrest]
        rfl
    · obtain ⟨p, hp⟩ := exists_passed hs o
      obtain ⟨cs, e, hle, hrest⟩ := ih (perform_sound hs o).2
        ((failed_perform o fun h => absurd h ho).trans hf)
      refine ⟨cs, e, ?_, ?_⟩
      · rw [hp, Token.plainCount_append]
        omega
      · rw [nextAnswers_of_ne ho, List.count_cons_of_ne ho, hrest]

end Session

/-- A stream of tokens gives the tokens of its text, then its error, and then nothing for ever. A session
gives at most a class for every four tokens, then at most one error, and then nothing for ever, whatever
is asked of it in between. -/
theorem iteration_ends :
    (∀ source n, (Stream.ofSource source).answers n =
      firstAnswers n ((scan source).tokens.map fun l => some (.ok l))
        ((scan source).error.map fun e => some (.error e)) none) ∧
    ∀ ls, VisibleTokens (ls.map (·.token)) → ∀ os : List Session.Operation,
      ∃ (cs : List ClassDecl) (e : Option SyntaxError), cs.length ≤ ls.length / 4 ∧
        (Session.ofTokens ls).nextAnswers os =
          firstAnswers (os.count .next) (cs.map fun c => .ok (.declaration (some c)))
            (e.map fun e => .error (.rejected e)) (.ok (.declaration none)) := by
  refine ⟨fun source n => Stream.answers_eq (Tail.ofSource source) n, fun ls hls os => ?_⟩
  obtain ⟨cs, e, hle, hanswers⟩ := Session.nextAnswers_eq (s := .ofTokens ls)
    (Reader.visible_ofTokens hls) rfl os
  refine ⟨cs, e, ?_, hanswers⟩
  have hplain := Token.plainCount_expand_le (ls.map (·.token))
  rw [List.length_map] at hplain
  change 4 * cs.length ≤ Token.plainCount (Token.expand (ls.map (·.token))) at hle
  omega

/-- Between two classes a type is read of which the closing sign is part of a compound symbol; behind the
second class an error ends what is given. -/
theorem iteration_ends_behind_split :
    let tokens : List Token := [.keyword .«class», .identifier "A", .symbol .leftBrace, .symbol .rightBrace,
      .identifier "B", .symbol .lt, .identifier "C", .symbol .shr]
    let ls : List Located := tokens.map fun t => ⟨t, .origin, ⟨0, 0⟩⟩
    let os : List Session.Operation := [.next, .type, .next, .statement, .next, .next]
    VisibleTokens (ls.map (·.token)) ∧
      ∃ (cs : List ClassDecl) (e : Option SyntaxError), cs.length ≤ 2 ∧
        (Session.ofTokens ls).nextAnswers os =
          firstAnswers 4 (cs.map fun c => .ok (.declaration (some c)))
            (e.map fun e => .error (.rejected e)) (.ok (.declaration none)) := by
  intro tokens ls os
  have hls : VisibleTokens (ls.map (·.token)) := by decide +kernel
  have hcount : os.count .next = 4 := rfl
  have hlength : ls.length / 4 = 2 := by decide
  obtain ⟨cs, e, hle, hanswers⟩ := iteration_ends.2 ls hls os
  rw [hlength] at hle
  rw [hcount] at hanswers
  exact ⟨hls, cs, e, hle, hanswers⟩

end ClassText
