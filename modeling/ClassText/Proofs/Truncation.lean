import ClassText.Proofs.Expectation
import ClassText.Proofs.RoundTrip

/-! Inputs that are cut off. Any proper beginning of the tokens of a class is refused as too short, save
where its end is taken for something else: a final dot that might have gone on with a chain, or a
name that might have gone on with a statement. -/
namespace ClassText

open Grammar Lexeme

namespace Token

theorem length_le_expand (ts : List Token) : ts.length ≤ (expand ts).length := by
  induction ts with
  | nil => exact Nat.le_refl _
  | cons t ts ih =>
    have hpos := List.length_pos_iff.2 t.parts_ne_nil
    rw [expand_cons, List.length_append, List.length_cons]
    omega

/-- What is left behind more tokens is less, also when compound symbols are taken apart. -/
theorem length_expand_drop_lt {ts : List Token} {m n : Nat} (h : n < m) (hm : m ≤ ts.length) :
    (expand (ts.drop m)).length < (expand (ts.drop n)).length := by
  have hsplit : ts.drop n = (ts.drop n).take (m - n) ++ ts.drop m := by
    have hdrop : ts.drop m = (ts.drop n).drop (m - n) := by
      rw [List.drop_drop]
      congr 1
      omega
    rw [hdrop, List.take_append_drop]
  have htaken : 0 < ((ts.drop n).take (m - n)).length := by
    rw [List.length_take, List.length_drop]
    omega
  have hle := length_le_expand ((ts.drop n).take (m - n))
  rw [hsplit, expand_append, List.length_append]
  omega

end Token

/-- The end of the tokens taken for something else: a final dot is found instead of what is expected, or
a statement is refused of which there is a name and at most a dot. -/
inductive SyntaxError.MistakesEnd : SyntaxError → List Located → Prop
  | dot : l.token = .symbol .dot →
      MistakesEnd (.unexpectedToken x l.token l.position l.span) (ls ++ [l])
  | name : l.token = .identifier name → (rest = [] ∨ ∃ d, rest = [d] ∧ d.token = .symbol .dot) →
      MistakesEnd (.ambiguousStatement l.position ⟨l.span.start, max l.span.stop l.span.start⟩)
        (ls ++ l :: rest)

namespace TokenCursor

/-- A dot is no remainder of a compound symbol. -/
theorem ne_dot_of_afterAngle? {x left : Symbol} (h : x.afterAngle? = some left) : left ≠ .dot := by
  rintro rfl
  cases x <;> cases h

/-- What has been moved over last and is a name stands where it has stood, also if a dot is left. -/
theorem Moves.ends_with {c : TokenCursor} {ls last : List Located} {b : List Located}
    (h : (ofTokens ls).Moves c) (hc : c.input = b ++ last)
    (hlast : ∀ l ∈ last, l.token = .symbol .dot ∨ ∃ name, l.token = .identifier name) :
    ∃ before, ls = before ++ last := by
  have hremains := h.remains
  rw [input_ofTokens, hc] at hremains
  refine ⟨_, Located.Remains.eq_append_of_forall₂ hremains fun l hl x left hx hleft => ?_⟩
  obtain hdot | ⟨name, hname⟩ := hlast l hl
  · rw [hleft] at hdot
    exact ne_dot_of_afterAngle? hx (Token.symbol.inj hdot)
  · rw [hleft] at hname
    cases hname

end TokenCursor

/-- Where so little is ahead that more tokens could have made a difference, an error says that there are
too few or mistakes the end. -/
theorem SyntaxError.Fits.tooFew_or_mistakesEnd {e : SyntaxError} {p : List Token} {c : TokenCursor}
    {ls : List Located} (h : e.Fits p c) (hc : c.Pending) (hm : (TokenCursor.ofTokens ls).Moves c) :
    (∃ shortage span, e = .tooFewTokens shortage span) ∨ e.MistakesEnd ls := by
  cases h with
  | @unexpected l _ _ _ hl =>
    obtain hc | ⟨d, hc, hd⟩ := hc
    · rw [TokenCursor.get?, hc] at hl
      cases hl
    · obtain rfl : d = l := by simpa [TokenCursor.get?, hc] using hl
      have hinput : c.input = c.behind.reverse ++ [d] := by rw [TokenCursor.input, hc]
      obtain ⟨before, rfl⟩ := hm.ends_with hinput (by simp [hd])
      exact .inr (.dot hd)
  | tooFew => exact .inl ⟨_, _, rfl⟩
  | inBody => exact .inl ⟨_, _, rfl⟩
  | @ambiguous l _ _ name hl hname =>
    obtain ⟨b, hb⟩ := List.head?_eq_some_iff.1 hl
    have hinput : c.input = b.reverse ++ l :: c.ahead := by simp [TokenCursor.input, hb]
    have hlast : ∀ m ∈ l :: c.ahead, m.token = .symbol .dot ∨ ∃ name, m.token = .identifier name := by
      intro m hmem
      obtain rfl | hmem := List.mem_cons.1 hmem
      · exact .inr ⟨name, hname⟩
      · obtain hc | ⟨d, hc, hd⟩ := hc
        · rw [hc] at hmem
          cases hmem
        · rw [hc] at hmem
          exact .inl (by rw [List.mem_singleton.1 hmem, hd])
    obtain ⟨before, rfl⟩ := hm.ends_with hinput hlast
    exact .inr (.name hname hc)

namespace Reader

/-- What a reading of a class has moved over. -/
theorem moves_of_run {ls : List Located} (hts : VisibleTokens (ls.map (·.token))) {c : ClassDecl}
    {r : Reading} (hrun : nextDeclaration.run (.ofTokens ls) = .ok (some c) r) :
    (TokenCursor.ofTokens ls).Moves r.cursor := by
  have haccords : Accords [] [] nextDeclaration nextDeclaration (.ofTokens ls) :=
    Accords.nextDeclaration (visible_ofTokens hts)
  exact (haccords.of_ok hrun).1

/-- If a class is read from the tokens, none is read from fewer than have been consumed. -/
theorem not_derives_take {ls : List Located} (hts : VisibleTokens (ls.map (·.token))) {c : ClassDecl}
    {r : Reading} (hrun : nextDeclaration.run (.ofTokens ls) = .ok (some c) r) {n : Nat}
    (hn : n < r.cursor.behind.length) {p rest : List Token} {d : ClassDecl}
    (hp : Token.expand ((ls.take n).map (·.token)) = p ++ rest) : ¬ DerivesClass p d := by
  intro hd
  obtain ⟨q, hq, hc⟩ := (run_nextDeclaration_iff hts).1 ⟨r, hrun, rfl⟩
  have hall : Token.expand (ls.map (·.token)) =
      p ++ (rest ++ Token.expand ((ls.drop n).map (·.token))) := by
    rw [← List.append_assoc, ← hp, ← Token.expand_append, ← List.map_append, List.take_append_drop]
  obtain ⟨rfl, -⟩ := derivation_unique (visible_ofTokens hts) hall hd hq hc
  have hrest : rest ++ Token.expand ((ls.drop n).map (·.token)) = r.unread :=
    List.append_cancel_left (hall.symm.trans hq)
  have hmoves := moves_of_run hts hrun
  have hsize := hmoves.size_le
  have hlength := hmoves.remains.length_eq
  rw [TokenCursor.input_ofTokens] at hsize hlength
  rw [TokenCursor.length_input] at hlength
  have hlt : (Token.expand ((ls.drop r.cursor.behind.length).map (·.token))).length <
      (Token.expand ((ls.drop n).map (·.token))).length := by
    rw [List.map_drop, List.map_drop]
    refine Token.length_expand_drop_lt hn ?_
    rw [List.length_map]
    omega
  have hle := congrArg List.length hrest
  rw [List.length_append] at hle
  have hunread : r.cursor.size = r.unread.length := rfl
  omega

/-- Where the tokens of a class are cut off, the reader stops at the end of what is left, with an error
that fits. -/
theorem run_take {ls : List Located} (hts : VisibleTokens (ls.map (·.token))) {c : ClassDecl}
    {r : Reading} (hrun : nextDeclaration.run (.ofTokens ls) = .ok (some c) r) {n : Nat}
    (hn : n < r.cursor.behind.length) (hne : ls.take n ≠ []) :
    ∃ e t, nextDeclaration.run (.ofTokens (ls.take n)) = .error (.rejected e) t ∧
      ((∃ shortage span, e = .tooFewTokens shortage span) ∨ e.MistakesEnd (ls.take n)) := by
  have htake : VisibleTokens ((ls.take n).map (·.token)) := fun name h =>
    hts name (by rw [List.map_take] at h; exact List.mem_of_mem_take h)
  have hall : (Reading.ofTokens (ls.take n)).extend (ls.drop n) = .ofTokens ls := by
    simp [Reading.extend, Reading.ofTokens, TokenCursor.ofTokens]
  have hreads := reads_nextDeclaration htake hne
  have haccords : Accords [] (ls.drop n) nextDeclaration nextDeclaration (.ofTokens (ls.take n)) :=
    Accords.nextDeclaration (visible_ofTokens htake)
  cases ht : nextDeclaration.run (.ofTokens (ls.take n)) with
  | ok o t =>
    obtain ⟨p, hp, d, -, hd⟩ := hreads.run_ok_iff.1 ⟨t, ht, rfl⟩
    exact absurd hd (not_derives_take hts hrun hn hp)
  | error stop t =>
    obtain ⟨e, rfl⟩ := hreads.rejected_of_error ht
    obtain ⟨hm, hpending | hsame, p, -, hfit⟩ := haccords.of_rejected ht
    · exact ⟨e, t, rfl, hfit.tooFew_or_mistakesEnd hpending hm⟩
    · rw [hall, hrun] at hsame
      cases hsame

end Reader

/-- However the tokens of a class are cut off, reading them fails because there are too few, or the end
of the cut is mistaken for something else. -/
theorem parseTokens_take_of_parse {source : String} {c : ClassDecl} (h : parse source = .ok c) :
    ∃ ls r, tokenize source = .ok ls ∧
      Reader.nextDeclaration.run (.ofTokens ls) = .ok (some c) r ∧
      ∀ n < r.cursor.behind.length, ∃ e,
        (parseTokens source (ls.take n)).1 = .error (.grammatical e) ∧
        ((∃ shortage span, e = .tooFewTokens shortage span) ∨ e.MistakesEnd (ls.take n)) := by
  obtain ⟨ls, r, hls, hrun⟩ := parse_iff_run.1 h
  refine ⟨ls, r, hls, hrun, fun n hn => ?_⟩
  by_cases hne : ls.take n = []
  · rw [hne]
    exact ⟨emptySource source, rfl, .inl ⟨_, _, rfl⟩⟩
  · obtain ⟨e, t, ht, he⟩ := Reader.run_take (visible_of_tokenize hls) hrun hn hne
    refine ⟨e, ?_, he⟩
    rw [parseTokens, ht]
    rfl

/-- All beginnings of a short class, the empty one among them. -/
theorem parseTokens_take_of_parse_assignment :
    ∃ c, parse "class A{void f(){a.b=c.d;}}" = .ok c ∧
      ∃ ls r, tokenize "class A{void f(){a.b=c.d;}}" = .ok ls ∧
        Reader.nextDeclaration.run (.ofTokens ls) = .ok (some c) r ∧
        ∀ n < r.cursor.behind.length, ∃ e,
          (parseTokens "class A{void f(){a.b=c.d;}}" (ls.take n)).1 = .error (.grammatical e) ∧
          ((∃ shortage span, e = .tooFewTokens shortage span) ∨ e.MistakesEnd (ls.take n)) := by
  have hread : (parse "class A{void f(){a.b=c.d;}}").toOption.isSome = true := by decide +kernel
  cases h : parse "class A{void f(){a.b=c.d;}}" with
  | error e =>
    rw [h] at hread
    cases hread
  | ok c => exact ⟨c, rfl, parseTokens_take_of_parse h⟩

/-- Cut behind the first name, the assignment is told to be no statement; cut behind its second dot, the
dot is told to stand in the place of the semicolon. -/
theorem parseTokens_take_mistaken :
    ∃ c ls r, parse "class A{void f(){a.b=c.d;}}" = .ok c ∧
      tokenize "class A{void f(){a.b=c.d;}}" = .ok ls ∧
      Reader.nextDeclaration.run (.ofTokens ls) = .ok (some c) r ∧ r.cursor.behind.length = 18 ∧
      (parseTokens "class A{void f(){a.b=c.d;}}" (ls.take 9)).1 =
        .error (.grammatical (.ambiguousStatement ⟨1, 18, 17⟩ ⟨17, 18⟩)) ∧
      (parseTokens "class A{void f(){a.b=c.d;}}" (ls.take 14)).1 = .error (.grammatical
        (.unexpectedToken (.token (.symbol .semicolon)) (.symbol .dot) ⟨1, 23, 22⟩ ⟨22, 23⟩)) := by
  have hread : (parse "class A{void f(){a.b=c.d;}}").toOption.isSome = true := by decide +kernel
  have hcuts : ((tokenize "class A{void f(){a.b=c.d;}}").toOption.all fun ls =>
      (parseTokens "class A{void f(){a.b=c.d;}}" ls).2.cursor.behind.length = 18 &&
      (parseTokens "class A{void f(){a.b=c.d;}}" (ls.take 9)).1 =
        .error (.grammatical (.ambiguousStatement ⟨1, 18, 17⟩ ⟨17, 18⟩)) &&
      (parseTokens "class A{void f(){a.b=c.d;}}" (ls.take 14)).1 = .error (.grammatical
        (.unexpectedToken (.token (.symbol .semicolon)) (.symbol .dot) ⟨1, 23, 22⟩ ⟨22, 23⟩))) = true := by
    decide +kernel
  cases h : parse "class A{void f(){a.b=c.d;}}" with
  | error e =>
    rw [h] at hread
    cases hread
  | ok c =>
    obtain ⟨ls, r, hls, hrun⟩ := parse_iff_run.1 h
    have hlast : (parseTokens "class A{void f(){a.b=c.d;}}" ls).2 = r := by rw [parseTokens, hrun]
    simp only [hls, Except.toOption, Option.all_some, Bool.and_eq_true, decide_eq_true_eq, hlast] at hcuts
    exact ⟨c, ls, r, rfl, hls, hrun, hcuts.1.1, hcuts.1.2, hcuts.2⟩

end ClassText
