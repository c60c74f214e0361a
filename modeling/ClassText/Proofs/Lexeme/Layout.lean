import ClassText.Proofs.Lexeme.Cursor
import ClassText.Proofs.Lexeme.Spelling

/-! The layout that a scanner passes over. It is followed through the step that reads a token from the
text as a whole: passing over a part of the layout leaves that step as it was. -/
namespace ClassText.Lexeme.Scanner

/-- From `c` to `d` there is a beginning of the layout that `split` sets apart, and behind `d` what is
left of it. -/
def Ends (split : List Char × List Char) (c d : CharacterCursor) : Prop :=
  ∃ taken, c.ahead = taken ++ d.ahead ∧ d.position = c.position.after taken ∧
    split = (taken ++ (splitLayout d.ahead).1, (splitLayout d.ahead).2)

/-- From `c` to `d` there is nothing but layout. -/
def Skips (c d : CharacterCursor) : Prop := Ends (splitLayout c.ahead) c d

variable {p : Position} {cs : List Char} {c d e : CharacterCursor}

theorem Ends.cons {split : List Char × List Char} {x : Char} (h : Ends split ⟨p.advance x, cs⟩ d) :
    Ends (x :: split.1, split.2) ⟨p, x :: cs⟩ d := by
  obtain ⟨t, ha, hp, rfl⟩ := h
  exact ⟨x :: t, congrArg (x :: ·) ha, hp, rfl⟩

theorem Ends.trans {split : List Char × List Char} (h : Ends split c d) (h' : Skips d e) :
    Ends split c e := by
  obtain ⟨t, ha, hp, rfl⟩ := h
  obtain ⟨u, ha', hp', hl⟩ := h'
  refine ⟨t ++ u, ?_, ?_, ?_⟩
  · rw [ha, ha', List.append_assoc]
  · rw [hp', hp, Position.after_append]
  · rw [hl, List.append_assoc]

theorem Ends.length_le {split : List Char × List Char} (h : Ends split c d) :
    d.ahead.length ≤ c.ahead.length := by
  obtain ⟨t, ha, -, -⟩ := h
  rw [ha, List.length_append]
  omega

theorem Skips.refl (c : CharacterCursor) : Skips c c := ⟨[], rfl, rfl, rfl⟩

/-- Passing over layout does not change what the next step finds. -/
theorem Skips.step_eq (h : Skips c d) : c.tail.step = d.tail.step := by
  obtain ⟨t, -, hp, hl⟩ := h
  simp only [Tail.step, CharacterCursor.tail, hl, hp, Position.after_append]

/-- Layout is passed over, and `moved` tells whether there has been any. -/
def Passes (moved : Bool) (c d : CharacterCursor) : Prop :=
  Skips c d ∧ if moved then d.ahead.length < c.ahead.length else d = c

theorem Passes.trans {b b' : Bool} (h : Passes b c d) (h' : Passes b' d e) : Passes (b || b') c e := by
  obtain ⟨hs, hb⟩ := h
  obtain ⟨hs', hb'⟩ := h'
  have hle := hs.length_le
  have hle' := hs'.length_le
  refine ⟨Ends.trans hs hs', ?_⟩
  cases b <;> cases b' <;> simp_all
  all_goals omega

theorem run_lineStep (x : Char) : lineStep.run ⟨p, x :: cs⟩ =
    .ok (if x = '\n' then none else some ()) ⟨p.advance x, cs⟩ := rfl

theorem run_collect_lineStep (c : CharacterCursor) :
    ∃ us d, (collect lineStep).run c = .ok us d ∧ Ends (inLine c.ahead) c d := by
  refine collect_induct (P := fun c r => ∃ us d, r = .ok us d ∧ Ends (inLine c.ahead) c d) ?_ c
  rintro ⟨p, cs⟩
  cases cs with
  | nil => exact ⟨[], ⟨p,[]⟩, rfl, [], rfl, rfl, rfl⟩
  | cons x xs =>
    rw [run_lineStep]
    by_cases hx : x = '\n'
    · have hend : Ends (splitLayout xs) ⟨p.advance x, xs⟩ ⟨p.advance x, xs⟩ := Skips.refl _
      have hline : inLine (x :: xs) = (x :: (splitLayout xs).1, (splitLayout xs).2) := by
        simp [inLine, hx]
      rw [if_pos hx]
      exact ⟨[], _, rfl, hline ▸ hend.cons⟩
    · have hline : inLine (x :: xs) = (x :: (inLine xs).1, (inLine xs).2) := by
        simp [inLine, hx]
      rw [if_neg hx]
      refine ⟨Nat.lt_succ_self _, ?_⟩
      rintro _ ⟨us, d, rfl, hd⟩
      exact ⟨() :: us, d, rfl, hline ▸ hd.cons⟩

theorem run_blockStep (q : Position) (x y : Char) : (blockStep q).run ⟨p, x :: y :: cs⟩ =
    if x == '*' && y == '/' then .ok none ⟨(p.advance x).advance y, cs⟩
    else .ok (some ()) ⟨p.advance x, y :: cs⟩ := by
  have hr : (blockStep q).run ⟨p, x :: y :: cs⟩ = (do
      if ← pairIs '*' '/' then
        advanceBy 2
        return none
      else
        advanceBy 1
        return some () : Scanner (Option Unit)).run ⟨p, x :: y :: cs⟩ := rfl
  rw [hr, EStateM.run_bind, run_pairIs]
  simp only [List.isPrefixOf, Bool.and_true, Bool.beq_comm (a := '*'), Bool.beq_comm (a := '/')]
  split <;> rfl

/-- A block comment is passed over up to its closing mark, and an open one is an error at `q`. -/
theorem run_collect_blockStep (q : Position) (c : CharacterCursor) :
    (∃ us d s, (collect (blockStep q)).run c = .ok us d ∧ inBlock c.ahead = some s ∧ Ends s c d) ∨
    (inBlock c.ahead = none ∧ ∃ d, (collect (blockStep q)).run c =
      .error (.rejected (.unterminatedComment q ⟨q.offset, q.offset + 2⟩)) d) := by
  refine collect_induct (P := fun c r =>
    (∃ us d s, r = .ok us d ∧ inBlock c.ahead = some s ∧ Ends s c d) ∨
    (inBlock c.ahead = none ∧
      ∃ d, r = .error (.rejected (.unterminatedComment q ⟨q.offset, q.offset + 2⟩)) d)) ?_ c
  rintro ⟨p, cs⟩
  cases cs with
  | nil => exact .inr ⟨rfl,_,rfl⟩
  | cons x xs =>
    cases xs with
    | nil => exact .inr ⟨by simp [inBlock], _, rfl⟩
    | cons y ys =>
      rw [run_blockStep]
      by_cases hxy : (x == '*' && y == '/') = true
      · obtain ⟨rfl, rfl⟩ : x = '*' ∧ y = '/' := by simpa using hxy
        have hend : Ends (splitLayout ys) ⟨(p.advance '*').advance '/', ys⟩ _ := Skips.refl _
        exact .inl ⟨[], _, _, rfl, by simp [inBlock], hend.cons.cons⟩
      · have hblock : inBlock (x :: y :: ys) =
            (inBlock (y :: ys)).map fun s => (x :: s.1, s.2) := by
          rw [inBlock]
          rintro ds rfl h
          cases h
          exact hxy rfl
        rw [if_neg hxy]
        refine ⟨Nat.lt_succ_self _, ?_⟩
        rintro _ (⟨us, d, s, rfl, hs, hd⟩ | ⟨hs, d, rfl⟩)
        · exact .inl ⟨() :: us, d, _, rfl, by rw [hblock, hs]; rfl, hd.cons⟩
        · exact .inr ⟨by rw [hblock, hs]; rfl, d, rfl⟩

theorem passes_blanks (c : CharacterCursor) : Passes (!(c.ahead.takeWhile Text.isBlank).isEmpty) c
    ⟨c.position.after (c.ahead.takeWhile Text.isBlank), c.ahead.dropWhile Text.isBlank⟩ := by
  obtain ⟨p, cs⟩ := c
  induction cs generalizing p with
  | nil => exact ⟨Skips.refl _, rfl⟩
  | cons x xs ih =>
    by_cases hx : Text.isBlank x = true
    · have hsplit : splitLayout (x :: xs) = (x :: (splitLayout xs).1, (splitLayout xs).2) := by
        have hs : x ≠ '/' := by rintro rfl; cases hx
        rw [splitLayout.eq_4 _ _ (fun _ h => absurd h hs) fun _ h => absurd h hs, if_pos hx]
      have hrest := (ih (p.advance x)).1
      have hle := hrest.length_le
      rw [List.takeWhile_cons_of_pos hx, List.dropWhile_cons_of_pos hx, Position.after_cons]
      refine ⟨?_, Nat.lt_succ_of_le hle⟩
      rw [Skips, hsplit]
      exact hrest.cons
    · rw [List.takeWhile_cons_of_neg hx, List.dropWhile_cons_of_neg hx]
      exact ⟨Skips.refl _, rfl⟩

theorem eq_of_isPrefixOf {x y : Char} (h : [x, y].isPrefixOf cs = true) : ∃ ds, cs = x :: y :: ds := by
  obtain ⟨ds, hds⟩ := List.isPrefixOf_iff_prefix.1 h
  exact ⟨ds, hds.symm⟩

/-- A line comment is passed over where one begins. -/
theorem run_pass_lineComment (c : CharacterCursor) :
    ∃ d, (passComment '/' '/' lineComment).run c = .ok (['/', '/'].isPrefixOf c.ahead) d ∧
      Passes (['/', '/'].isPrefixOf c.ahead) c d := by
  obtain ⟨p, cs⟩ := c
  rw [passComment, run_bind_ok (run_pairIs '/' '/')]
  by_cases h : ['/', '/'].isPrefixOf cs = true
  · obtain ⟨ds, rfl⟩ := eq_of_isPrefixOf h
    obtain ⟨us, d, hr, hd⟩ := run_collect_lineStep ⟨p.after ['/', '/'], ds⟩
    have hrun : lineComment.run ⟨p, '/' :: '/' :: ds⟩ = .ok () d := by
      rw [lineComment, run_bind_ok (run_advanceBy_two '/' '/'), run_bind_ok hr]
      rfl
    have hlen := hd.length_le
    simp only [h, if_true]
    refine ⟨d, ?_, ?_, ?_⟩
    · rw [run_bind_ok hrun]
      rfl
    · rw [Skips, splitLayout]
      exact Ends.cons (p := p) (Ends.cons hd)
    · simp only [if_true, List.length_cons] at hlen ⊢
      omega
  · simp only [h]
    exact ⟨_, rfl, Skips.refl _, rfl⟩

theorem splitLayout_block {s : List Char × List Char} (h : inBlock cs = some s) :
    splitLayout ('/' :: '*' :: cs) = ('/' :: '*' :: s.1, s.2) := by
  simp [splitLayout, h]

theorem step_of_openBlock (p : Position) (h : inBlock cs = none) :
    Tail.step ⟨p, '/' :: '*' :: cs⟩ =
      .error (.unterminatedComment p ⟨p.offset, p.offset + 2⟩) := by
  have hlayout : splitLayout ('/' :: '*' :: cs) = ([], '/' :: '*' :: cs) := by
    simp [splitLayout, h]
  have hword : Text.isWordChar '/' = false := rfl
  have htoken : splitToken '/' ('*' :: cs) = .error .openComment := by
    simp [splitToken, opensBlock, hword]
  simp only [Tail.step, hlayout, htoken]
  rfl

/-- A block comment is passed over where one begins. One that is open is what the next step finds. -/
theorem run_pass_blockComment (c : CharacterCursor) :
    (∃ d, (passComment '/' '*' blockComment).run c = .ok (['/', '*'].isPrefixOf c.ahead) d ∧
      Passes (['/', '*'].isPrefixOf c.ahead) c d) ∨
    ∃ e d, (passComment '/' '*' blockComment).run c = .error (.rejected e) d ∧
      c.tail.step = .error e := by
  obtain ⟨p, cs⟩ := c
  rw [passComment, run_bind_ok (run_pairIs '/' '*')]
  by_cases h : ['/', '*'].isPrefixOf cs = true
  · obtain ⟨ds, rfl⟩ := eq_of_isPrefixOf h
    obtain ⟨us, d, s, hr, hs, hd⟩ | ⟨hs, d, hr⟩ := run_collect_blockStep p ⟨p.after ['/', '*'], ds⟩
    · have hrun : blockComment.run ⟨p, '/' :: '*' :: ds⟩ = .ok () d := by
        rw [blockComment, run_bind_ok run_position, run_bind_ok (run_advanceBy_two '/' '*'), run_bind_ok hr]
        rfl
      have hlen := hd.length_le
      simp only [h, if_true]
      refine .inl ⟨d, ?_, ?_, ?_⟩
      · rw [run_bind_ok hrun]
        rfl
      · rw [Skips, splitLayout_block hs]
        exact Ends.cons (p := p) (Ends.cons hd)
      · simp only [if_true, List.length_cons] at hlen ⊢
        omega
    · have hrun : blockComment.run ⟨p, '/' :: '*' :: ds⟩ =
          .error (.rejected (.unterminatedComment p ⟨p.offset, p.offset + 2⟩)) d := by
        rw [blockComment, run_bind_ok run_position, run_bind_ok (run_advanceBy_two '/' '*'),
          run_bind_error hr]
      simp only [h, if_true]
      exact .inr ⟨_, d, run_bind_error hrun, step_of_openBlock p hs⟩
  · simp only [h]
    exact .inl ⟨_, rfl, Skips.refl _, rfl⟩

/-- Where a text begins with neither layout nor an open comment. -/
def Bare (cs : List Char) : Prop := splitLayout cs = ([], cs) ∧ opensBlock cs = false

theorem bare_of_none (hb : cs.takeWhile Text.isBlank = [])
    (hl : ['/', '/'].isPrefixOf cs = false) (hc : ['/', '*'].isPrefixOf cs = false) : Bare cs := by
  constructor
  · unfold splitLayout
    split
    · rfl
    · simp at hl
    · simp at hc
    · simp_all [List.takeWhile_cons]
  · unfold opensBlock
    split
    · simp at hc
    · rfl

/-- A round passes over some layout, unless there is none or a comment is open. -/
theorem run_layoutStep (c : CharacterCursor) :
    (∃ d, layoutStep.run c = .ok (some ()) d ∧ Skips c d ∧ d.ahead.length < c.ahead.length) ∨
    (layoutStep.run c = .ok none c ∧ Bare c.ahead) ∨
    ∃ e d, layoutStep.run c = .error (.rejected e) d ∧ c.tail.step = .error e := by
  have hblanks := passes_blanks c
  obtain ⟨d, hd, hline⟩ := run_pass_lineComment
    ⟨c.position.after (c.ahead.takeWhile Text.isBlank), c.ahead.dropWhile Text.isBlank⟩
  obtain ⟨e, he, hblock⟩ | ⟨e, f, he, hstep⟩ := run_pass_blockComment d
  · have hr : layoutStep.run c = .ok (if !(c.ahead.takeWhile Text.isBlank).isEmpty ||
        ['/', '/'].isPrefixOf (c.ahead.dropWhile Text.isBlank) || ['/', '*'].isPrefixOf d.ahead
        then some () else none) e := by
      rw [layoutStep, run_bind_ok (run_takeRun _ c), run_bind_ok hd, run_bind_ok he]
      rfl
    have hall := (hblanks.trans hline).trans hblock
    by_cases hm : (!(c.ahead.takeWhile Text.isBlank).isEmpty ||
        ['/', '/'].isPrefixOf (c.ahead.dropWhile Text.isBlank) ||
        ['/', '*'].isPrefixOf d.ahead) = true
    · rw [if_pos hm] at hr
      obtain ⟨hskip, hlt⟩ := hall
      rw [if_pos hm] at hlt
      exact .inl ⟨e,hr,hskip,hlt⟩
    · rw [if_neg hm] at hr
      simp only [Bool.or_eq_true, not_or, Bool.not_eq_true, Bool.not_eq_false',
        List.isEmpty_iff] at hm
      obtain ⟨⟨hb, hl⟩, hc⟩ := hm
      have hdrop : c.ahead.dropWhile Text.isBlank = c.ahead := by
        simpa [hb] using List.takeWhile_append_dropWhile (p := Text.isBlank) (l := c.ahead)
      have hstay := hline.2
      have hstay' := hblock.2
      rw [hl, if_neg Bool.false_ne_true, hb, hdrop] at hstay
      rw [hc, if_neg Bool.false_ne_true] at hstay'
      have hce : d = c := hstay
      subst hstay' hce
      exact .inr (.inl ⟨hr, bare_of_none hb (hdrop ▸ hl) hc⟩)
  · have hr : layoutStep.run c = .error (.rejected e) f := by
      rw [layoutStep, run_bind_ok (run_takeRun _ c), run_bind_ok hd, run_bind_error he]
    refine .inr (.inr ⟨e, f, hr, ?_⟩)
    rw [hblanks.1.step_eq, hline.1.step_eq, hstep]

/-- All layout is passed over, up to an open comment if there is one. -/
theorem run_layout (c : CharacterCursor) :
    (∃ d, layout.run c = .ok () d ∧ Skips c d ∧ Bare d.ahead) ∨
    ∃ e d, layout.run c = .error (.rejected e) d ∧ c.tail.step = .error e := by
  have h : (∃ us d, (collect layoutStep).run c = .ok us d ∧ Skips c d ∧ Bare d.ahead) ∨
      ∃ e d, (collect layoutStep).run c = .error (.rejected e) d ∧ c.tail.step = .error e := by
    refine collect_induct (P := fun c r => (∃ us d, r = .ok us d ∧ Skips c d ∧ Bare d.ahead) ∨
      ∃ e d, r = .error (.rejected e) d ∧ c.tail.step = .error e) ?_ c
    intro c
    obtain ⟨d, hr, hskip, hlt⟩ | ⟨hr, hbare⟩ | ⟨e, d, hr, he⟩ := run_layoutStep c
    · rw [hr]
      refine ⟨hlt, ?_⟩
      rintro _ (⟨us, f, rfl, hs, hbare⟩ | ⟨e, f, rfl, he⟩)
      · exact .inl ⟨() :: us, f, rfl, hskip.trans hs, hbare⟩
      · exact .inr ⟨e, f, rfl, hskip.step_eq.trans he⟩
    · rw [hr]
      exact .inl ⟨[], c, rfl, Skips.refl c, hbare⟩
    · rw [hr]
      exact .inr ⟨e,d,rfl,he⟩
  obtain ⟨us, d, hr, h⟩ | ⟨e, d, hr, h⟩ := h
  · exact .inl ⟨d, by rw [layout, run_bind_ok hr]; rfl, h⟩
  · exact .inr ⟨e, d, by rw [layout, run_bind_error hr], h⟩

end ClassText.Lexeme.Scanner
