import ClassText.Lexeme.Layout
import Mathlib.Data.List.Infix

/-! What may stand between two tokens, said without the function that passes over it: blanks and whole
comments in any order. Passing over layout takes exactly such a gap, and only at the end of a text may
its last line comment lack a newline. -/
namespace ClassText.Lexeme

/-- Blanks, line comments with the newline that ends them, and block comments up to the first mark that
closes them. -/
inductive Gap : List Char → Prop
  | nil : Gap []
  | blank : Text.isBlank c = true → Gap cs → Gap (c :: cs)
  | line : '\n' ∉ body → Gap cs → Gap ('/' :: '/' :: (body ++ '\n' :: cs))
  | block : ¬ ['*', '/'] <:+: body → Gap cs → Gap ('/' :: '*' :: (body ++ '*' :: '/' :: cs))

/-- A gap at the end of a text, where the end may stand for the last newline. -/
inductive LastGap : List Char → Prop
  | closed : Gap cs → LastGap cs
  | openLine : Gap cs → '\n' ∉ body → LastGap (cs ++ '/' :: '/' :: body)

theorem Gap.append {cs ds : List Char} (hc : Gap cs) (hd : Gap ds) : Gap (cs ++ ds) := by
  induction hc with
  | nil => exact hd
  | blank hb _ ih => exact .blank hb ih
  | line hbody _ ih => simpa using Gap.line hbody ih
  | block hbody _ ih => simpa using Gap.block hbody ih

/-- A newline makes a gap of any layout at the end of a text. -/
theorem LastGap.append_newline {cs : List Char} (h : LastGap cs) : Gap (cs ++ ['\n']) := by
  cases h with
  | closed h => exact h.append (.blank rfl .nil)
  | openLine h hbody => simpa using h.append (.line hbody .nil)

theorem LastGap.append {cs ds : List Char} (hc : Gap cs) (hd : LastGap ds) : LastGap (cs ++ ds) := by
  cases hd with
  | closed hd => exact .closed (hc.append hd)
  | openLine hd hbody => simpa using LastGap.openLine (hc.append hd) hbody

section Passing

theorem inLine_append {body : List Char} (h : '\n' ∉ body) (cs : List Char) :
    inLine (body ++ '\n' :: cs) = (body ++ '\n' :: (splitLayout cs).1, (splitLayout cs).2) := by
  induction body with
  | nil => simp [inLine]
  | cons c body ih =>
    have hc : c ≠ '\n' := fun he => h (by simp [he])
    have hbody : '\n' ∉ body := fun hm => h (List.mem_cons_of_mem c hm)
    simp [inLine, hc, ih hbody]

/-- A character that does not close a comment belongs to it. -/
theorem inBlock_cons {c : Char} {cs : List Char} (h : ¬ ['*', '/'] <+: c :: cs) :
    inBlock (c :: cs) = (inBlock cs).map fun s => (c :: s.1, s.2) := by
  rw [inBlock]
  intro ds hc hcs
  apply h
  rw [hc, hcs]
  exact List.prefix_append ['*', '/'] ds

theorem inBlock_append {body : List Char} (h : ¬ ['*', '/'] <:+: body) (cs : List Char) :
    inBlock (body ++ '*' :: '/' :: cs) =
      some (body ++ '*' :: '/' :: (splitLayout cs).1, (splitLayout cs).2) := by
  induction body with
  | nil => simp [inBlock]
  | cons c body ih =>
    have hbody : ¬ ['*', '/'] <:+: body := fun hm => h (List.infix_cons hm)
    have hc : ¬ ['*', '/'] <+: c :: (body ++ '*' :: '/' :: cs) := by
      intro hp
      obtain ⟨rfl, hslash⟩ := List.cons_prefix_cons.1 hp
      cases body with
      | nil => simp at hslash
      | cons d body =>
        obtain ⟨rfl, -⟩ := List.cons_prefix_cons.1 hslash
        exact h (List.prefix_append ['*', '/'] body).isInfix
    rw [List.cons_append, inBlock_cons hc, ih hbody]
    rfl

/-- A comment has no end where no mark that closes it follows. -/
theorem inBlock_eq_none_iff {cs : List Char} : inBlock cs = none ↔ ¬ ['*', '/'] <:+: cs := by
  induction cs with
  | nil => simp [inBlock]
  | cons c cs ih =>
    rw [List.infix_cons_iff, not_or]
    by_cases hc : ['*', '/'] <+: c :: cs
    · obtain ⟨ds, hds⟩ := hc
      rw [← hds]
      simp [inBlock]
    · simp [inBlock_cons hc, ih, hc]

/-- A gap is passed over, and the layout behind it with it. -/
theorem Gap.splitLayout_append {cs : List Char} (h : Gap cs) (ds : List Char) :
    splitLayout (cs ++ ds) = (cs ++ (splitLayout ds).1, (splitLayout ds).2) := by
  induction h with
  | nil => rfl
  | @blank c cs hb _ ih =>
    have hs : c ≠ '/' := by
      intro he
      rw [he] at hb
      cases hb
    rw [List.cons_append, splitLayout.eq_4 _ _ (fun _ h => absurd h hs) fun _ h => absurd h hs,
      if_pos hb, ih]
    rfl
  | @line body cs hbody _ ih =>
    simp [splitLayout, inLine_append hbody, ih]
  | @block body cs hbody _ ih =>
    simp [splitLayout, inBlock_append hbody, ih]

end Passing

section Passed

/-- What has been passed over is a gap, or the layout at the end of the text. -/
def Passed (split : List Char × List Char) : Prop :=
  Gap split.1 ∨ split.2 = [] ∧ LastGap split.1

theorem Passed.lastGap {split : List Char × List Char} (h : Passed split) : LastGap split.1 := by
  cases h with
  | inl h => exact .closed h
  | inr h => exact h.2

theorem Passed.append {cs ds rest : List Char} (hc : Gap cs) (hd : Passed (ds, rest)) :
    Passed (cs ++ ds, rest) := by
  cases hd with
  | inl hd => exact .inl (hc.append hd)
  | inr hd => exact .inr ⟨hd.1, .append hc hd.2⟩

/-- The rest of a line comment is passed over up to its newline, or to the end of the text. -/
def PassedLine (split : List Char × List Char) : Prop :=
  ∃ body, '\n' ∉ body ∧ (split = (body, []) ∨
    ∃ inside, split.1 = body ++ '\n' :: inside ∧ Passed (inside, split.2))

/-- The rest of a block comment is passed over up to the first mark that closes it. -/
def PassedBlock (split : List Char × List Char) : Prop :=
  ∃ body inside, ¬ ['*', '/'] <:+: body ∧ split.1 = body ++ '*' :: '/' :: inside ∧
    Passed (inside, split.2)

theorem PassedLine.passed {split : List Char × List Char} (h : PassedLine split) :
    Passed ('/' :: '/' :: split.1, split.2) := by
  obtain ⟨body, hbody, rfl | ⟨inside, hinside, hpassed⟩⟩ := h
  · exact .inr ⟨rfl, by simpa using LastGap.openLine .nil hbody⟩
  · rw [hinside]
    simpa using hpassed.append (.line hbody .nil)

theorem PassedBlock.passed {split : List Char × List Char} (h : PassedBlock split) :
    Passed ('/' :: '*' :: split.1, split.2) := by
  obtain ⟨body, inside, hbody, hinside, hpassed⟩ := h
  rw [hinside]
  simpa using hpassed.append (.block hbody .nil)

theorem PassedLine.cons {c : Char} {split : List Char × List Char} (hc : c ≠ '\n')
    (h : PassedLine split) : PassedLine (c :: split.1, split.2) := by
  obtain ⟨body, hbody, hsplit⟩ := h
  have hcons : '\n' ∉ c :: body := by
    intro hm
    cases List.mem_cons.1 hm with
    | inl he => exact hc he.symm
    | inr hm => exact hbody hm
  refine ⟨c :: body, hcons, ?_⟩
  obtain rfl | ⟨inside, hinside, hpassed⟩ := hsplit
  · exact .inl rfl
  · exact .inr ⟨inside, by simp [hinside], hpassed⟩

theorem PassedBlock.cons {c : Char} {split : List Char × List Char}
    (hc : ¬ ['*', '/'] <+: c :: split.1) (h : PassedBlock split) :
    PassedBlock (c :: split.1, split.2) := by
  obtain ⟨body, inside, hbody, hinside, hpassed⟩ := h
  refine ⟨c :: body, inside, ?_, by simp [hinside], hpassed⟩
  intro hm
  cases List.infix_cons_iff.1 hm with
  | inl hp =>
    apply hc
    rw [hinside]
    exact hp.trans (List.prefix_append (c :: body) _)
  | inr hm => exact hbody hm

theorem Passed.newline {split : List Char × List Char} (h : Passed split) :
    PassedLine ('\n' :: split.1, split.2) :=
  ⟨[], by simp, .inr ⟨split.1, rfl, h⟩⟩

theorem Passed.close {split : List Char × List Char} (h : Passed split) :
    PassedBlock ('*' :: '/' :: split.1, split.2) :=
  ⟨[], split.1, by simp, rfl, h⟩

/-- What layout takes from a text is a gap; the cases are those of the functions that take it. -/
theorem passed_all :
    (∀ cs, Passed (splitLayout cs)) ∧
    (∀ cs s, inBlock cs = some s → PassedBlock s) ∧
    (∀ cs, PassedLine (inLine cs)) := by
  apply splitLayout.mutual_induct
  case case1 => exact .inl .nil
  case case2 =>
    intro cs inside rest _ ih
    rw [splitLayout]
    exact ih.passed
  case case3 =>
    intro cs inside rest hs ih
    rw [splitLayout, hs]
    exact (ih (inside, rest) hs).passed
  case case4 =>
    intro cs hs _
    rw [splitLayout, hs]
    exact .inl .nil
  case case5 =>
    intro c cs hline hblock hb inside rest _ ih
    rw [splitLayout.eq_4 c cs hline hblock, if_pos hb]
    exact ih.append (.blank hb .nil)
  case case6 =>
    intro c cs hline hblock hb
    rw [splitLayout.eq_4 c cs hline hblock, if_neg hb]
    exact .inl .nil
  case case7 =>
    intro s hs
    cases hs
  case case8 =>
    intro cs inside rest _ ih s hs
    obtain rfl : ('*' :: '/' :: (splitLayout cs).1, (splitLayout cs).2) = s := by
      simpa [inBlock] using hs
    exact ih.close
  case case9 =>
    intro c cs hclose ih s hs
    have hc : ¬ ['*', '/'] <+: c :: cs := by
      intro hp
      obtain ⟨ds, hds⟩ := hp
      obtain ⟨hc, hcs⟩ := List.cons.inj hds
      exact hclose ds hc.symm hcs.symm
    rw [inBlock_cons hc, Option.map_eq_some_iff] at hs
    obtain ⟨r, hr, rfl⟩ := hs
    refine (ih r hr).cons fun hp => hc ?_
    have happend := layout_append.2.1 cs r hr
    rw [← happend]
    exact hp.trans (List.prefix_append (c :: r.1) r.2)
  case case10 => exact ⟨[], by simp, .inl rfl⟩
  case case11 =>
    intro c cs inside rest _ ihlayout ihline
    by_cases hc : c = '\n'
    · rw [inLine, if_pos hc, hc]
      exact ihlayout.newline
    · rw [inLine, if_neg hc]
      exact ihline.cons hc

/-- Where something follows, what has been passed over is a gap. -/
theorem gap_of_splitLayout {cs ds : List Char} {c : Char} (h : (splitLayout cs).2 = c :: ds) :
    Gap (splitLayout cs).1 := by
  obtain hgap | ⟨hend, -⟩ := passed_all.1 cs
  · exact hgap
  · rw [hend] at h
    cases h

/-- Where nothing follows, the text ends with what has been passed over. -/
theorem lastGap_of_splitLayout {cs : List Char} (h : (splitLayout cs).2 = []) : LastGap cs := by
  have hall := splitLayout_append cs
  rw [h, List.append_nil] at hall
  exact hall ▸ (passed_all.1 cs).lastGap

/-- Behind layout there is no more layout. -/
theorem splitLayout_rest {cs ds : List Char} {c : Char} (h : (splitLayout cs).2 = c :: ds) :
    splitLayout (c :: ds) = ([], c :: ds) := by
  have hgap := gap_of_splitLayout h
  have hsplit := hgap.splitLayout_append (c :: ds)
  have hall := splitLayout_append cs
  rw [h] at hall
  rw [hall] at hsplit
  have hinside := congrArg Prod.fst hsplit
  have hrest := congrArg Prod.snd hsplit
  refine Prod.ext ?_ (hrest.symm.trans h)
  exact List.append_cancel_left (hinside.symm.trans (List.append_nil _).symm)

end Passed
end ClassText.Lexeme
