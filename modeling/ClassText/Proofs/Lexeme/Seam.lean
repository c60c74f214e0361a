import ClassText.Proofs.Lexeme.Alone

/-! What tokens have behind them. A token ends where what follows cannot be taken for more of it, so it
stays as it is before anything else of which this holds too: before nothing, if what follows is cut off,
and before a newline. Whatever a text ends with, nothing of it is read together with anything behind a
newline, so its tokens stay as they are and what is behind is read from there on. -/
namespace ClassText.Lexeme

/-- What has no newline and begins the one text begins the other. -/
def Weaker (rest rest' : List Char) : Prop := ∀ w, '\n' ∉ w → w <+: rest → w <+: rest'

namespace Weaker

variable {rest rest' : List Char}

theorem of_prefix (h : rest <+: rest') : Weaker rest rest' := fun _ _ hw => hw.trans h

theorem cons (c : Char) (h : Weaker rest rest') : Weaker (c :: rest) (c :: rest') := by
  intro w hw hp
  cases w with
  | nil => exact List.nil_prefix
  | cons d w =>
    obtain ⟨rfl, htail⟩ := List.cons_prefix_cons.1 hp
    exact List.cons_prefix_cons.2 ⟨rfl, h w (fun hm => hw (List.mem_cons_of_mem _ hm)) htail⟩

theorem append (h : Weaker rest rest') (cs : List Char) : Weaker (cs ++ rest) (cs ++ rest') := by
  induction cs with
  | nil => exact h
  | cons c cs ih => exact ih.cons c

/-- A newline begins nothing that it would not also end. -/
theorem newline (cs ds : List Char) : Weaker (cs ++ '\n' :: ds) cs := by
  have hempty : Weaker ('\n' :: ds) [] := by
    intro w hw hp
    cases w with
    | nil => exact List.nil_prefix
    | cons d w =>
      obtain ⟨rfl, -⟩ := List.cons_prefix_cons.1 hp
      exact absurd List.mem_cons_self hw
  simpa using hempty.append cs

theorem head? (h : Weaker rest rest') {c : Char} (hc : c ∈ rest.head?) : c = '\n' ∨ c ∈ rest'.head? := by
  obtain ⟨more, rfl⟩ := List.head?_eq_some_iff.1 hc
  by_cases hn : c = '\n'
  · exact .inl hn
  · obtain ⟨more', rfl⟩ := h [c] (by simpa using Ne.symm hn) (List.prefix_append [c] more)
    exact .inr rfl

theorem stops (h : Weaker rest rest') {p : Char → Bool} (hp : p '\n' = false) (hs : Stops p rest') :
    Stops p rest := by
  intro c hc
  obtain rfl | hc := h.head? hc
  · exact hp
  · exact hs c hc

theorem endsBefore (h : Weaker rest rest') {r : Radix} {body : List Char} (hb : r.EndsBefore body rest') :
    r.EndsBefore body rest := by
  intro c hc
  obtain rfl | hc := h.head? hc
  · have hchars : '\n' ∉ r.chars := by cases r <;> decide
    exact ⟨hchars, by decide, fun _ _ => by decide⟩
  · exact hb c hc

end Weaker

theorem opensBlock_iff {cs : List Char} : opensBlock cs = true ↔ ['/', '*'] <+: cs := by
  fun_cases opensBlock cs with
  | case1 cs => simp
  | case2 cs h =>
    simp only [Bool.false_eq_true, false_iff]
    intro hp
    obtain ⟨ds, hds⟩ := hp
    exact h ds hds.symm

section Tokens

variable {c : Char} {cs rest : List Char} {s : Split}

theorem splitQuoted_weaker {quote : Char} {make : String → Token}
    (h : splitQuoted quote make cs = .ok s) (rest : List Char) : ∃ ds, s.taken ++ rest = quote :: ds ∧
      splitQuoted quote make ds = .ok ⟨s.token, s.taken, rest⟩ := by
  obtain ⟨raw, hraw, htaken, htoken⟩ := denotes_of_splitQuoted h
  rw [htaken, htoken]
  exact ⟨raw ++ quote :: rest, by simp, splitQuoted_closed hraw rest⟩

theorem splitInteger_weaker (hc : c.isDigit = true) (hw : Weaker rest (splitInteger (c :: cs)).rest) :
    let i := splitInteger (c :: cs)
    ∃ ds, i.taken ++ rest = c :: ds ∧
      splitToken c ds = .ok ⟨.integer i.value i.isLong, i.taken, rest⟩ := by
  have happend := splitInteger_append (c :: cs)
  obtain ⟨r, body, isLong, more, hb, hends, hi⟩ := @exists_literal c cs hc
  rw [hi] at happend hw ⊢
  obtain ⟨d, tail, htail, -⟩ := hb.literal_cons isLong
  obtain rfl : d = c := by
    rw [htail] at happend
    exact (List.cons.inj happend).1
  have hsplit := splitInteger_literal hb fun hl => hw.endsBefore (hends hl)
  rw [htail, List.cons_append] at hsplit
  refine ⟨tail ++ rest, by rw [htail]; rfl, ?_⟩
  rw [splitToken_of_isDigit hc, hsplit, htail]

theorem splitWord_weaker (hd : c.isDigit = false) (hc : Text.isWordChar c = true)
    (hw : Weaker rest ((c :: cs).dropWhile Text.isWordChar)) :
    let word := (c :: cs).takeWhile Text.isWordChar
    ∃ ds, word ++ rest = c :: ds ∧
      splitToken c ds = .ok ⟨wordToken (String.ofList word), word, rest⟩ := by
  have hrun : ∀ d ∈ (c :: cs).takeWhile Text.isWordChar, Text.isWordChar d = true :=
    List.all_eq_true.1 List.all_takeWhile
  have hstops : Stops Text.isWordChar ((c :: cs).dropWhile Text.isWordChar) := by
    intro d hd
    have hn := List.head?_dropWhile_not Text.isWordChar (c :: cs)
    rw [Option.mem_def.1 hd] at hn
    simpa using hn
  rw [List.takeWhile_cons_of_pos hc] at hrun ⊢
  exact ⟨_, rfl, splitToken_word hd hrun (hw.stops rfl hstops)⟩

theorem splitSymbol_weaker {sign : Symbol} {behind : List Char}
    (h : Symbol.longestAt? (c :: cs) = some sign) (htext : sign.spelling.toList ++ behind = c :: cs)
    (hb : opensBlock (c :: cs) = false) (hw : Weaker rest behind) :
    ∃ ds, sign.spelling.toList ++ rest = c :: ds ∧
      splitToken c ds = .ok ⟨.symbol sign, sign.spelling.toList, rest⟩ := by
  have hall := hw.append sign.spelling.toList
  obtain ⟨d, tail, htail⟩ := List.exists_cons_of_ne_nil sign.spelling_ne_nil
  obtain rfl : d = c := by
    rw [htail] at htext
    exact (List.cons.inj htext).1
  rw [htext] at hall
  have hlongest : Symbol.longestAt? (sign.spelling.toList ++ rest) = some sign :=
    Symbol.longestAt?_eq_some (List.prefix_append _ _) fun t ht =>
      Symbol.length_le_of_longestAt? h (hall _ t.newline_notMem_spelling ht)
  have hblock : opensBlock (sign.spelling.toList ++ rest) = false := by
    rw [Bool.eq_false_iff] at hb ⊢
    exact fun ho => hb (opensBlock_iff.2 (hall _ (by decide) (opensBlock_iff.1 ho)))
  have hds : sign.spelling.toList ++ rest = d :: (tail ++ rest) := by
    rw [htail]
    rfl
  rw [hds] at hlongest hblock
  exact ⟨tail ++ rest, hds, splitToken_of_longestAt? hlongest hds.symm hblock⟩

/-- A token is split off in the same way where what follows is weaker. -/
theorem splitToken_weaker (h : splitToken c cs = .ok s) (hw : Weaker rest s.rest) : ∃ ds,
    s.taken ++ rest = c :: ds ∧ splitToken c ds = .ok ⟨s.token, s.taken, rest⟩ := by
  have happend := splitToken_append h
  unfold splitToken at h
  split at h
  · next hq =>
    obtain ⟨ds, hds, hsplit⟩ := splitQuoted_weaker h rest
    exact ⟨ds, hds, by rw [splitToken, if_pos hq, hsplit]⟩
  split at h
  · next hq hq' =>
    obtain ⟨ds, hds, hsplit⟩ := splitQuoted_weaker h rest
    exact ⟨ds, hds, by rw [splitToken, if_neg hq, if_pos hq', hsplit]⟩
  split at h
  · next hd =>
    cases h
    exact splitInteger_weaker hd hw
  split at h
  · next hd hc =>
    cases h
    exact splitWord_weaker (Bool.eq_false_iff.2 hd) hc hw
  split at h
  · cases h
  next hb =>
  split at h
  · next sign hsign =>
    cases h
    exact splitSymbol_weaker hsign happend (Bool.eq_false_iff.2 hb) hw
  · cases h

/-- Where no comment begins, only a blank is layout. -/
theorem splitLayout_of_not_comment (hline : ¬ ['/', '/'] <+: c :: cs) (hblock : ¬ ['/', '*'] <+: c :: cs) :
    splitLayout (c :: cs) =
      if Text.isBlank c then (c :: (splitLayout cs).1, (splitLayout cs).2) else ([], c :: cs) := by
  refine splitLayout.eq_4 c cs ?_ ?_
  · intro es hc hes
    exact hline ⟨es, by rw [hc, hes]; rfl⟩
  · intro es hc hes
    exact hblock ⟨es, by rw [hc, hes]; rfl⟩

/-- Where a token begins, neither a blank nor a comment does. -/
theorem bare_of_splitToken (hl : splitLayout (c :: cs) = ([], c :: cs)) (hs : splitToken c cs = .ok s) :
    Text.isBlank c = false ∧ ¬ ['/', '/'] <+: c :: cs ∧ ¬ ['/', '*'] <+: c :: cs := by
  have hline : ¬ ['/', '/'] <+: c :: cs := by
    intro hp
    obtain ⟨es, hes⟩ := hp
    rw [← hes] at hl
    simp [splitLayout] at hl
  have hblock : ¬ ['/', '*'] <+: c :: cs := by
    intro hp
    obtain ⟨es, hes⟩ := hp
    obtain ⟨rfl, rfl⟩ := List.cons.inj hes
    have hword : Text.isWordChar '/' = false := rfl
    simp [splitToken, opensBlock, hword] at hs
  refine ⟨?_, hline, hblock⟩
  rw [splitLayout_of_not_comment hline hblock] at hl
  cases hb : Text.isBlank c with
  | false => rfl
  | true => simp [hb] at hl

/-- Before a token there is no layout, nor where what follows it is weaker. -/
theorem splitLayout_weaker {ds : List Char} (hl : splitLayout (c :: cs) = ([], c :: cs))
    (hs : splitToken c cs = .ok s) (hw : Weaker (c :: ds) (c :: cs)) :
    splitLayout (c :: ds) = ([], c :: ds) := by
  obtain ⟨hb, hline, hblock⟩ := bare_of_splitToken hl hs
  rw [splitLayout_of_not_comment (fun hp => hline (hw _ (by decide) hp))
    fun hp => hblock (hw _ (by decide) hp), if_neg (by simp [hb])]

end Tokens

section Steps

variable {t after : Tail} {l : Located}

/-- Passing over a gap leaves the step as it is. -/
theorem step_of_gap {gap : List Char} (h : Gap gap) (p : Position) (ds : List Char) :
    Tail.step ⟨p, gap ++ ds⟩ = Tail.step ⟨p.after gap, ds⟩ := by
  simp only [Tail.step, h.splitLayout_append, Position.after_append]

theorem scan_of_gap {gap : List Char} (h : Gap gap) (p : Position) (ds : List Char) :
    Tail.scan ⟨p, gap ++ ds⟩ = Tail.scan ⟨p.after gap, ds⟩ := by
  have hstep := step_of_gap h p ds
  cases hs : Tail.step ⟨p.after gap, ds⟩ with
  | done => rw [Tail.scan_of_done hs, Tail.scan_of_done (hstep.trans hs)]
  | error e => rw [Tail.scan_of_error hs, Tail.scan_of_error (hstep.trans hs)]
  | token l after => rw [Tail.scan_of_token hs, Tail.scan_of_token (hstep.trans hs)]

/-- A step gives the same token where what follows the token is weaker. -/
theorem step_weaker {before rest : List Char} (h : t.step = .token l after)
    (ht : t.text = before ++ after.text) (hw : Weaker rest after.text) :
    Tail.step ⟨t.position, before ++ rest⟩ = .token l ⟨after.position, rest⟩ := by
  obtain ⟨c, cs, s, hl, hs, rfl, rfl⟩ := exists_split_of_step h
  obtain rfl : (splitLayout t.text).1 ++ s.taken = before :=
    List.append_cancel_right ((text_eq_of_split hl hs).symm.trans ht)
  obtain ⟨ds, hds, hsplit⟩ := splitToken_weaker hs hw
  have hall : Weaker (c :: ds) (c :: cs) := by
    have h := hw.append s.taken
    rwa [hds, splitToken_append hs] at h
  have hlayout := splitLayout_weaker (splitLayout_rest hl) hs hall
  rw [List.append_assoc, hds, step_of_gap (gap_of_splitLayout hl)]
  simp only [Tail.step, hlayout, hsplit, Position.after_nil]

/-- The tokens of one text and behind them those of another, which also gives the error. -/
def Scan.append (a b : Scan) : Scan := ⟨a.tokens ++ b.tokens, b.error⟩

/-- A text without error and a newline are passed over token by token, and the text behind them is read
from the place that is reached. -/
theorem scan_extend (t : Tail) (h : t.scan.error = none) (ds : List Char) :
    Tail.scan ⟨t.position, t.text ++ '\n' :: ds⟩ =
      t.scan.append (Tail.scan ⟨t.position.after (t.text ++ ['\n']), ds⟩) := by
  induction t using Tail.step_induct with
  | h t ih =>
    cases hs : t.step with
    | done =>
      have hgap := (lastGap_of_splitLayout (splitLayout_of_done hs)).append_newline
      have hpass := scan_of_gap hgap t.position ds
      rw [Tail.scan_of_done hs]
      simpa [Scan.append] using hpass
    | error e =>
      rw [Tail.scan_of_error hs] at h
      cases h
    | token l after =>
      obtain ⟨gap, lexeme, -, -, htext, hplace, -, hposition⟩ := exists_lexeme_of_step hs
      rw [Tail.scan_of_token hs] at h
      have hafter := ih l after hs h
      have hstep := step_weaker hs htext (Weaker.newline after.text ds)
      have hseam : t.position.after (t.text ++ ['\n']) =
          after.position.after (after.text ++ ['\n']) := by
        simp only [htext, hposition, hplace, Position.after_append]
      rw [← List.append_assoc, ← htext] at hstep
      rw [Tail.scan_of_token hstep, Tail.scan_of_token hs, hafter, hseam]
      rfl

/-- A source without error, a newline and another source: the second is read from the place behind the
newline. -/
theorem scan_append_source (a b : String) (h : (Tail.ofSource a).scan.error = none) :
    (Tail.ofSource (a ++ "\n" ++ b)).scan = (Tail.ofSource a).scan.append
      (Tail.scan ⟨Position.origin.after (a.toList ++ ['\n']), b.toList⟩) := by
  have htext : Tail.ofSource (a ++ "\n" ++ b) = ⟨.origin, a.toList ++ '\n' :: b.toList⟩ := by
    simp [Tail.ofSource]
  rw [htext]
  exact scan_extend (Tail.ofSource a) h b.toList

/-- Where an error is found, no token can be split off and no layout stands. The text up to there has no
error, and its tokens are those that come before. -/
theorem exists_cut_of_scan (t : Tail) {e : LexicalError} (h : t.scan.error = some e) :
    ∃ before c cs flaw, t.text = before ++ c :: cs ∧ splitLayout (c :: cs) = ([], c :: cs) ∧
      splitToken c cs = .error flaw ∧ e = flaw.toError (t.position.after before) ∧
      Tail.scan ⟨t.position, before⟩ = ⟨t.scan.tokens, none⟩ := by
  induction t using Tail.step_induct with
  | h t ih =>
    cases hs : t.step with
    | done =>
      rw [Tail.scan_of_done hs] at h
      cases h
    | error f =>
      rw [Tail.scan_of_error hs] at h ⊢
      obtain rfl : f = e := Option.some.inj h
      obtain ⟨c, cs, flaw, hl, hsplit, he⟩ := exists_split_of_error hs
      have hgap := gap_of_splitLayout hl
      have hend : Tail.step ⟨t.position.after (splitLayout t.text).1, []⟩ = .done := step_of_nil rfl
      have hscan := scan_of_gap hgap t.position []
      rw [List.append_nil, Tail.scan_of_done hend] at hscan
      exact ⟨_, c, cs, flaw, by rw [← hl, splitLayout_append], splitLayout_rest hl, hsplit, he, hscan⟩
    | token l after =>
      rw [Tail.scan_of_token hs] at h ⊢
      obtain ⟨gap, lexeme, -, -, htext, hplace, -, hposition⟩ := exists_lexeme_of_step hs
      obtain ⟨before, c, cs, flaw, hcut, hl, hsplit, he, hscan⟩ := ih l after hs h
      have hstep := step_weaker hs htext (Weaker.of_prefix ⟨c :: cs, hcut.symm⟩)
      refine ⟨gap ++ lexeme ++ before, c, cs, flaw, ?_, hl, hsplit, ?_, ?_⟩
      · rw [htext, hcut]
        simp
      · rw [he, hposition, hplace]
        simp only [Position.after_append]
      · rw [Tail.scan_of_token hstep, hscan]

end Steps
end ClassText.Lexeme
