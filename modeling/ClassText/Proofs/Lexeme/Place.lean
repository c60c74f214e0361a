import ClassText.Proofs.Lexeme.Alone
import Mathlib.Data.List.Induction
import Mathlib.Data.String.Basic

/-! Where tokens stand in their source. Positions are counted forward, character by character; here they
are compared with the text that they refer to. -/
namespace ClassText

namespace Position

theorem offset_after (p : Position) (cs : List Char) :
    (p.after cs).offset = p.offset + String.utf8Len cs := by
  induction cs generalizing p with
  | nil => rfl
  | cons c cs ih =>
    rw [after_cons, ih, offset_advance, String.utf8Len_cons]
    omega

theorem spanOver_after_origin (before lexeme : List Char) :
    (origin.after before).spanOver lexeme =
      ⟨String.utf8Len before, String.utf8Len before + String.utf8Len lexeme⟩ := by
  rw [spanOver, ← after_append, offset_after, offset_after, String.utf8Len_append]
  simp [origin]

theorem line_after (p : Position) (cs : List Char) : (p.after cs).line = p.line + cs.count '\n' := by
  induction cs generalizing p with
  | nil => rfl
  | cons c cs ih =>
    rw [after_cons, ih, List.count_cons, advance]
    by_cases hc : c = '\n'
    · simp [hc]
      omega
    · simp [hc]

/-- The column counts the characters behind the last newline. -/
theorem column_after_origin (cs : List Char) :
    (origin.after cs).column = 1 + (cs.reverse.takeWhile (· ≠ '\n')).length := by
  induction cs using List.reverseRecOn with
  | nil => rfl
  | append_singleton cs c ih =>
    rw [after_append, after_cons, after_nil, advance, List.reverse_append]
    by_cases hc : c = '\n'
    · simp [hc]
    · simp [hc, ih]
      omega

end Position

namespace Span

/-- The text that a stretch marks in a source. -/
def textIn (s : Span) (source : String) : String := String.Pos.Raw.extract source ⟨s.start⟩ ⟨s.stop⟩

/-- A stretch begins and ends between characters of the source. -/
structure Within (s : Span) (source : String) : Prop where
  ordered : s.start ≤ s.stop
  bounded : s.stop ≤ source.utf8ByteSize
  start_valid : String.Pos.Raw.IsValid source ⟨s.start⟩
  stop_valid : String.Pos.Raw.IsValid source ⟨s.stop⟩

variable {source : String} {before lexeme behind : List Char}

theorem textIn_of_append (h : source.toList = before ++ lexeme ++ behind) :
    textIn ⟨String.utf8Len before, String.utf8Len before + String.utf8Len lexeme⟩ source =
      String.ofList lexeme := by
  rw [← source.ofList_toList, h]
  exact String.extract_of_valid before lexeme behind

theorem isValid_of_append (h : source.toList = before ++ behind) :
    String.Pos.Raw.IsValid source ⟨String.utf8Len before⟩ := by
  refine String.Pos.Raw.isValid_iff_exists_append.2
    ⟨String.ofList before, String.ofList behind, ?_, (String.rawEndPos_ofList before).symm⟩
  rw [← source.ofList_toList, h, String.ofList_append]

theorem within_of_append (h : source.toList = before ++ lexeme ++ behind) :
    Within ⟨String.utf8Len before, String.utf8Len before + String.utf8Len lexeme⟩ source where
  ordered := Nat.le_add_right _ _
  bounded := by
    rw [← source.utf8Len_toList, h]
    simp
  start_valid := isValid_of_append (h.trans (List.append_assoc _ _ _))
  stop_valid := by
    rw [← String.utf8Len_append]
    exact isValid_of_append h

/-- The empty stretch at the end of another. -/
theorem Within.at_stop {s : Span} (h : s.Within source) : Within ⟨s.stop, s.stop⟩ source :=
  ⟨Nat.le_refl _, h.bounded, h.stop_valid, h.stop_valid⟩

end Span

namespace Located

/-- A located token stands in a source: its stretch marks a text that is this token alone, and its
position counts the lines before that text and the characters before it on its line. -/
structure StandsIn (l : Located) (source : String) : Prop where
  within : l.span.Within source
  alone : ∃ m, Lexeme.tokenize (l.span.textIn source) = .ok [m] ∧ m.token = l.token
  offset : l.position.offset = l.span.start
  line : l.position.line = 1 + (Span.textIn ⟨0, l.span.start⟩ source).toList.count '\n'
  column : l.position.column =
    1 + ((Span.textIn ⟨0, l.span.start⟩ source).toList.reverse.takeWhile (· ≠ '\n')).length

/-- A located token is cut out of a text: it has the place and the stretch of one of its spellings
there. -/
def CutFrom (l : Located) (cs : List Char) : Prop :=
  ∃ before lexeme behind, cs = before ++ lexeme ++ behind ∧
    l.position = Position.origin.after before ∧ l.span = l.position.spanOver lexeme ∧
    Lexeme.Denotes lexeme l.token

namespace CutFrom

variable {l : Located} {cs : List Char} {source : String}

theorem span_eq {before lexeme : List Char} (hp : l.position = Position.origin.after before)
    (hs : l.span = l.position.spanOver lexeme) :
    l.span = ⟨String.utf8Len before, String.utf8Len before + String.utf8Len lexeme⟩ := by
  rw [hs, hp, Position.spanOver_after_origin]

theorem standsIn (h : l.CutFrom source.toList) : l.StandsIn source := by
  obtain ⟨before, lexeme, behind, hsource, hp, hs, hd⟩ := h
  have hspan := span_eq hp hs
  have hbefore : Span.textIn ⟨0, l.span.start⟩ source = String.ofList before := by
    have h : source.toList = [] ++ before ++ (lexeme ++ behind) := by simpa using hsource
    simpa [hspan] using Span.textIn_of_append h
  obtain ⟨ls, hls, ht⟩ := Lexeme.tokenize_iff.2 (by
    rw [hspan, Span.textIn_of_append hsource, String.toList_ofList]
    exact hd.spells : Lexeme.Spells (l.span.textIn source).toList [l.token])
  obtain ⟨m, rfl, hm⟩ := List.map_eq_singleton_iff.1 ht
  exact {
    within := hspan ▸ Span.within_of_append hsource
    alone := ⟨m, hls, hm⟩
    offset := by rw [hs]; rfl
    line := by rw [hp, hbefore, String.toList_ofList, Position.line_after]; rfl
    column := by rw [hp, hbefore, String.toList_ofList, Position.column_after_origin] }

/-- A name marks itself. -/
theorem textIn_of_name (h : l.CutFrom source.toList) {name : String} (hl : l.token = .identifier name) :
    l.span.textIn source = name := by
  obtain ⟨before, lexeme, behind, hsource, hp, hs, hd⟩ := h
  rw [hl] at hd
  rw [span_eq hp hs, Span.textIn_of_append hsource, hd.eq_name, String.ofList_toList]

end CutFrom
end Located

namespace Lexeme

/-- Each token of a scan is what a step finds at some place of the text. -/
theorem exists_step_of_mem_scan (t : Tail) {before : List Char}
    (hp : t.position = Position.origin.after before) : ∀ l ∈ t.scan.tokens, ∃ passed u after,
      before ++ t.text = passed ++ Tail.text u ∧ u.position = Position.origin.after passed ∧
        u.step = .token l after := by
  induction t using Tail.step_induct generalizing before with
  | h t ih =>
    cases hs : t.step with
    | done => simp [Tail.scan_of_done hs]
    | error e => simp [Tail.scan_of_error hs]
    | token l after =>
      obtain ⟨gap, lexeme, -, -, htext, hplace, -, hposition⟩ := exists_lexeme_of_step hs
      have hafter : after.position = Position.origin.after (before ++ gap ++ lexeme) := by
        rw [hposition, hplace, hp, ← Position.after_append, ← Position.after_append, List.append_assoc]
      have hwhole : before ++ t.text = before ++ gap ++ lexeme ++ after.text := by
        rw [htext]
        simp
      rw [Tail.scan_of_token hs]
      refine List.forall_mem_cons.2 ⟨⟨before, t, after, rfl, hp, hs⟩, ?_⟩
      rw [hwhole]
      exact ih l after hs hafter

/-- Every token is cut out of the text, also before an error. -/
theorem cutFrom_of_scan (t : Tail) {before : List Char} (hp : t.position = Position.origin.after before) :
    ∀ l ∈ t.scan.tokens, l.CutFrom (before ++ t.text) := by
  intro l hl
  obtain ⟨passed, u, after, htext, hposition, hs⟩ := exists_step_of_mem_scan t hp l hl
  obtain ⟨gap, lexeme, -, hd, hu, hplace, hspan, -⟩ := exists_lexeme_of_step hs
  refine ⟨passed ++ gap, lexeme, after.text, ?_, ?_, hspan, hd⟩
  · rw [htext, hu]
    simp
  · rw [hplace, hposition, Position.after_append]

theorem cutFrom_of_tokenize {source : String} {ls : List Located} (h : tokenize source = .ok ls) :
    ∀ l ∈ ls, l.CutFrom source.toList := by
  have hcut := @cutFrom_of_scan (Tail.ofSource source) [] rfl
  rwa [tokenize_eq_ok_iff.1 h] at hcut

/-- Every token of a source stands in it. -/
theorem standsIn_of_tokenize {source : String} {ls : List Located} (h : tokenize source = .ok ls) :
    ∀ l ∈ ls, l.StandsIn source :=
  fun l hl => (cutFrom_of_tokenize h l hl).standsIn

/-- The text is made of the spellings of the tokens with gaps before them, and of layout at its end. It
stands behind `before`, and so do the tokens. -/
inductive Laid : List Char → List Char → List Located → Prop
  | done {before cs : List Char} : LastGap cs → Laid before cs []
  | token {before gap lexeme rest : List Char} {l : Located} {ls : List Located} :
      Gap gap → Denotes lexeme l.token → l.position = Position.origin.after (before ++ gap) →
      l.span = l.position.spanOver lexeme → Laid (before ++ gap ++ lexeme) rest ls →
      Laid before (gap ++ lexeme ++ rest) (l :: ls)

/-- Each step of a scan takes a gap and a token off the text. -/
theorem laid_of_scan (t : Tail) {before : List Char} (hp : t.position = Position.origin.after before)
    (h : t.scan.error = none) : Laid before t.text t.scan.tokens := by
  induction t using Tail.step_induct generalizing before with
  | h t ih =>
    cases hs : t.step with
    | done =>
      rw [Tail.scan_of_done hs]
      exact .done (lastGap_of_splitLayout (splitLayout_of_done hs))
    | error e =>
      rw [Tail.scan_of_error hs] at h
      cases h
    | token l after =>
      obtain ⟨gap, lexeme, hgap, hd, htext, hplace, hspan, hposition⟩ := exists_lexeme_of_step hs
      have hl : l.position = Position.origin.after (before ++ gap) := by
        rw [hplace, hp, Position.after_append]
      have hafter : after.position = Position.origin.after (before ++ gap ++ lexeme) := by
        rw [hposition, hl, ← Position.after_append]
      rw [Tail.scan_of_token hs] at h ⊢
      rw [htext]
      exact .token hgap hd hl hspan (ih l after hs hafter h)

theorem laid_of_tokenize {source : String} {ls : List Located} (h : tokenize source = .ok ls) :
    Laid [] source.toList ls := by
  have hscan := tokenize_eq_ok_iff.1 h
  have hlaid : Laid [] source.toList (Tail.ofSource source).scan.tokens :=
    laid_of_scan (Tail.ofSource source) rfl (by rw [hscan])
  rwa [hscan] at hlaid

end Lexeme
end ClassText
