import ClassText.Proofs.Lexeme.Seam
import ClassText.Proofs.Location
import ClassText.Reporter

/-! Reports about sources. Whatever is wrong with a source is marked inside it, so its report can be
printed by anything that keeps the source and prints what is marked in the sources that it keeps. -/
namespace ClassText

namespace Lexeme

namespace Flaw

/-- What is marked of the text in which a flaw is found. -/
def text : Flaw → List Char
  | .unknown c => [c]
  | .openLiteral text => text
  | .openComment => ['/', '*']

theorem span_toError (flaw : Flaw) (p : Position) : (flaw.toError p).span = p.spanOver flaw.text := by
  cases flaw <;> rfl

end Flaw

theorem flaw_of_splitQuoted {quote : Char} {make : String → Token} {cs : List Char} {flaw : Flaw}
    (h : splitQuoted quote make cs = .error flaw) : flaw.text <+: quote :: cs := by
  unfold splitQuoted at h
  split at h
  · cases h
    exact List.cons_prefix_cons.2 ⟨rfl, List.takeWhile_prefix _⟩
  · cases h

/-- A flaw stands at the head of the text of which it keeps a token. -/
theorem flaw_of_splitToken {c : Char} {cs : List Char} {flaw : Flaw}
    (h : splitToken c cs = .error flaw) : flaw.text <+: c :: cs := by
  unfold splitToken at h
  split at h
  · exact flaw_of_splitQuoted h
  split at h
  · exact flaw_of_splitQuoted h
  split at h
  · cases h
  split at h
  · cases h
  split at h
  · next hopens =>
    cases h
    exact opensBlock_iff.1 hopens
  split at h
  · cases h
  · cases h
    exact List.prefix_append [c] cs

/-- What a scan marks as an error stands in the text. -/
theorem exists_text_of_scan (t : Tail) {e : LexicalError} (h : t.scan.error = some e) :
    ∃ before text behind, t.text = before ++ text ++ behind ∧
      e.span = (t.position.after before).spanOver text := by
  obtain ⟨before, c, cs, flaw, htext, -, hsplit, rfl, -⟩ := exists_cut_of_scan t h
  obtain ⟨behind, hbehind⟩ := flaw_of_splitToken hsplit
  refine ⟨before, flaw.text, behind, ?_, flaw.span_toError _⟩
  rw [htext, List.append_assoc, hbehind]

end Lexeme

/-- What a lexical error marks is within the source. -/
theorem LexicalError.within_of_tokenize {source : String} {e : LexicalError}
    (h : Lexeme.tokenize source = .error e) : e.span.Within source := by
  obtain ⟨before, text, behind, hsource, hspan⟩ :=
    Lexeme.exists_text_of_scan _ (Lexeme.tokenize_eq_error_iff.1 h)
  have hstretch : e.span = (Position.origin.after before).spanOver text := hspan
  rw [hstretch, Position.spanOver_after_origin]
  exact Span.within_of_append hsource

theorem parseTokens_ne_lexical (source : String) (ls : List Located) (e : LexicalError) :
    (parseTokens source ls).1 ≠ .error (.lexical e) := by
  intro h
  unfold parseTokens at h
  split at h
  · cases h
  · cases h
  · next stop r hr => cases stop <;> cases h

/-- The mark is within one of these sources, the one to whose number it refers. -/
def Mark.LiesIn (files : List (String × String)) (m : Mark) : Prop :=
  ∃ f, files[m.file]? = some f ∧ m.span.Within f.2

/-- What is marked where a source is not parsed lies in it. -/
theorem Error.liesIn_of_parse {files : List (String × String)} {number : Nat} {f : String × String}
    {e : Error} (hf : files[number]? = some f) (h : parse f.2 = .error e) :
    ∀ m ∈ (e.diagnostic number).mark, m.LiesIn files := by
  intro m hm
  unfold parse at h
  split at h
  · next e' he' =>
    cases h
    obtain rfl : _ = m := Option.some.inj hm
    exact ⟨f, hf, LexicalError.within_of_tokenize he'⟩
  · next ls hls =>
    cases e with
    | grammatical e =>
      obtain rfl : _ = m := Option.some.inj hm
      exact ⟨f, hf, (pointsInto_of_parseTokens hls h).within⟩
    | lexical e => exact absurd h (parseTokens_ne_lexical f.2 ls e)
    | io | broken => cases hm

namespace Reporter

variable {σ : Type} {r : Reporter σ}

/-- What a printer of reports has when these sources have been added, one after the other. -/
def keepAll (r : Reporter σ) (files : List (String × String)) : σ :=
  files.foldl (fun kept f => (r.add kept f.1 f.2).2) r.empty

theorem keepAll_concat (r : Reporter σ) (files : List (String × String)) (f : String × String) :
    r.keepAll (files ++ [f]) = (r.add (r.keepAll files) f.1 f.2).2 := by
  simp [keepAll]

/-- Sources are numbered from zero, and what marks nothing outside them can be printed. -/
structure Reliable (r : Reporter σ) : Prop where
  number : ∀ files path text, (r.add (r.keepAll files) path text).1 = files.length
  report : ∀ files (d : Diagnostic), (∀ m ∈ d.mark, m.LiesIn files) →
    ∃ text, r.report (r.keepAll files) d = .ok text

theorem Reliable.add_keepAll (hr : r.Reliable) (files : List (String × String)) (f : String × String) :
    r.add (r.keepAll files) f.1 f.2 = (files.length, r.keepAll (files ++ [f])) :=
  Prod.ext (hr.number files f.1 f.2) (r.keepAll_concat files f).symm

/-- Where all that is marked lies in the sources that are kept, all is reported. -/
theorem Reliable.exists_reports (hr : r.Reliable) {files : List (String × String)} {ds : List Diagnostic}
    (h : ∀ d ∈ ds, ∀ m ∈ d.mark, m.LiesIn files) :
    ∃ texts, r.reportAll (r.keepAll files) ds = .ok texts ∧
      List.Forall₂ (fun d text => r.report (r.keepAll files) d = .ok text) ds texts := by
  induction ds with
  | nil => exact ⟨[], rfl, .nil⟩
  | cons d ds ih =>
    obtain ⟨text, htext⟩ := hr.report files d (h d List.mem_cons_self)
    obtain ⟨texts, htexts, hall⟩ := ih fun e he => h e (List.mem_cons_of_mem d he)
    refine ⟨text :: texts, ?_, .cons htext hall⟩
    simp only [reportAll, htext, htexts]

theorem keepAll_plain (files : List (String × String)) : plain.keepAll files = files := by
  induction files using List.reverseRecOn with
  | nil => rfl
  | append_singleton files f ih =>
    rw [keepAll_concat, ih]
    rfl

theorem reliable_plain : plain.Reliable where
  number files path text := by
    rw [keepAll_plain]
    rfl
  report _ d _ := ⟨d.message, rfl⟩

end Reporter
end ClassText
