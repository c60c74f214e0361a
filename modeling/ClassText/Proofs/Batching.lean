import ClassText.Batch
import ClassText.Proofs.Reporting

/-! Runs over sources that can be read. However a run deals with its sources, behind each of them it keeps
and counts all so far and has put off the errors of those that are not parsed. So runs that go on behind
errors end alike, and one that does not has printed until then what the others print. -/
namespace ClassText

/-- The source is not parsed. -/
def Fails (source : String) : Prop := ∃ e, parse source = .error e

/-- The error of a source that is not parsed, under this number. -/
def failure? (source : String) (number : Nat) : Option FiledError :=
  match parse source with
  | .ok _ => none
  | .error e => some ⟨number, e⟩

/-- The errors of the sources that are not parsed, in turn, each under the number of its source. -/
def failures (files : List (String × String)) : List FiledError :=
  files.zipIdx.filterMap fun f => failure? f.1.2 f.2

theorem failure?_eq_some_iff {source : String} {number : Nat} {e : FiledError} :
    failure? source number = some e ↔ e.file = number ∧ parse source = .error e.error := by
  obtain ⟨file, error⟩ := e
  unfold failure?
  split
  · next h => simp [h]
  · next h => simp [h, eq_comm]

theorem failure?_eq_none_iff {source : String} {number : Nat} :
    failure? source number = none ↔ ¬Fails source := by
  unfold failure? Fails
  split
  · next h => simp [h]
  · next h => simp [h]

/-- Whatever is among the errors is the error of the source that its number names. -/
theorem mem_failures_iff {files : List (String × String)} {e : FiledError} :
    e ∈ failures files ↔ ∃ f, files[e.file]? = some f ∧ parse f.2 = .error e.error := by
  simp only [failures, List.mem_filterMap, failure?_eq_some_iff, Prod.exists,
    List.mem_zipIdx_iff_getElem?]
  constructor
  · intro h
    obtain ⟨path, source, number, hf, rfl, he⟩ := h
    exact ⟨path, source, hf, he⟩
  · intro h
    obtain ⟨path, source, hf, he⟩ := h
    exact ⟨path, source, e.file, hf, rfl, he⟩

theorem failures_concat (files : List (String × String)) (f : String × String) :
    failures (files ++ [f]) = failures files ++ (failure? f.2 files.length).toList := by
  rw [failures, List.zipIdx_append, List.filterMap_append, List.zipIdx_singleton, Nat.zero_add]
  cases h : failure? f.2 files.length with
  | none => simp [failures, h]
  | some e => simp [failures, h]

theorem failures_eq_nil_iff {files : List (String × String)} :
    failures files = [] ↔ ∀ f ∈ files, ¬Fails f.2 := by
  induction files using List.reverseRecOn with
  | nil => simp [failures]
  | append_singleton files f ih =>
    simp [failures_concat, ih, failure?_eq_none_iff, or_imp, forall_and]

namespace Batch

/-- What is printed of a source by a run that goes on behind it. -/
def printed (o : BatchOptions) (f : String × String) : String :=
  heading o f.1 f.2 ++
    match parse f.2 with
    | .ok c => showing o c
    | .error _ => ""

variable {σ : Type} {r : Reporter σ}

/-- This is the state of a run behind these sources: all are kept and counted, and the errors of those that are
not parsed have been put off. -/
structure Behind (r : Reporter σ) (files : List (String × String)) (b : Batch σ) : Prop where
  kept : b.kept = r.keepAll files
  errors : b.errors = ⟨failures files⟩
  processed : b.processed = files.length

theorem behind_start (r : Reporter σ) : Behind r [] (start r) := ⟨rfl, rfl, rfl⟩

variable {files : List (String × String)} {b : Batch σ} {f : String × String}

/-- A source gets as its number the count of those before it, and is kept and counted itself. -/
theorem load_bind (hr : r.Reliable) (hb : Behind r files b)
    (next : String × Nat × Batch σ → Except Outcome (Batch σ)) :
    b.load r f.1 (.ok f.2) >>= next = next (f.2, files.length,
      { b with kept := r.keepAll (files ++ [f]), processed := files.length + 1 }) := by
  simp only [load, hb.kept, hb.processed, hr.add_keepAll]
  rfl

/-- A source that is parsed adds no error. -/
theorem Behind.concat_of_ok (hb : Behind r files b) {c : ClassDecl} (hc : parse f.2 = .ok c)
    (output : String) : Behind r (files ++ [f])
      { b with output, kept := r.keepAll (files ++ [f]), processed := files.length + 1 } where
  kept := rfl
  errors := by
    rw [hb.errors, failures_concat, failure?, hc]
    simp
  processed := by simp

/-- A source that is not parsed adds its error. -/
theorem Behind.concat_of_error (hb : Behind r files b) {e : Error} (he : parse f.2 = .error e)
    (output : String) : Behind r (files ++ [f])
      ⟨output, r.keepAll (files ++ [f]), b.errors.add files.length e, files.length + 1⟩ where
  kept := rfl
  errors := by
    rw [hb.errors, failures_concat, failure?, he]
    rfl
  processed := by simp

/-- From the state behind any sources the action goes on behind this one, of which it prints this. -/
def Passes (r : Reporter σ)
    (action : Batch σ → String → Except LoadFault String → Except Outcome (Batch σ))
    (shown : String × String → String) (f : String × String) : Prop :=
  ∀ files b, Behind r files b → ∃ c, action b f.1 (.ok f.2) = .ok c ∧ Behind r (files ++ [f]) c ∧
    c.output = b.output ++ shown f

theorem printed_of_ok {c : ClassDecl} (h : parse f.2 = .ok c) (o : BatchOptions) :
    printed o f = heading o f.1 f.2 ++ showing o c := by
  rw [printed, h]

theorem printed_of_error {e : Error} (h : parse f.2 = .error e) (o : BatchOptions) :
    printed o f = heading o f.1 f.2 := by
  rw [printed, h, String.append_empty]

theorem passes_check (hr : r.Reliable) (f : String × String) :
    Passes r (checkFile r) (fun _ => "") f := by
  intro files b hb
  cases h : parse f.2 with
  | ok c =>
    refine ⟨_, ?_, hb.concat_of_ok h b.output, (String.append_empty).symm⟩
    rw [checkFile, load_bind hr hb]
    simp only [h]
    rfl
  | error e =>
    refine ⟨_, ?_, hb.concat_of_error h b.output, (String.append_empty).symm⟩
    rw [checkFile, load_bind hr hb]
    simp only [h]
    rfl

/-- Parsing goes on behind a source that is parsed, and behind any other if it is to go on. -/
theorem passes_parse (hr : r.Reliable) (o : BatchOptions)
    (h : o.keepGoing = true ∨ ¬Fails f.2) : Passes r (parseFile r o) (printed o) f := by
  intro files b hb
  cases hp : parse f.2 with
  | ok c =>
    refine ⟨_, ?_, hb.concat_of_ok hp (b.output ++ printed o f), rfl⟩
    rw [printed_of_ok hp, ← String.append_assoc, parseFile, load_bind hr hb]
    simp only [hp]
    rfl
  | error e =>
    have hgo : o.keepGoing = true := h.resolve_right fun hn => hn ⟨e, hp⟩
    refine ⟨_, ?_, hb.concat_of_error hp (b.output ++ printed o f), rfl⟩
    rw [printed_of_error hp, parseFile, load_bind hr hb]
    simp only [hp, hgo]
    rfl

theorem abortWith_eq (r : Reporter σ) (b : Batch σ) (e : FiledError) (message : String) :
    ∃ messages, b.abortWith r e message = ⟨1, b.output, messages⟩ := by
  unfold abortWith
  split
  · exact ⟨_, rfl⟩
  · exact ⟨_, rfl⟩

/-- A run that does not go on behind errors ends at a source that is not parsed. Until then it has printed
what others print. -/
theorem parseFile_of_fails (hr : r.Reliable) {o : BatchOptions} (ho : o.keepGoing = false)
    (hf : Fails f.2) (hb : Behind r files b) : ∃ messages,
      parseFile r o b f.1 (.ok f.2) = .error ⟨1, b.output ++ printed o f, messages⟩ := by
  obtain ⟨e, he⟩ := hf
  rw [printed_of_error he, parseFile, load_bind hr hb]
  simp only [he, ho]
  obtain ⟨messages, h⟩ := abortWith_eq r _ _ _
  exact ⟨messages, congrArg Except.error h⟩

/-- Sources that have been read. -/
def readable (files : List (String × String)) : List (String × Except LoadFault String) :=
  files.map fun f => (f.1, .ok f.2)

variable {action : Batch σ → String → Except LoadFault String → Except Outcome (Batch σ)}
  {shown : String × String → String}

/-- A run over some sources and others goes over these, then over the first of the others. -/
theorem inTurn_append_cons (files after : List (String × String)) (f : String × String) :
    inTurn r action (readable (files ++ f :: after)) =
      (inTurn r action (readable files)).bind fun b => (action b f.1 (.ok f.2)).bind fun c =>
        (readable after).foldlM (fun b file => action b file.1 file.2) c := by
  rw [inTurn, readable, List.map_append, List.map_cons, List.foldlM_append]
  simp only [List.foldlM_cons]
  rfl

/-- A run of an action that passes all sources comes to the state behind them. The induction takes the last
source away, as it is from the state behind the others that the action passes it. -/
theorem inTurn_of_passes (h : ∀ f ∈ files, Passes r action shown f) :
    ∃ b, inTurn r action (readable files) = .ok b ∧ Behind r files b ∧
      b.output = String.join (files.map shown) := by
  induction files using List.reverseRecOn with
  | nil => exact ⟨start r, rfl, behind_start r, rfl⟩
  | append_singleton files f ih =>
    obtain ⟨b, hrun, hb, hout⟩ := ih fun g hg => h g (List.mem_append_left _ hg)
    obtain ⟨c, hstep, hc, hshown⟩ := h f (by simp) files b hb
    refine ⟨c, ?_, hc, ?_⟩
    · rw [inTurn_append_cons, hrun, Except.bind, hstep]
      rfl
    · rw [hshown, hout, List.map_append, String.join_append]
      simp

/-- A run that ends at a source ends there whatever sources there are behind it. -/
theorem inTurn_of_error {b : Batch σ} {out : Outcome} (hrun : inTurn r action (readable files) = .ok b)
    (hstep : action b f.1 (.ok f.2) = .error out) (after : List (String × String)) :
    inTurn r action (readable (files ++ f :: after)) = .error out := by
  rw [inTurn_append_cons, hrun, Except.bind, hstep, Except.bind]

/-- What has been put off behind any sources can be reported. -/
theorem exists_texts (hr : r.Reliable) (files : List (String × String)) : ∃ texts,
    r.reportAll (r.keepAll files) ((failures files).map FiledError.diagnostic) = .ok texts ∧
      List.Forall₂ (fun e text => r.report (r.keepAll files) e.diagnostic = .ok text)
        (failures files) texts := by
  have hlies : ∀ d ∈ (failures files).map FiledError.diagnostic, ∀ m ∈ d.mark, m.LiesIn files := by
    intro d hd
    obtain ⟨e, he, rfl⟩ := List.mem_map.1 hd
    obtain ⟨f, hf, hp⟩ := mem_failures_iff.1 he
    exact Error.liesIn_of_parse hf hp
  obtain ⟨texts, hall, htexts⟩ := hr.exists_reports hlies
  exact ⟨texts, hall, List.forall₂_map_left_iff.1 htexts⟩

theorem finish_of_no_failure (hb : Behind r files b) (h : failures files = []) :
    b.finish r = ⟨0, b.output ++ successText files.length, []⟩ := by
  simp [finish, hb.errors, hb.processed, h, ErrorLog.diagnostics, ErrorLog.hasErrors,
    Reporter.reportAll]

theorem finish_of_failure (hb : Behind r files b) (h : failures files ≠ []) {texts : List String}
    (ht : r.reportAll (r.keepAll files) ((failures files).map FiledError.diagnostic) = .ok texts) :
    b.finish r = ⟨1, b.output, texts ++ [failureText (failures files).length files.length]⟩ := by
  simp [finish, hb.errors, hb.processed, hb.kept, h, ErrorLog.diagnostics, ErrorLog.hasErrors,
    ErrorLog.count, ht, abort]

/-- What is printed of sources by a run that goes on behind all of them. -/
def printedAll (o : BatchOptions) (files : List (String × String)) : String :=
  String.join (files.map (printed o))

theorem printedAll_append (o : BatchOptions) (files more : List (String × String)) :
    printedAll o (files ++ more) = printedAll o files ++ printedAll o more := by
  rw [printedAll, List.map_append, String.join_append]
  rfl

variable {o : BatchOptions}

theorem inTurn_check (hr : r.Reliable) (files : List (String × String)) : ∃ b,
    inTurn r (checkFile r) (readable files) = .ok b ∧ Behind r files b ∧ b.output = "" := by
  obtain ⟨b, hrun, hb, hout⟩ := inTurn_of_passes fun f (_ : f ∈ files) => passes_check hr f
  have hblank (files : List (String × String)) : String.join (files.map fun _ => "") = "" := by
    induction files with
    | nil => rfl
    | cons _ _ ih => rw [List.map_cons, String.join_cons, ih, String.append_empty]
  exact ⟨b, hrun, hb, hout.trans (hblank files)⟩

theorem inTurn_parse (hr : r.Reliable) (o : BatchOptions) (files : List (String × String))
    (h : o.keepGoing = true ∨ ∀ f ∈ files, ¬Fails f.2) : ∃ b,
    inTurn r (parseFile r o) (readable files) = .ok b ∧ Behind r files b ∧
      b.output = printedAll o files :=
  inTurn_of_passes fun f hf => passes_parse hr o (h.imp_right fun h => h f hf)

/-- Over sources that are all parsed, each run tells of success, whatever it would do at an error. -/
theorem runs_of_no_failure (hr : r.Reliable) (h : ∀ f ∈ files, ¬Fails f.2) :
    checkAll r (readable files) = ⟨0, successText files.length, []⟩ ∧
      ∀ o, parseAll r o (readable files) =
        ⟨0, printedAll o files ++ successText files.length, []⟩ := by
  have hnone := failures_eq_nil_iff.2 h
  constructor
  · obtain ⟨b, hrun, hb, hout⟩ := inTurn_check hr files
    rw [checkAll, hrun, conclude, finish_of_no_failure hb hnone, hout, String.empty_append]
  · intro o
    obtain ⟨b, hrun, hb, hout⟩ := inTurn_parse hr o files (.inr h)
    rw [parseAll, hrun, conclude, finish_of_no_failure hb hnone, hout]

/-- Over sources of which some are not parsed, runs that go on behind errors report and count these. -/
theorem runs_of_failure (hr : r.Reliable) (h : ∃ f ∈ files, Fails f.2) :
    ∃ texts, List.Forall₂ (fun e text => r.report (r.keepAll files) e.diagnostic = .ok text)
        (failures files) texts ∧
      checkAll r (readable files) =
        ⟨1, "", texts ++ [failureText (failures files).length files.length]⟩ ∧
      ∀ o, o.keepGoing = true → parseAll r o (readable files) =
        ⟨1, printedAll o files, texts ++ [failureText (failures files).length files.length]⟩ := by
  have hsome : failures files ≠ [] := by
    obtain ⟨f, hf, hfails⟩ := h
    exact fun hnil => failures_eq_nil_iff.1 hnil f hf hfails
  obtain ⟨texts, hall, htexts⟩ := exists_texts hr files
  refine ⟨texts, htexts, ?_, ?_⟩
  · obtain ⟨b, hrun, hb, hout⟩ := inTurn_check hr files
    rw [checkAll, hrun, conclude, finish_of_failure hb hsome hall, hout]
  · intro o ho
    obtain ⟨b, hrun, hb, hout⟩ := inTurn_parse hr o files (.inl ho)
    rw [parseAll, hrun, conclude, finish_of_failure hb hsome hall, hout]

/-- A run that does not go on behind errors ends at the first source that is not parsed. -/
theorem parseAll_of_first (hr : r.Reliable) (ho : o.keepGoing = false)
    {before after : List (String × String)} (hfiles : files = before ++ f :: after)
    (hbefore : ∀ g ∈ before, ¬Fails g.2) (hf : Fails f.2) :
    ∃ messages, parseAll r o (readable files) = ⟨1, printedAll o (before ++ [f]), messages⟩ := by
  obtain ⟨b, hrun, hb, hout⟩ := inTurn_parse hr o before (.inr hbefore)
  obtain ⟨messages, hstep⟩ := parseFile_of_fails hr ho hf hb
  refine ⟨messages, ?_⟩
  rw [hfiles, parseAll, inTurn_of_error hrun hstep, conclude, hout, printedAll_append]
  simp [printedAll]

theorem exists_first_of_fails {files : List (String × String)} (h : ∃ f ∈ files, Fails f.2) :
    ∃ before f after, files = before ++ f :: after ∧ (∀ g ∈ before, ¬Fails g.2) ∧ Fails f.2 := by
  induction files with
  | nil => simp at h
  | cons f files ih =>
    by_cases hf : Fails f.2
    · exact ⟨[], f, files, rfl, by simp, hf⟩
    · obtain ⟨before, g, after, rfl, hbefore, hg⟩ := ih (by simpa [hf] using h)
      exact ⟨f :: before, g, after, rfl, List.forall_mem_cons.2 ⟨hf, hbefore⟩, hg⟩

theorem exit_check (hr : r.Reliable) (files : List (String × String)) :
    (checkAll r (readable files)).exit = 1 ↔ ∃ f ∈ files, Fails f.2 := by
  by_cases hfails : ∃ f ∈ files, Fails f.2
  · obtain ⟨texts, -, hcheck, -⟩ := runs_of_failure hr hfails
    simp [hcheck, hfails]
  · obtain ⟨hcheck, -⟩ := runs_of_no_failure hr fun f hf hff => hfails ⟨f, hf, hff⟩
    simp [hcheck, hfails]

/-- Whatever it prints and whether or not it goes on behind errors, a run exits as a check does. -/
theorem exit_parse (hr : r.Reliable) (o : BatchOptions) (files : List (String × String)) :
    (parseAll r o (readable files)).exit = (checkAll r (readable files)).exit := by
  by_cases hfails : ∃ f ∈ files, Fails f.2
  · obtain ⟨texts, -, hcheck, hgo⟩ := runs_of_failure hr hfails
    rw [hcheck]
    cases ho : o.keepGoing with
    | true => rw [hgo o ho]
    | false =>
      obtain ⟨before, f, after, hfiles, hbefore, hf⟩ := exists_first_of_fails hfails
      obtain ⟨messages, hend⟩ := parseAll_of_first hr ho hfiles hbefore hf
      rw [hend]
  · obtain ⟨hcheck, hparse⟩ := runs_of_no_failure hr fun f hf hff => hfails ⟨f, hf, hff⟩
    rw [hcheck, hparse]

/-- Three ways of a run over the same sources, read without fault, agree. The two that go on behind errors
put off the errors of exactly the sources that are not parsed, in turn and under their numbers. All exit
with 1 if there are any. If there are none, they tell of success, and what is printed of the sources is
printed whether or not errors would have ended the run. If there are some, the two that go on report all
of them and count them, and the one that does not has printed what is printed of the sources up to the
first that is not parsed. -/
theorem modes_agree (hr : r.Reliable) (o : BatchOptions) (files : List (String × String)) :
    let check := checkAll r (readable files)
    let keep := parseAll r { o with keepGoing := true } (readable files)
    let stop := parseAll r { o with keepGoing := false } (readable files)
    (∃ b c, inTurn r (checkFile r) (readable files) = .ok b ∧
      inTurn r (parseFile r { o with keepGoing := true }) (readable files) = .ok c ∧
      b.errors.errors = failures files ∧ c.errors.errors = failures files) ∧
    (check.exit = 1 ↔ ∃ f ∈ files, Fails f.2) ∧ keep.exit = check.exit ∧ stop.exit = check.exit ∧
    ((∀ f ∈ files, ¬Fails f.2) → check = ⟨0, successText files.length, []⟩ ∧
      keep = ⟨0, printedAll o files ++ successText files.length, []⟩ ∧ stop = keep) ∧
    ∀ before f after, files = before ++ f :: after → (∀ g ∈ before, ¬Fails g.2) → Fails f.2 →
      (∃ texts, List.Forall₂ (fun e text => r.report (r.keepAll files) e.diagnostic = .ok text)
          (failures files) texts ∧
        let messages := texts ++ [failureText (failures files).length files.length]
        check = ⟨1, "", messages⟩ ∧ keep = ⟨1, printedAll o files, messages⟩) ∧
      stop.output = printedAll o (before ++ [f]) ∧
      keep.output = stop.output ++ printedAll o after := by
  intro check keep stop
  refine ⟨?_, exit_check hr files, exit_parse hr _ files, exit_parse hr _ files, ?_, ?_⟩
  · obtain ⟨b, hrunb, hb, -⟩ := inTurn_check hr files
    obtain ⟨c, hrunc, hc, -⟩ := inTurn_parse hr { o with keepGoing := true } files (.inl rfl)
    exact ⟨b, c, hrunb, hrunc, by rw [hb.errors], by rw [hc.errors]⟩
  · intro hnone
    obtain ⟨hcheck, hparse⟩ := runs_of_no_failure hr hnone
    have hkeep : keep = ⟨0, printedAll o files ++ _, []⟩ := hparse { o with keepGoing := true }
    have hstop : stop = ⟨0, printedAll o files ++ _, []⟩ := hparse { o with keepGoing := false }
    exact ⟨hcheck, hkeep, hstop.trans hkeep.symm⟩
  · intro before f after hfiles hbefore hf
    have hsome : ∃ g ∈ files, Fails g.2 := ⟨f, by simp [hfiles], hf⟩
    obtain ⟨texts, htexts, hcheck, hgo⟩ := runs_of_failure hr hsome
    have hkeep : keep = ⟨1, printedAll o files, _⟩ := hgo { o with keepGoing := true } rfl
    have hstop : ∃ messages, stop = ⟨1, printedAll o (before ++ [f]), messages⟩ :=
      parseAll_of_first (o := { o with keepGoing := false }) hr rfl hfiles hbefore hf
    obtain ⟨messages, hend⟩ := hstop
    refine ⟨⟨texts, htexts, hcheck, hkeep⟩, by rw [hend], ?_⟩
    rw [hkeep, hend, ← printedAll_append, hfiles]
    simp

/-- The second and the fourth of four sources are not parsed. The run that ends at the first of these has
printed the tokens of two sources, and the tree of one. -/
theorem modes_agree_every_other :
    let files := [("A.java", "class A\x7b\x7d"), ("B.java", "class"), ("C.java", "class C\x7b\x7d"),
      ("D.java", "D /*")]
    let o : BatchOptions := ⟨false, true, false⟩
    let check := checkAll .plain (readable files)
    let keep := parseAll .plain { o with keepGoing := true } (readable files)
    let stop := parseAll .plain { o with keepGoing := false } (readable files)
    let messages := ["stream of tokens finished too early: expected token <class name>",
      "unterminated block comment starting at 1:3", "2 of 4 files failed to parse"]
    let upTo := "// A.java\n=== Tokens ===\n   0:     1:1 class\n   1:     1:7 A\n" ++
      "   2:     1:8 \x7b\n   3:     1:9 \x7d\n\nclass A\x7b\n\x7d\n// B.java\n=== Tokens ===\n" ++
      "   0:     1:1 class\n\n"
    let behind := "// C.java\n=== Tokens ===\n   0:     1:1 class\n   1:     1:7 C\n" ++
      "   2:     1:8 \x7b\n   3:     1:9 \x7d\n\nclass C\x7b\n\x7d\n// D.java\n=== Tokens ===\n" ++
      "   0:     1:1 D\n   1: unterminated block comment starting at 1:3\n\n"
    check = ⟨1, "", messages⟩ ∧ keep = ⟨1, upTo ++ behind, messages⟩ ∧ stop.exit = 1 ∧
      stop.output = upTo := by
  intro files o check keep stop messages upTo behind
  let shortage : FiledError :=
    ⟨1, .grammatical (.tooFewTokens (.expected [.identifier "class name"]) ⟨5, 5⟩)⟩
  let comment : FiledError := ⟨3, .lexical (.unterminatedComment ⟨1, 3, 2⟩ ⟨2, 4⟩)⟩
  have hfailures : failures files = [shortage, comment] := by decide +kernel
  have hbefore : ∀ g ∈ [("A.java", "class A\x7b\x7d")], ¬Fails g.2 :=
    failures_eq_nil_iff.1 (by decide +kernel)
  have hsecond : Fails "class" := ⟨shortage.error, by decide +kernel⟩
  have hupTo : printedAll o [("A.java", "class A\x7b\x7d"), ("B.java", "class")] = upTo := by
    decide +kernel
  have hbehind : printedAll o [("C.java", "class C\x7b\x7d"), ("D.java", "D /*")] = behind := by
    decide +kernel
  have hsummary : [shortage.diagnostic.message, comment.diagnostic.message, failureText 2 4] =
      messages := by decide +kernel
  obtain ⟨-, -, -, hexit, -, hends⟩ := modes_agree Reporter.reliable_plain o files
  obtain ⟨⟨texts, htexts, hcheck, hkeep⟩, hstop, -⟩ := hends _ _ _ rfl hbefore hsecond
  rw [hfailures] at htexts hcheck hkeep
  obtain ⟨_, rest, hone, hrest, rfl⟩ := List.forall₂_cons_left_iff.1 htexts
  obtain ⟨_, _, htwo, hnone, rfl⟩ := List.forall₂_cons_left_iff.1 hrest
  cases hone
  cases htwo
  cases hnone
  have hcheck : check = ⟨1, "", messages⟩ := by
    rw [← hsummary]
    exact hcheck
  refine ⟨hcheck, ?_, hexit.trans (congrArg Outcome.exit hcheck), hstop.trans hupTo⟩
  rw [← hsummary, ← hupTo, ← hbehind, ← printedAll_append]
  exact hkeep

end Batch
end ClassText
