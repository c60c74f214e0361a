import ClassText.Proofs.Batching

/-! Runs over files of which some cannot be loaded. A run that is to go on behind failures does so behind
every file that is loaded, whether or not it is parsed; the first file that cannot be loaded ends it, and
nothing but this file is reported. -/
namespace ClassText.Batch

/-- Why a file fails: it cannot be loaded, or it is not parsed. -/
def fileError? (f : String × Except LoadFault String) : Option Error :=
  match f.2 with
  | .error fault => some (fault.toError f.1)
  | .ok text =>
    match parse text with
    | .ok _ => none
    | .error e => some e

/-- The errors of the files that fail, in turn. -/
def fileErrors (files : List (String × Except LoadFault String)) : List Error :=
  files.filterMap fileError?

/-- The sources among files that can be loaded. -/
def loaded (files : List (String × Except LoadFault String)) : List (String × String) :=
  files.filterMap fun f => f.2.toOption.map fun text => (f.1, text)

/-- A run that ends so has gone on behind every failure. Each class that can be read has been shown, the
error of each file that fails is reported in its turn, they are counted, and the exit code tells whether
there are any. -/
structure KeepsGoing {σ : Type} (r : Reporter σ) (o : BatchOptions)
    (files : List (String × Except LoadFault String)) (out : Outcome) : Prop where
  shown : ∀ f ∈ files, ∀ text, f.2 = .ok text → ∀ c, parse text = .ok c →
    (showing o c).toList <:+: out.output.toList
  reported : fileErrors files ≠ [] → ∃ texts processed,
    List.Forall₂ (fun e text => ∃ number,
      r.report (r.keepAll (loaded files)) (e.diagnostic number) = .ok text) (fileErrors files) texts ∧
    out.messages = texts ++ [failureText (fileErrors files).length processed]
  exit : out.exit = if fileErrors files = [] then 0 else 1

variable {σ : Type} {r : Reporter σ} {o : BatchOptions} {before sources : List (String × String)}

/-- Either all files can be loaded, or there is a first one that cannot. -/
theorem readable_or_fault (files : List (String × Except LoadFault String)) :
    (∃ sources, files = readable sources) ∨
      ∃ before path fault after, files = readable before ++ (path, .error fault) :: after := by
  induction files with
  | nil => exact .inl ⟨[], rfl⟩
  | cons f files ih =>
    obtain ⟨path, fault | text⟩ := f
    · exact .inr ⟨[], path, fault, files, rfl⟩
    · obtain ⟨sources, rfl⟩ | ⟨before, p, fault, after, rfl⟩ := ih
      · exact .inl ⟨(path, text) :: sources, rfl⟩
      · exact .inr ⟨(path, text) :: before, p, fault, after, rfl⟩

theorem loaded_readable (sources : List (String × String)) : loaded (readable sources) = sources := by
  induction sources with
  | nil => rfl
  | cons f sources ih => exact congrArg (f :: ·) ih

theorem fileErrors_readable (sources : List (String × String)) :
    fileErrors (readable sources) = (failures sources).map (·.error) := by
  induction sources using List.reverseRecOn with
  | nil => rfl
  | append_singleton sources f ih =>
    have hlast : fileErrors (readable [f]) =
        (failure? f.2 sources.length).toList.map (·.error) := by
      cases h : parse f.2 with
      | ok c => simp [fileErrors, readable, fileError?, failure?, h]
      | error e => simp [fileErrors, readable, fileError?, failure?, h]
    rw [failures_concat, List.map_append, ← ih, ← hlast, readable, List.map_append, fileErrors,
      List.filterMap_append]
    rfl

theorem fileErrors_readable_eq_nil_iff :
    fileErrors (readable sources) = [] ↔ ∀ f ∈ sources, ¬Fails f.2 := by
  rw [fileErrors_readable, List.map_eq_nil_iff, failures_eq_nil_iff]

theorem fileErrors_ne_nil_of_fault {path : String} {fault : LoadFault}
    {files : List (String × Except LoadFault String)} (h : (path, .error fault) ∈ files) :
    fileErrors files ≠ [] :=
  List.ne_nil_of_mem (List.mem_filterMap.2 ⟨_, h, rfl⟩)

/-- What is shown of a class stands in what is printed of all sources. -/
theorem showing_infix {f : String × String} (hf : f ∈ sources) {c : ClassDecl}
    (hc : parse f.2 = .ok c) (o : BatchOptions) :
    (showing o c).toList <:+: (printedAll o sources).toList := by
  obtain ⟨before, after, rfl⟩ := List.append_of_mem hf
  have hprinted : printedAll o (before ++ f :: after) =
      printedAll o before ++ heading o f.1 f.2 ++ showing o c ++ printedAll o after := by
    have hcons : printedAll o (f :: after) = printed o f ++ printedAll o after :=
      printedAll_append o [f] after
    rw [printedAll_append, hcons, printed_of_ok hc]
    simp only [String.append_assoc]
  rw [hprinted]
  refine ⟨(printedAll o before ++ heading o f.1 f.2).toList, (printedAll o after).toList, ?_⟩
  simp only [String.toList_append]

theorem shown_readable {f : String × Except LoadFault String} (hf : f ∈ readable sources) {text : String}
    (htext : f.2 = .ok text) {c : ClassDecl} (hc : parse text = .ok c) (o : BatchOptions) :
    (showing o c).toList <:+: (printedAll o sources).toList := by
  obtain ⟨g, hg, rfl⟩ := List.mem_map.1 hf
  cases htext
  exact showing_infix hg hc o

/-- Over files that can all be loaded, a run that is to go on behind failures does so. -/
theorem keepsGoing_readable (hr : r.Reliable) (ho : o.keepGoing = true)
    (sources : List (String × String)) :
    KeepsGoing r o (readable sources) (parseAll r o (readable sources)) := by
  by_cases hfails : ∃ f ∈ sources, Fails f.2
  · obtain ⟨texts, htexts, -, hgo⟩ := runs_of_failure hr hfails
    have hsome : fileErrors (readable sources) ≠ [] := by
      obtain ⟨f, hf, hff⟩ := hfails
      exact fun hnil => fileErrors_readable_eq_nil_iff.1 hnil f hf hff
    rw [hgo o ho]
    exact {
      shown := fun f hf text htext c hc => shown_readable hf htext hc o
      reported := fun _ => by
        refine ⟨texts, sources.length, ?_, by rw [fileErrors_readable, List.length_map]⟩
        rw [fileErrors_readable, loaded_readable, List.forall₂_map_left_iff]
        exact htexts.imp fun e text h => ⟨e.file, h⟩
      exit := (if_neg hsome).symm }
  · have hnone : ∀ f ∈ sources, ¬Fails f.2 := fun f hf hff => hfails ⟨f, hf, hff⟩
    have hnil := fileErrors_readable_eq_nil_iff.2 hnone
    rw [(runs_of_no_failure hr hnone).2 o]
    exact {
      shown := fun f hf text htext c hc => by
        rw [String.toList_append]
        exact (shown_readable hf htext hc o).trans (List.prefix_append _ _).isInfix
      reported := fun h => absurd hnil h
      exit := (if_pos hnil).symm }

/-- A file that cannot be loaded ends the run, whatever it would do at an error and whatever has been put
off until then. -/
theorem parseAll_of_fault (hr : r.Reliable) (ho : o.keepGoing = true) (path : String)
    (fault : LoadFault) (after : List (String × Except LoadFault String)) :
    parseAll r o (readable before ++ (path, .error fault) :: after) =
      ⟨1, printedAll o before, [(fault.toError path).message]⟩ := by
  obtain ⟨b, hrun, -, hout⟩ := inTurn_parse hr o before (.inl ho)
  rw [inTurn] at hrun
  rw [parseAll, inTurn, List.foldlM_append, hrun, ← hout]
  rfl

/-- A run that is to go on behind failures exits with 1 if and only if some file fails. If all files can be
loaded, it does go on: each class is shown, and each failure is reported and counted. The first file
that cannot be loaded ends it. Then it has shown what it shows of the files before this one, and the one
error that it reports is that of this file, also if others have been put off. -/
theorem parseAll_keepGoing (hr : r.Reliable) (ho : o.keepGoing = true)
    (files : List (String × Except LoadFault String)) :
    let out := parseAll r o files
    (out.exit = 1 ↔ fileErrors files ≠ []) ∧
    ((∀ f ∈ files, ∃ text, f.2 = .ok text) → KeepsGoing r o files out) ∧
    ∀ before path fault after, files = readable before ++ (path, .error fault) :: after →
      out = ⟨1, printedAll o before, [(fault.toError path).message]⟩ := by
  intro out
  refine ⟨?_, ?_, ?_⟩
  · obtain ⟨sources, rfl⟩ | ⟨before, path, fault, after, rfl⟩ := readable_or_fault files
    · rw [(keepsGoing_readable hr ho sources).exit]
      split
      · next h => simp [h]
      · next h => simp [h]
    · have hout : out = ⟨1, printedAll o before, _⟩ := parseAll_of_fault hr ho path fault after
      have hsome := fileErrors_ne_nil_of_fault (List.mem_append_right (readable before)
        (List.mem_cons_self (a := (path, Except.error fault)) (l := after)))
      simp [hout, hsome]
  · intro h
    obtain ⟨sources, rfl⟩ | ⟨before, path, fault, after, rfl⟩ := readable_or_fault files
    · exact keepsGoing_readable hr ho sources
    · obtain ⟨text, htext⟩ := h (path, .error fault) (by simp)
      cases htext
  · rintro before path fault after rfl
    exact parseAll_of_fault hr ho path fault after

/-- The third of four files is no text. The class of the first one has been shown, and the error of the
second one is lost; without the third one it is reported. -/
theorem parseAll_keepGoing_not_text :
    let o : BatchOptions := ⟨false, false, true⟩
    let before := [("A.java", "class A\x7b\x7d"), ("B.java", "class")]
    let after := [("D.java", .ok "class D\x7b\x7d")]
    parseAll .plain o (readable before ++ ("C.java", .error .notText) :: after) =
      ⟨1, "// A.java\nclass A\x7b\n\x7d\n// B.java\n",
        ["I/O error: C.java: stream did not contain valid UTF-8"]⟩ ∧
      KeepsGoing .plain o (readable before) (parseAll .plain o (readable before)) := by
  intro o before after
  have hprinted : printedAll o before = "// A.java\nclass A\x7b\n\x7d\n// B.java\n" := by decide +kernel
  have hmessage : ((LoadFault.notText).toError "C.java").message =
      "I/O error: C.java: stream did not contain valid UTF-8" := by decide +kernel
  constructor
  · rw [← hprinted, ← hmessage]
    exact (parseAll_keepGoing Reporter.reliable_plain rfl _).2.2 before "C.java" .notText after rfl
  · refine (parseAll_keepGoing Reporter.reliable_plain rfl (readable before)).2.1 fun f hf => ?_
    obtain ⟨g, -, rfl⟩ := List.mem_map.1 hf
    exact ⟨g.2, rfl⟩

/-- Where a file cannot be loaded, a run that is to go on behind failures does not. The file behind it is not
shown, and the error of the file before it is not reported. -/
theorem not_keepsGoing_not_text :
    let o : BatchOptions := ⟨false, false, true⟩
    let files := [("A.java", .ok "class"), ("B.java", .error .notText), ("C.java", .ok "class C\x7b\x7d")]
    parseAll .plain o files =
      ⟨1, "// A.java\n", ["I/O error: B.java: stream did not contain valid UTF-8"]⟩ ∧
      ¬KeepsGoing .plain o files (parseAll .plain o files) := by
  intro o files
  have hout : parseAll .plain o files =
      ⟨1, "// A.java\n", ["I/O error: B.java: stream did not contain valid UTF-8"]⟩ := by
    decide +kernel
  refine ⟨hout, fun h => ?_⟩
  have hsome : fileErrors files ≠ [] := by decide +kernel
  obtain ⟨texts, processed, htexts, hmessages⟩ := h.reported hsome
  have hlength := htexts.length_eq
  rw [hout] at hmessages
  have hcount := congrArg List.length hmessages
  have htwo : (fileErrors files).length = 2 := by decide +kernel
  rw [List.length_append, ← hlength, htwo] at hcount
  cases hcount

end ClassText.Batch
