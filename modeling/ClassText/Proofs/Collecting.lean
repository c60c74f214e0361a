import ClassText.Files.Disk
import Mathlib.Data.List.Destutter
import Mathlib.Data.List.Lex
import Mathlib.Data.List.Sort
import Mathlib.Data.String.Basic

/-! Which sources a walk gives. Only what is walked counts, not in which order and how often: the same
entries give the same paths, in the order of paths and each of them once. -/
namespace ClassText

namespace Path

/-- Paths are ordered as lists of names. -/
theorem precedes_iff_lt {p q : Path} : p.precedes q = true ↔ p < q := by
  induction p generalizing q with
  | nil => cases q <;> simp [precedes]
  | cons a p ih =>
    cases q with
    | nil => simp [precedes]
    | cons b q =>
      rw [precedes, Bool.or_eq_true, Bool.and_eq_true, decide_eq_true_eq, beq_iff_eq, ih]
      exact List.cons_lt_cons_iff.symm

theorem not_precedes_iff_le {p q : Path} : (!q.precedes p) = true ↔ p ≤ q := by
  rw [Bool.not_eq_true', ← Bool.not_eq_true, precedes_iff_lt, not_lt]

/-- Sorting gives the order of paths. -/
theorem pairwise_mergeSort (ps : List Path) :
    (ps.mergeSort fun p q => !q.precedes p).Pairwise (· ≤ ·) := by
  have h : (ps.mergeSort fun p q => !q.precedes p).Pairwise fun p q => (!q.precedes p) = true :=
    List.pairwise_mergeSort (fun p q r => by simpa only [not_precedes_iff_le] using le_trans)
      (fun p q => by simpa only [Bool.or_eq_true, not_precedes_iff_le] using le_total p q) ps
  exact h.imp not_precedes_iff_le.1

end Path

theorem eraseRepsBy_loop_eq (p : Path) (ps kept : List Path) :
    List.eraseRepsBy.loop (· == ·) p ps kept = kept.reverse ++ ps.destutter' (· ≠ ·) p := by
  induction ps generalizing p kept with
  | nil => simp [List.eraseRepsBy.loop]
  | cons q ps ih =>
    rw [List.eraseRepsBy.loop, List.destutter'_cons]
    by_cases h : p = q
    · simp [h, ih]
    · simp [h, ih, beq_eq_false_iff_ne.2 h]

/-- Where equal paths stand in a row, dropping neighbours that are equal leaves each path once. -/
theorem eraseReps_eq_dedup {ps : List Path} (h : ps.Pairwise (· ≤ ·)) : ps.eraseReps = ps.dedup := by
  rw [← h.destutter_eq_dedup]
  cases ps with
  | nil => rfl
  | cons p ps => exact eraseRepsBy_loop_eq p ps []

variable {extension : String} {walk : List Entry}

/-- An entry counts if it is a regular file and the path by which it was visited has the extension. -/
theorem bears_iff {e : Entry} : e.bears extension = true ↔
    e.isFile = true ∧ Path.extension? (Path.fileName e.visited) = some extension := by
  simp [Entry.bears]

theorem sourcePaths_eq_dedup (extension : String) (walk : List Entry) :
    sourcePaths extension walk =
      (((walk.filter (Entry.bears extension)).map (·.resolved)).mergeSort
        fun p q => !q.precedes p).dedup :=
  eraseReps_eq_dedup (Path.pairwise_mergeSort _)

theorem pairwise_sourcePaths (extension : String) (walk : List Entry) :
    (sourcePaths extension walk).Pairwise (· < ·) := by
  rw [sourcePaths_eq_dedup]
  have hle := (Path.pairwise_mergeSort ((walk.filter (Entry.bears extension)).map (·.resolved))).sublist
    (List.dedup_sublist _)
  exact (hle.and (List.nodup_dedup _)).imp fun h => lt_of_le_of_ne h.1 h.2

theorem mem_sourcePaths {p : Path} : p ∈ sourcePaths extension walk ↔
    ∃ e ∈ walk, e.isFile = true ∧
      Path.extension? (Path.fileName e.visited) = some extension ∧ e.resolved = p := by
  rw [sourcePaths_eq_dedup, List.mem_dedup, List.mem_mergeSort, List.mem_map]
  simp only [List.mem_filter, bears_iff, and_assoc]

/-- Two strictly ascending lists with the same members are the same list. -/
theorem sourcePaths_congr {walk' : List Entry} (h : ∀ e, e ∈ walk ↔ e ∈ walk') :
    sourcePaths extension walk = sourcePaths extension walk' := by
  refine (pairwise_sourcePaths extension walk).eq_of_mem_iff (pairwise_sourcePaths extension walk')
    fun p => ?_
  simp only [mem_sourcePaths, h]

/-- A walk that is completed gives sources. They are the places of the regular files that are visited by a
path with the extension, strictly ascending, so that none is given twice; and a walk that comes by the
same entries in another order, or by some of them again, gives the same list. -/
theorem sources_of_walk {d : Disk} {root : String} (h : d.walk root = .ok walk) (extension : String) :
    (∃ ps : List Path, d.sources root extension = .ok (ps.map Path.text) ∧ ps.Pairwise (· < ·) ∧
      ∀ p, p ∈ ps ↔ ∃ e ∈ walk, e.isFile = true ∧
        Path.extension? (Path.fileName e.visited) = some extension ∧ e.resolved = p) ∧
    ∀ (d' : Disk) (root' : String) (walk' : List Entry), d'.walk root' = .ok walk' →
      (∀ e, e ∈ walk ↔ e ∈ walk') → d'.sources root' extension = d.sources root extension := by
  have hsources {d : Disk} {root : String} {walk : List Entry} (h : d.walk root = .ok walk) :
      d.sources root extension = .ok ((sourcePaths extension walk).map Path.text) := by
    rw [Disk.sources, h]
    rfl
  refine ⟨⟨_, hsources h, pairwise_sourcePaths extension walk, fun p => mem_sourcePaths⟩, ?_⟩
  intro d' root' walk' h' hmem
  rw [hsources h, hsources h', sourcePaths_congr hmem]

/-- A file that is also visited through a link is given once, and a walk in the other direction that comes
by everything twice gives nothing else. -/
theorem sources_of_walk_linked :
    let walk : List Entry := [⟨["", "r"], false, ["", "r"]⟩,
      ⟨["", "r", "b.java"], true, ["", "r", "b.java"]⟩, ⟨["", "r", "a.txt"], true, ["", "r", "a.txt"]⟩,
      ⟨["", "r", "l.java"], true, ["", "r", "b.java"]⟩, ⟨["", "r", "A.java"], true, ["", "r", "A.java"]⟩]
    let again := (walk ++ walk).reverse
    let d : Disk := ⟨fun _ => .ok walk, fun _ => .error .notText⟩
    let d' : Disk := ⟨fun _ => .ok again, fun _ => .error .notText⟩
    d.walk "/r" = .ok walk ∧ d'.walk "/r" = .ok again ∧ (∀ e, e ∈ walk ↔ e ∈ again) ∧
      d.sources "/r" "java" = .ok ["/r/A.java", "/r/b.java"] ∧
      d'.sources "/r" "java" = .ok ["/r/A.java", "/r/b.java"] ∧
      ∃ ps : List Path, d.sources "/r" "java" = .ok (ps.map Path.text) ∧ ps.Pairwise (· < ·) := by
  intro walk again d d'
  have hmem : ∀ e, e ∈ walk ↔ e ∈ again := by
    intro e
    simp [again]
  have hfound : (walk.filter (Entry.bears "java")).map (·.resolved) =
      [["", "r", "b.java"], ["", "r", "b.java"], ["", "r", "A.java"]] := by decide +kernel
  have hpaths : sourcePaths "java" walk = [["", "r", "A.java"], ["", "r", "b.java"]] := by
    have hsame : Path.precedes ["", "r", "b.java"] ["", "r", "b.java"] = false := by decide +kernel
    have hless : Path.precedes ["", "r", "A.java"] ["", "r", "b.java"] = true := by decide +kernel
    rw [sourcePaths, hfound]
    simp [List.mergeSort, hsame, hless, List.eraseReps, List.eraseRepsBy, List.eraseRepsBy.loop]
  have hd : d.sources "/r" "java" = .ok ["/r/A.java", "/r/b.java"] := by
    have htext : [["", "r", "A.java"], ["", "r", "b.java"]].map Path.text =
        ["/r/A.java", "/r/b.java"] := by decide +kernel
    rw [← htext, ← hpaths]
    rfl
  have hwalk : d.walk "/r" = .ok walk := rfl
  obtain ⟨⟨ps, hps, hlt, -⟩, hany⟩ := sources_of_walk hwalk "java"
  exact ⟨hwalk, rfl, hmem, hd, (hany d' "/r" again rfl hmem).trans hd, ps, hps, hlt⟩

end ClassText
