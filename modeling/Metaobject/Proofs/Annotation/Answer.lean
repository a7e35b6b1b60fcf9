import Metaobject.Proofs.Annotation.Totality
import Metaobject.Tree.Build

/-!
# The answer of a check

Checking a usage answers whether the log is as long as before. A log that is full at the start only
counts what it is given, so there the answer says nothing about the usage. In every other state,
also where the log becomes full on the way, the first problem is recorded, and the answer is right.

* `ProblemLog.reported_addAll`: every problem is recorded or counted.
* `ProblemLog.size_addAll_eq_iff`: when a log stays as long as it is.
* `AnnotationUse.judge_truthful_iff`: when the answer is right.
-/

namespace Metaobject

/-! ## Logs -/

namespace ProblemLog

/-- How many problems a log has been given, recorded or not. -/
def reported (log : ProblemLog) : Nat := log.size + log.dropped

variable {log : ProblemLog}

/-- A full log only counts what it drops. -/
theorem add_of_isFull (h : log.isFull = true) (p : Problem) :
    log.add p = { log with dropped := log.dropped + 1 } :=
  if_pos h

/-- A log that is not full takes the problem. -/
theorem size_add_of_not_isFull (h : log.isFull = false) (p : Problem) :
    (log.add p).size = log.size + 1 := by
  rw [add, if_neg (Bool.eq_false_iff.mp h), size, List.length_append]
  rfl

/-- Each problem counts as reported, recorded or not. -/
theorem reported_add (log : ProblemLog) (p : Problem) :
    (log.add p).reported = log.reported + 1 := by
  cases h : log.isFull with
  | true =>
    rw [add_of_isFull h]
    rfl
  | false =>
    have hdropped : (log.add p).dropped = log.dropped := by
      rw [add, if_neg (Bool.eq_false_iff.mp h)]
    rw [reported, size_add_of_not_isFull h, hdropped, reported, Nat.add_right_comm]

/-- All problems of a list count as reported. -/
theorem reported_addAll (log : ProblemLog) (ps : List Problem) :
    (log.addAll ps).reported = log.reported + ps.length := by
  induction ps generalizing log with
  | nil => rfl
  | cons p ps ih =>
    rw [addAll_cons, ih, reported_add, List.length_cons]
    omega

theorem size_le_size_add (log : ProblemLog) (p : Problem) : log.size ≤ (log.add p).size := by
  cases h : log.isFull with
  | true =>
    rw [add_of_isFull h]
    exact Nat.le_refl _
  | false =>
    rw [size_add_of_not_isFull h]
    exact Nat.le_succ _

/-- A log never loses what it has recorded. -/
theorem size_le_size_addAll (log : ProblemLog) (ps : List Problem) :
    log.size ≤ (log.addAll ps).size := by
  induction ps generalizing log with
  | nil => exact Nat.le_refl _
  | cons p ps ih => exact (log.size_le_size_add p).trans (ih (log.add p))

/-- A full log stays as long as it is. -/
theorem size_addAll_of_isFull (h : log.isFull = true) (ps : List Problem) :
    (log.addAll ps).size = log.size := by
  induction ps generalizing log with
  | nil => rfl
  | cons p ps ih =>
    rw [addAll_cons, add_of_isFull h]
    exact ih h

/-- The number of recorded problems only stays the same if there are none or the log is full. -/
theorem size_addAll_eq_iff {ps : List Problem} :
    (log.addAll ps).size = log.size ↔ ps = [] ∨ log.isFull = true := by
  cases ps with
  | nil => exact iff_of_true rfl (.inl rfl)
  | cons p ps =>
    constructor
    · intro hsize
      by_contra hgrows
      -- the first problem is recorded, whatever becomes of the rest
      have hfull : log.isFull = false := Bool.eq_false_iff.mpr fun h => hgrows (.inr h)
      have hle := size_le_size_addAll (log.add p) ps
      rw [size_add_of_not_isFull hfull, ← addAll_cons, hsize] at hle
      exact Nat.not_succ_le_self _ hle
    · rintro (h | h)
      · cases h
      · exact size_addAll_of_isFull h _

end ProblemLog

/-! ## The answer -/

/-- The answer compares the log before and after the check. -/
theorem AnnotationUse.judge_eq_ok_iff {t : ClassTable} {inline ok : Bool} {a a' : AnnotationUse}
    {log log' : ProblemLog} :
    a.judge t inline log = .ok (ok, a', log') ↔ a.validate t inline log = .ok (a', log') ∧
      ok = (log'.size == log.size) := by
  rw [AnnotationUse.judge]
  cases a.validate t inline log with
  | error fault => exact iff_of_false (by rintro ⟨⟩) (by rintro ⟨⟨⟩, _⟩)
  | ok checked =>
    constructor
    · rintro ⟨⟩
      exact ⟨rfl, rfl⟩
    · rintro ⟨⟨⟩, rfl⟩
      rfl

/-- What the check of a usage finds is recorded or counted by the log. The answer is yes exactly if
nothing is found, unless the log is full at the start: then it is yes in any case. -/
theorem AnnotationUse.judge_truthful_iff (t : ClassTable) (inline : Bool) (a : AnnotationUse)
    (log : ProblemLog) :
    (t.Based → (∀ id ∈ a.classIds, id < t.size) → ∃ ok a' log',
      a.judge t inline log = .ok (ok, a', log')) ∧
    ∀ ok a' log', a.judge t inline log = .ok (ok, a', log') →
      ∃ found, a.problems t inline = .ok found ∧
      log'.reported = log.reported + found.length ∧
        ((ok = true ↔ found = []) ↔ log.isFull = false ∨ found = []) := by
  constructor
  · intro ht hids
    obtain ⟨a', log', hrun⟩ := AnnotationUse.validate_completes ht hids log
    exact ⟨_, a', log', AnnotationUse.judge_eq_ok_iff.mpr ⟨hrun, rfl⟩⟩
  · intro ok a' log' hjudge
    obtain ⟨hrun, rfl⟩ := AnnotationUse.judge_eq_ok_iff.mp hjudge
    obtain ⟨found, hfound, -, rfl⟩ := AnnotationUse.validate_eq_ok_iff.mp hrun
    refine ⟨found, hfound, log.reported_addAll found, ?_⟩
    rw [beq_iff_eq, ProblemLog.size_addAll_eq_iff]
    cases log.isFull with
    | true => simp
    | false => simp

/-- An annotation type with one attribute, which has no default. -/
def paintTable : ClassTable := ClassTable.seeded.add
  { ClassDecl.empty "Paint" .annotationType with
    methods := [.ofAttribute "color" Builtin.intType none] }

/-- A usage that gives a value under another name. -/
def colourUse : AnnotationUse := ⟨.resolved 25 "Paint", [("colour", .int 7)], false, .synthetic⟩

/-- Two problems for a log that records one: it becomes full on the way, and the answer is no. -/
theorem AnnotationUse.judge_truthful_halfway :
    ∃ a' log', colourUse.judge paintTable true { tolerance := 1 } = .ok (false, a', log') ∧
      log'.reported = 2 := by
  have ht : paintTable.Based := ⟨ClassTable.numbered_iff.mpr (by decide), by decide⟩
  have hproblems : colourUse.problems paintTable true =
      .ok [⟨.missingAttribute ⟨"Paint", "color"⟩, .synthetic⟩,
        ⟨.unknownAttribute ⟨"Paint", "colour"⟩, .synthetic⟩] := rfl
  obtain ⟨hcompletes, htruthful⟩ :=
    AnnotationUse.judge_truthful_iff paintTable true colourUse { tolerance := 1 }
  obtain ⟨ok, a', log', hrun⟩ := hcompletes ht (by decide)
  obtain ⟨found, hfound, hreported, hanswer⟩ := htruthful ok a' log' hrun
  cases hproblems.symm.trans hfound
  have hok : ok = false :=
    Bool.eq_false_iff.mpr fun h => List.cons_ne_nil _ _ ((hanswer.mpr (.inl rfl)).mp h)
  rw [hok] at hrun
  exact ⟨a', log', hrun, hreported⟩

/-- A usage of a class that is no annotation type. -/
def objectUse : AnnotationUse := ⟨.resolved 0 "Object", [], false, .synthetic⟩

/-- What is wrong with it. -/
def objectProblem : Problem := ⟨.notAnAnnotationType "Object", .synthetic⟩

/-- A log that has recorded as many problems as it may. -/
def fullLog : ProblemLog := { recorded := [objectProblem], tolerance := 1 }

/-- A full log: the answer is yes, and the problem is dropped. -/
theorem AnnotationUse.judge_truthful_not_of_full :
    ∃ a' log', objectUse.judge ClassTable.seeded true fullLog = .ok (true, a', log') ∧
      objectUse.problems ClassTable.seeded true = .ok [objectProblem] ∧
      log'.dropped = fullLog.dropped + 1 :=
  ⟨_, _, rfl, rfl, rfl⟩

end Metaobject
