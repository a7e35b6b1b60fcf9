import Metaobject.Problem.Basic

/-!
# The problem log

The passes of one unit write their problems into one log. A log may have a tolerance: once that many
problems are recorded, further ones are only counted.
-/

namespace Metaobject

/-- The problems of one unit, in the order they were found. -/
structure ProblemLog where
  recorded : List Problem := []
  /-- How many problems are recorded; zero means all of them. -/
  tolerance : Nat := 0
  /-- How many problems came after the tolerance was reached. -/
  dropped : Nat := 0
deriving Repr

namespace ProblemLog

def size (log : ProblemLog) : Nat := log.recorded.length

/-- Whether the tolerance is reached. -/
def isFull (log : ProblemLog) : Bool := 0 < log.tolerance && log.tolerance ≤ log.size

/-- Record a problem, or count it if the log is full. -/
def add (log : ProblemLog) (p : Problem) : ProblemLog :=
  if log.isFull then { log with dropped := log.dropped + 1 }
  else { log with recorded := log.recorded ++ [p] }

/-- Add several problems in order. -/
def addAll (log : ProblemLog) (ps : List Problem) : ProblemLog := ps.foldl add log

@[simp]
theorem addAll_nil (log : ProblemLog) : log.addAll [] = log := rfl

@[simp]
theorem addAll_cons (log : ProblemLog) (p : Problem) (ps : List Problem) :
    log.addAll (p :: ps) = (log.add p).addAll ps := rfl

theorem addAll_append (log : ProblemLog) (ps qs : List Problem) :
    log.addAll (ps ++ qs) = (log.addAll ps).addAll qs := by simp [addAll]

@[simp]
theorem tolerance_add (log : ProblemLog) (p : Problem) : (log.add p).tolerance = log.tolerance := by
  unfold add; split <;> rfl

theorem isFull_of_unlimited {log : ProblemLog} (h : log.tolerance = 0) : log.isFull = false := by
  simp [isFull, h]

/-- An unlimited log records everything. -/
theorem addAll_of_unlimited {log : ProblemLog} (h : log.tolerance = 0) (ps : List Problem) :
    log.addAll ps = { log with recorded := log.recorded ++ ps } := by
  induction ps generalizing log with
  | nil => simp
  | cons p ps ih =>
    have hadd : log.add p = { log with recorded := log.recorded ++ [p] } :=
      if_neg (Bool.eq_false_iff.mp (isFull_of_unlimited h))
    have hrest := @ih { log with recorded := log.recorded ++ [p] } h
    rw [addAll_cons, hadd, hrest, List.append_assoc]
    rfl

end ProblemLog

end Metaobject
