import Mathlib.Algebra.BigOperators.Group.Finset.Basic

/-!
# The length of a search along links

A search that takes nodes off a list, and puts the links of a node there when it enters the node for
the first time, makes one step for each node it starts with and for each link. What is left of the
links goes down by those of a node when the node is entered (`Worklist.linksBeyond_cons`), so the
number of links at the start bounds the search.
-/

namespace Metaobject.Worklist

/-- The number of links from the nodes below `n` that were not entered yet. -/
def linksBeyond (links : Nat → List Nat) (n : Nat) (seen : List Nat) : Nat :=
  ∑ i ∈ Finset.range n \ seen.toFinset, (links i).length

/-- To enter a node uses up its links. -/
theorem linksBeyond_cons (links : Nat → List Nat) {n i : Nat} {seen : List Nat} (hi : i ∉ seen)
    (hbeyond : n ≤ i → links i = []) :
    (links i).length + linksBeyond links n (i :: seen) = linksBeyond links n seen := by
  have herase : Finset.range n \ (i :: seen).toFinset =
    (Finset.range n \ seen.toFinset).erase i := by
    rw [List.toFinset_cons, Finset.sdiff_insert]
  unfold linksBeyond
  rw [herase]
  by_cases hrange : i < n
  · exact Finset.add_sum_erase _ (fun i => (links i).length) (by simp [hrange, hi])
  · rw [Finset.erase_eq_of_notMem (by simp [hrange]), hbeyond (Nat.le_of_not_lt hrange)]
    simp

/-- At the start these are all links. -/
theorem linksBeyond_nil {α : Type} {links : Nat → List Nat} (nodes : List α) (out : α → List Nat)
    (hlinks : ∀ i, links i = (nodes[i]?).elim [] out) :
    linksBeyond links nodes.length [] = (nodes.flatMap out).length := by
  simp only [linksBeyond, hlinks, List.toFinset_nil, Finset.sdiff_empty, List.length_flatMap]
  clear hlinks
  induction nodes with
  | nil => rfl
  | cons a nodes ih =>
    rw [List.length_cons, Finset.sum_range_succ']
    simp only [List.getElem?_cons_succ, ih]
    simp [Nat.add_comm]

end Metaobject.Worklist
