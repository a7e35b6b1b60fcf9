/-!
# Fresh names

A name that has to differ from all names in a list gets underscores in front until it does. Every
candidate is longer than the one before, so each time one name fewer of the list is long enough to
be met.
-/

namespace Metaobject

variable {taken : List String}

/-- The names that a candidate can still meet, itself or with underscores in front: those at least
as long. -/
def longEnough (taken : List String) (name : String) : List String :=
  taken.filter fun s => decide (name.length ≤ s.length)

theorem length_underscore_append (name : String) : ("_" ++ name).length = name.length + 1 := by
  rw [String.length_append, Nat.add_comm]
  rfl

/-- A step past a taken name leaves fewer names to meet. -/
theorem length_longEnough_lt {name : String} (hmem : name ∈ taken) :
    (longEnough taken ("_" ++ name)).length < (longEnough taken name).length := by
  have hlonger : longEnough taken ("_" ++ name)
      = (longEnough taken name).filter fun s => decide (name.length + 1 ≤ s.length) := by
    unfold longEnough
    rw [length_underscore_append, List.filter_filter]
    apply List.filter_congr
    intro s _
    rw [← Bool.decide_and]
    exact decide_eq_decide.mpr (by omega)
  rw [hlonger, List.length_filter_lt_length_iff_exists]
  refine ⟨name, List.mem_filter.mpr ⟨hmem, by simp⟩, ?_⟩
  simp

/-- The first of `name`, `_name`, `__name`, … that is not taken. -/
def freshName (taken : List String) (name : String) : String :=
  if name ∈ taken then freshName taken ("_" ++ name) else name
termination_by (longEnough taken name).length
decreasing_by
  rename_i hmem
  exact length_longEnough_lt hmem

end Metaobject
