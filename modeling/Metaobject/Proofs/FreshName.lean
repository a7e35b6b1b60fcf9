import Mathlib.Data.List.Perm.Subperm
import Mathlib.Data.List.Nodup
import Mathlib.Order.Bounds.Defs
import Metaobject.FreshName

/-!
# Fresh names are the first that are free

The candidates for a fresh name differ in length, so no name of the list is met twice. That bounds
the search by the length of the list, whatever is in it, in whatever order and however often.

* `Renames`: the search, round by round, with the number of underscores that it puts in front.
* `Renames.le_length`: a search that has come to its end has not put more underscores in front than
  there are names.
* `freshName_not_mem`: the name that comes out is none of the taken ones.
* `freshName_least`: the search ends, in time, with the least number of underscores that frees the
  name.
-/

namespace Metaobject

variable {taken : List String}

/-- The name with this many underscores in front. -/
def underscored (k : Nat) (name : String) : String := String.ofList (List.replicate k '_') ++ name

@[simp]
theorem underscored_zero (name : String) : underscored 0 name = name := String.empty_append

theorem underscored_succ (k : Nat) (name : String) :
    underscored (k + 1) name = underscored k ("_" ++ name) := by
  unfold underscored
  rw [List.replicate_succ', String.ofList_append, String.append_assoc]

/-- Each underscore makes a name longer by one. -/
theorem length_underscored (k : Nat) (name : String) :
    (underscored k name).length = k + name.length := by
  unfold underscored
  rw [String.length_append, String.length_ofList, List.length_replicate]

/-- Different numbers of underscores give different names. -/
theorem underscored_injective (name : String) : Function.Injective (underscored · name) := by
  intro k m heq
  have hlength := congrArg String.length heq
  rw [length_underscored, length_underscored] at hlength
  omega

/-! ## The search -/

/-- The search from a candidate ends with a name, after this many times an underscore was put in
front. -/
inductive Renames (taken : List String) : Nat → String → String → Prop where
  | free {name : String} (h : name ∉ taken) : Renames taken 0 name name
  | again {k : Nat} {name result : String} (h : name ∈ taken)
      (rest : Renames taken k ("_" ++ name) result) :
      Renames taken (k + 1) name result

namespace Renames

variable {k : Nat} {name result : String}

/-- A renamed variable has a name that is not taken. -/
theorem not_mem (h : Renames taken k name result) : result ∉ taken := by
  induction h with
  | free h => exact h
  | again _ _ ih => exact ih

/-- A renamed variable has its name behind underscores. -/
theorem eq_underscored (h : Renames taken k name result) : result = underscored k name := by
  induction h with
  | free _ => exact (underscored_zero _).symm
  | again _ _ ih => exact ih.trans (underscored_succ _ _).symm

/-- All candidates before the last were taken. -/
theorem mem_of_lt (h : Renames taken k name result) : ∀ m < k, underscored m name ∈ taken := by
  induction h with
  | free _ =>
    intro m hm
    exact absurd hm m.not_lt_zero
  | again hmem _ ih =>
    intro m hm
    cases m with
    | zero =>
      rw [underscored_zero]
      exact hmem
    | succ m =>
      rw [underscored_succ]
      exact ih m (Nat.lt_of_succ_lt_succ hm)

/-- The candidates that were passed by are different names of the list. -/
theorem le_length (h : Renames taken k name result) : k ≤ taken.length := by
  have hnodup : ((List.range k).map (underscored · name)).Nodup :=
    List.nodup_range.map (underscored_injective name)
  have hsubset : (List.range k).map (underscored · name) ⊆ taken := by
    intro candidate hcandidate
    obtain ⟨m, hm, rfl⟩ := List.mem_map.mp hcandidate
    exact h.mem_of_lt m (List.mem_range.mp hm)
  have hle := (List.subperm_of_subset hnodup hsubset).length_le
  rwa [List.length_map, List.length_range] at hle

/-- No smaller number of underscores would do. -/
theorem isLeast (h : Renames taken k name result) : IsLeast {n | underscored n name ∉ taken} k := by
  constructor
  · show underscored k name ∉ taken
    rw [← h.eq_underscored]
    exact h.not_mem
  · intro n hn
    by_contra hlt
    exact hn (h.mem_of_lt n (Nat.lt_of_not_le hlt))

end Renames

/-- The search for a fresh name comes to its end. -/
theorem exists_renames (taken : List String) (name : String) :
    ∃ k, Renames taken k name (freshName taken name) := by
  induction name using freshName.induct taken with
  | case1 name hmem ih =>
    obtain ⟨k, hk⟩ := ih
    rw [freshName, if_pos hmem]
    exact ⟨k + 1, .again hmem hk⟩
  | case2 name hfree =>
    rw [freshName, if_neg hfree]
    exact ⟨0, .free hfree⟩

/-- A fresh name is none of the taken ones. -/
theorem freshName_not_mem (taken : List String) (name : String) : freshName taken name ∉ taken := by
  obtain ⟨k, hk⟩ := exists_renames taken name
  exact hk.not_mem

/-- The search for a fresh name ends, and puts no more underscores in front than there are names in
the list. There are as many as the name needs at least to be none of the taken ones. -/
theorem freshName_least (taken : List String) (name : String) :
    ∃ k ≤ taken.length, Renames taken k name (freshName taken name) ∧
      freshName taken name = underscored k name ∧
      IsLeast {n | underscored n name ∉ taken} k := by
  obtain ⟨k, hk⟩ := exists_renames taken name
  exact ⟨k, hk.le_length, hk, hk.eq_underscored, hk.isLeast⟩

/-- Two names in the way, in any order and repeated, and one that is not. -/
example : freshName ["___str", "_int", "__str", "___str"] "__str" = "____str" := by decide +kernel

end Metaobject
