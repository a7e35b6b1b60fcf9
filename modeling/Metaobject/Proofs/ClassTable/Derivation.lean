import Mathlib.Algebra.BigOperators.Group.Finset.Basic
import Mathlib.Logic.Relation
import Metaobject.ClassTable.Ancestors
import Metaobject.Proofs.Worklist

/-!
# What the subtype search decides

`ClassTable.Derives` is the subtype order of a class table: the reflexive and transitive closure of
the parent relation. The search of `ClassTable.isDerivedFrom` decides it on every table, with cycles
and absent classes too.

* `derives_of_search`: what the search finds is derived from.
* `search_of_derives`: the search finds what is derived from, in one step per pending class and per
  unused link.
* `isDerivedFrom_iff`: the fuel of `isDerivedFrom` is enough for that.
-/

namespace Metaobject

/-- The parents of a class are its superclass and its interfaces, as far as they are bound. -/
theorem ClassDecl.mem_parentIds {c : ClassDecl} {id : ClassId} :
    id ∈ c.parentIds ↔ ∃ parent ∈ c.superclass.toList ++ c.interfaces,
      parent.classId? = some id := by
  cases hp : c.superclass <;> simp [parentIds, superId?, hp]

namespace ClassTable

variable {t : ClassTable} {goal : ClassId} {pending seen : List ClassId}

/-- The first class reaches the second through parents. -/
def Derives (t : ClassTable) : ClassId → ClassId → Prop :=
  Relation.ReflTransGen fun sub sup => sup ∈ t.parentsOf sub

/-- The parents are read off the class. -/
theorem parentsOf_of_get? {id : ClassId} {c : ClassDecl} (h : t.get? id = some c) :
    t.parentsOf id = c.parentIds := by
  simp [parentsOf, h]

/-! ## The search finds only what is there -/

/-- What the search finds, one of the pending classes derives from. -/
theorem derives_of_search {fuel : Nat} (h : t.search goal fuel pending seen = true) :
    ∃ id ∈ pending, t.Derives id goal := by
  induction fuel generalizing pending seen with
  | zero => cases h
  | succ fuel ih =>
    cases pending with
    | nil => cases h
    | cons id pending =>
      unfold search at h
      by_cases hgoal : id = goal
      · exact ⟨id, List.mem_cons_self, hgoal ▸ .refl⟩
      rw [if_neg hgoal] at h
      by_cases hseen : id ∈ seen
      · rw [if_pos hseen] at h
        obtain ⟨found, hfound, hderives⟩ := ih h
        exact ⟨found, List.mem_cons_of_mem _ hfound, hderives⟩
      · rw [if_neg hseen] at h
        obtain ⟨found, hfound, hderives⟩ := ih h
        rcases List.mem_append.mp hfound with hparent | hpending
        · exact ⟨id, List.mem_cons_self, .head hparent hderives⟩
        · exact ⟨found, List.mem_cons_of_mem _ hpending, hderives⟩

/-! ## The search finds what is there -/

/-- The classes expanded so far are not the goal, and their parents are expanded or pending. -/
def Expanded (t : ClassTable) (goal : ClassId) (pending seen : List ClassId) : Prop :=
  ∀ id ∈ seen, id ≠ goal ∧ ∀ parent ∈ t.parentsOf id, parent ∈ seen ∨ parent ∈ pending

/-- A way from an expanded class to the goal leads through a pending class. -/
theorem Expanded.exists_pending (h : t.Expanded goal pending seen) {id : ClassId} (hid : id ∈ seen)
    (hderives : t.Derives id goal) : ∃ next ∈ pending, t.Derives next goal := by
  induction hderives using Relation.ReflTransGen.head_induction_on with
  | refl => exact absurd rfl (h goal hid).1
  | @head sub parent hlink hrest ih =>
    rcases (h sub hid).2 parent hlink with hseen | hpending
    · exact ih hseen
    · exact ⟨parent, hpending, hrest⟩

/-- A class that has been expanded need not stay pending. -/
theorem Expanded.drop {id : ClassId} (h : t.Expanded goal (id :: pending) seen) (hid : id ∈ seen) :
    t.Expanded goal pending seen := by
  intro sub hsub
  refine ⟨(h sub hsub).1, ?_⟩
  intro parent hparent
  rcases (h sub hsub).2 parent hparent with hseen | hpending
  · exact .inl hseen
  · rcases List.mem_cons.mp hpending with rfl | hrest
    · exact .inl hid
    · exact .inr hrest

/-- A class is expanded by making its parents pending. -/
theorem Expanded.expand {id : ClassId} (h : t.Expanded goal (id :: pending) seen)
    (hid : id ≠ goal) : t.Expanded goal (t.parentsOf id ++ pending) (id :: seen) := by
  intro sub hsub
  rcases List.mem_cons.mp hsub with rfl | hsub
  · refine ⟨hid, ?_⟩
    intro parent hparent
    exact .inr (List.mem_append_left _ hparent)
  · refine ⟨(h sub hsub).1, ?_⟩
    intro parent hparent
    rcases (h sub hsub).2 parent hparent with hseen | hpending
    · exact .inl (List.mem_cons_of_mem _ hseen)
    · rcases List.mem_cons.mp hpending with rfl | hrest
      · exact .inl List.mem_cons_self
      · exact .inr (List.mem_append_right _ hrest)

/-- The number of links from classes that are not expanded yet. -/
def linksBeyond (t : ClassTable) (seen : List ClassId) : Nat :=
  ∑ id ∈ Finset.range t.size \ seen.toFinset, (t.parentsOf id).length

/-- To expand a class uses up its links. -/
theorem linksBeyond_cons {id : ClassId} (hid : id ∉ seen) :
    (t.parentsOf id).length + t.linksBeyond (id :: seen) = t.linksBeyond seen := by
  refine Worklist.linksBeyond_cons t.parentsOf hid fun hbeyond => ?_
  have habsent : t.get? id = none := t.get?_eq_none_iff.mpr hbeyond
  simp [parentsOf, habsent]

theorem linksBeyond_nil (t : ClassTable) :
    t.linksBeyond [] = (t.classes.flatMap (·.parentIds)).length := by
  refine Worklist.linksBeyond_nil t.classes (·.parentIds) fun id => ?_
  cases hc : t.classes[id]? <;> simp [parentsOf, get?, hc]

/-- If a pending class derives from the goal, the search finds the goal. Every step takes a class
off the pending ones, and puts at most the links of a new class there. -/
theorem search_of_derives {fuel : Nat} (hexpanded : t.Expanded goal pending seen)
    (hpending : ∃ id ∈ pending, t.Derives id goal)
    (hfuel : pending.length + t.linksBeyond seen ≤ fuel) :
    t.search goal fuel pending seen = true := by
  induction fuel generalizing pending seen with
  | zero =>
    obtain ⟨id, hid, -⟩ := hpending
    have hpos := List.length_pos_of_mem hid
    omega
  | succ fuel ih =>
    cases pending with
    | nil => simp at hpending
    | cons id pending =>
      unfold search
      by_cases hgoal : id = goal
      · rw [if_pos hgoal]
      rw [if_neg hgoal]
      rw [List.length_cons] at hfuel
      obtain ⟨found, hfound, hderives⟩ := hpending
      by_cases hseen : id ∈ seen
      · rw [if_pos hseen]
        refine ih (hexpanded.drop hseen) ?_ (by omega)
        -- where the class with a way to the goal is the one taken now, that way leaves the seen
        -- classes through a pending one
        rcases List.mem_cons.mp hfound with rfl | hrest
        · exact (hexpanded.drop hseen).exists_pending hseen hderives
        · exact ⟨found, hrest, hderives⟩
      · rw [if_neg hseen]
        have hlinks := linksBeyond_cons (t := t) hseen
        refine ih (hexpanded.expand hgoal) ?_ (by rw [List.length_append]; omega)
        rcases List.mem_cons.mp hfound with rfl | hrest
        · exact (hexpanded.expand hgoal).exists_pending List.mem_cons_self hderives
        · exact ⟨found, List.mem_append_right _ hrest, hderives⟩

/-- A class counts as derived from another one exactly if links lead there. -/
theorem isDerivedFrom_iff {sub sup : ClassId} :
    t.isDerivedFrom sub sup = true ↔ t.Derives sub sup := by
  constructor
  · intro h
    obtain ⟨id, hid, hderives⟩ := derives_of_search h
    rwa [List.mem_singleton.mp hid] at hderives
  · intro h
    have hstart : t.Expanded sup [sub] [] := by
      intro id hid
      cases hid
    refine search_of_derives hstart ⟨sub, List.mem_cons_self, h⟩ ?_
    rw [linksBeyond_nil, searchBound, List.length_singleton]
    omega

end ClassTable

end Metaobject
