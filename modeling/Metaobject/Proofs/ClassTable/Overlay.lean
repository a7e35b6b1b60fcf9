import Metaobject.Proofs.ClassTable.WellFormed

/-!
# Passes that replace classes one by one

A pass goes through the classes and replaces each one. If what it makes of a class does not depend
on the classes that it has replaced before, the table it ends with can be written down at once:
every visited class stands in its new version. In this form the order of the visits is gone.

* `overlay out ids` is the table with the classes `ids` in their new versions.
* `foldlM_overlay`: a pass ends with the overlay, if each of its steps goes from one overlay to the
  next.
-/

namespace Metaobject.ClassTable

/-- The table with each of the classes `ids` in its new version. -/
def overlay (t : ClassTable) (out : ClassDecl → ClassDecl) (ids : List ClassId) : ClassTable :=
  ⟨t.classes.mapIdx fun id c => if id ∈ ids then out c else c⟩

variable {t t' : ClassTable} {out : ClassDecl → ClassDecl} {ids ids' : List ClassId} {id : ClassId}
  {c : ClassDecl}

/-- Two tables are the same if they hold the same class under every number. -/
theorem eq_of_get? (h : ∀ id, t.get? id = t'.get? id) : t = t' := by
  have hclasses : t.classes = t'.classes := List.ext_getElem? h
  cases t
  exact congrArg mk hclasses

/-- An overlay changes the classes with the given numbers and leaves the others. -/
theorem get?_overlay (t : ClassTable) (out : ClassDecl → ClassDecl) (ids : List ClassId)
    (id : ClassId) :
    (t.overlay out ids).get? id = (t.get? id).map fun c => if id ∈ ids then out c else c := by
  simp [overlay, get?, List.getElem?_mapIdx]

@[simp]
theorem size_overlay (t : ClassTable) (out : ClassDecl → ClassDecl) (ids : List ClassId) :
    (t.overlay out ids).size = t.size := by
  simp [overlay, size]

@[simp]
theorem overlay_nil (t : ClassTable) (out : ClassDecl → ClassDecl) : t.overlay out [] = t := by
  apply eq_of_get?
  intro id
  simp [get?_overlay]

/-- Only which classes are replaced matters. -/
theorem overlay_congr (h : ∀ id c, t.get? id = some c → (id ∈ ids ↔ id ∈ ids') ∨ out c = c) :
    t.overlay out ids = t.overlay out ids' := by
  apply eq_of_get?
  intro id
  rw [get?_overlay, get?_overlay]
  cases hget : t.get? id with
  | none => rfl
  | some c =>
    rcases h id c hget with hmem | hsame
    · simp [hmem]
    · simp [hsame]

/-- Changing one more class extends the overlay by its number. -/
theorem set_overlay (hget : t.get? id = some c) (ids : List ClassId) :
    (t.overlay out ids).set id (out c) = t.overlay out (id :: ids) := by
  have hlt : id < t.size := lt_size_of_get? hget
  apply eq_of_get?
  intro j
  rw [get?_set, get?_overlay, get?_overlay]
  by_cases hj : j = id
  · subst hj
    simp [hget, hlt]
  · simp [hj]

/-- A pass ends with every visited class in its new version, if each step puts one class into its
new version whatever others have been put into theirs before. -/
theorem foldlM_overlay {step : ClassTable → ClassId → Except Fault ClassTable}
    (hstep : ∀ done id c, t.get? id = some c →
      step (t.overlay out done) id = .ok ((t.overlay out done).set id (out c)))
    (hids : ∀ id ∈ ids, id < t.size) : ids.foldlM step t = .ok (t.overlay out ids) := by
  -- the induction is over the visits still to come, with those already made as a parameter
  have hfrom : ∀ ids done : List ClassId, (∀ id ∈ ids, id < t.size) →
      ids.foldlM step (t.overlay out done) = .ok (t.overlay out (ids ++ done)) := by
    intro ids
    induction ids with
    | nil => exact fun _ _ => rfl
    | cons id ids ih =>
      intro done hids
      obtain ⟨c, hget⟩ := exists_get?_of_lt (hids id List.mem_cons_self)
      have hrest := ih (id :: done) fun j hj => hids j (List.mem_cons_of_mem _ hj)
      have hsame : t.overlay out (ids ++ id :: done) = t.overlay out (id :: ids ++ done) :=
        overlay_congr fun j _ _ => .inl (by simp [or_left_comm])
      rw [List.foldlM_cons, hstep done id c hget, set_overlay hget, ← hsame]
      exact hrest
  have hall := hfrom ids [] hids
  rwa [overlay_nil, List.append_nil] at hall

end Metaobject.ClassTable
