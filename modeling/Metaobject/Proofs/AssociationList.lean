/-!
# Association lists

Loaders, class values and pools keep their entries in lists of keys and values, and the first entry
for a key counts. The lemmas say what a look-up finds after entries were dropped or changed.
-/

namespace List

variable {κ α : Type} [BEq κ] [LawfulBEq κ] {k k' : κ}

/-- What is found is among the entries. -/
theorem mem_of_lookup {entries : List (κ × α)} {a : α} (h : entries.lookup k = some a) :
    (k, a) ∈ entries := by
  obtain ⟨before, after, hentries, _⟩ := lookup_eq_some_iff.mp h
  rw [hentries]
  exact mem_append_right _ mem_cons_self

/-- The first entry is found under its own key and hides nothing under the others. -/
theorem lookup_cons_eq_ite [DecidableEq κ] (a : α) (entries : List (κ × α)) :
    ((k', a) :: entries).lookup k = if k = k' then some a else entries.lookup k := by
  by_cases hk : k = k'
  · rw [if_pos hk, hk, lookup_cons_self]
  · rw [if_neg hk, lookup_cons, beq_eq_false_iff_ne.mpr hk]

/-- A look-up does not miss what is dropped under other keys. -/
theorem lookup_filter {keep : κ × α → Bool} (h : ∀ a, keep (k, a) = true) (entries : List (κ × α)) :
    (entries.filter keep).lookup k = entries.lookup k := by
  induction entries with
  | nil => rfl
  | cons entry entries ih =>
    obtain ⟨key, a⟩ := entry
    by_cases hkey : k = key
    · subst hkey
      rw [filter_cons_of_pos (h a), lookup_cons_self, lookup_cons_self]
    · have hne : (k == key) = false := beq_eq_false_iff_ne.mpr hkey
      rw [filter_cons, lookup_cons, hne]
      split
      · rw [lookup_cons, hne]
        exact ih
      · exact ih

/-- Without the entries of a key, nothing is found under it. -/
theorem lookup_filter_bne_self (k : κ) (entries : List (κ × α)) :
    (entries.filter (·.1 != k)).lookup k = none := by
  rw [lookup_eq_none_iff]
  intro entry hentry
  have hne : entry.1 ≠ k := bne_iff_ne.mp (mem_filter.mp hentry).2
  exact bne_iff_ne.mpr hne.symm

/-- Leaving out the entries of a key hides this key only. -/
theorem lookup_filter_bne [DecidableEq κ] (k k' : κ) (entries : List (κ × α)) :
    (entries.filter (·.1 != k')).lookup k = if k = k' then none else entries.lookup k := by
  split
  · rename_i hk
    rw [hk, lookup_filter_bne_self]
  · rename_i hk
    exact lookup_filter (by intro a; exact bne_iff_ne.mpr hk) entries

/-- Changing the values changes what is found under each key. -/
theorem lookup_map_snd (f : κ → α → α) (entries : List (κ × α)) :
    (entries.map fun entry => (entry.1, f entry.1 entry.2)).lookup k =
      (entries.lookup k).map (f k) := by
  induction entries with
  | nil => rfl
  | cons entry entries ih =>
    obtain ⟨key, a⟩ := entry
    rw [map_cons, lookup_cons, lookup_cons]
    cases hkey : k == key with
    | true =>
      rw [eq_of_beq hkey]
      rfl
    | false => exact ih

/-- One entry is replaced, if it is there. -/
theorem lookup_replace [DecidableEq κ] {a : α} {f : κ × α → κ × α}
    (hf : ∀ entry, f entry = (entry.1, if entry.1 = k' then a else entry.2))
    (entries : List (κ × α)) :
    (entries.map f).lookup k = if k = k' then (entries.lookup k).map fun _ => a
      else entries.lookup k := by
  rw [map_congr_left fun entry _ => hf entry,
    lookup_map_snd fun key old => if key = k' then a else old]
  split
  · rfl
  · exact Option.map_id'

end List
