import Mathlib.Data.List.Forall2
import Metaobject.Proofs.AssociationList
import Metaobject.Proofs.Reflection.Lineage
import Metaobject.Reflection.Residency

/-!
# Coherent caches

A cache is coherent if every part that a record holds is what a computation from the class of the
record would give (`ReflectionCache.Coherent`). Parts that list other records are compared by class:
a record that the cache has forgotten still describes its class.

Coherence survives the loss of parts, of records and of entries, and every change to a record that
keeps the record faithful to its class.
-/

theorem Option.Rel.mono {α β : Type} {p q : α → β → Prop} (h : ∀ a b, p a b → q a b) {a : Option α}
    {b : Option β} (hab : Option.Rel p a b) : Option.Rel q a b := by
  cases hab with
  | none => exact .none
  | some hab => exact .some (h _ _ hab)

theorem Option.Rel.forall₂_toList {α β : Type} {p : α → β → Prop} {a : Option α} {b : Option β}
    (h : Option.Rel p a b) : List.Forall₂ p a.toList b.toList := by
  cases h with
  | some hab => exact .cons hab .nil
  | none => exact .nil

namespace Metaobject

/-! ## Class values -/

namespace ClassValue

variable {α : Type} {v : ClassValue α} {space : ClassSpace} {c d : ClassNo} {x : α}

/-- Of a loaded class, the value is what is stored. -/
theorem find?_of_loaded (h : space.isLoaded c = true) : v.find? space c = v.entries.lookup c :=
  if_pos h

/-- Of an unloaded class, there is no value. -/
theorem find?_eq_none_of_unloaded (h : space.isLoaded c = false) : v.find? space c = none := by
  simp [find?, h]

theorem isLoaded_of_find? (h : v.find? space c = some x) : space.isLoaded c = true := by
  unfold find? at h
  split at h
  · assumption
  · cases h

theorem mem_of_find? (h : v.find? space c = some x) : (c, x) ∈ v.entries := by
  unfold find? at h
  split at h
  · exact List.mem_of_lookup h
  · cases h

/-- Storing a value adds one entry. -/
theorem mem_store {p : ClassNo × α} (h : p ∈ (v.store space c x).entries) :
    p ∈ v.entries ∨ p = (c, x) := by
  unfold store at h
  dsimp only at h
  split at h
  · rcases List.mem_append.mp h with hkept | hnew
    · split at hkept
      · exact .inl hkept
      · exact .inl (List.mem_of_mem_filter hkept)
    · exact .inr (List.mem_singleton.mp hnew)
  · exact .inl h

/-- A stored value is found, and so is every other value that was found before: only values of
unloaded classes are removed. -/
theorem find?_store (hc : space.isLoaded c = true) (d : ClassNo) :
    (v.store space c x).find? space d = (v.find? space d).or (if d = c then some x else none) := by
  by_cases hd : space.isLoaded d = true
  · rw [find?_of_loaded hd, find?_of_loaded hd]
    unfold store
    dsimp only
    rw [if_pos hc, List.lookup_append, List.lookup_cons_eq_ite]
    congr 1
    -- what is swept away on the occasion belongs to unloaded classes, and `d` is loaded
    split
    · rfl
    · exact List.lookup_filter (fun a => by simp [hd]) _
  · have hne : d ≠ c := fun h => hd (h ▸ hc)
    simp [find?, hd, hne]

/-- Unloading a class leaves the values of the others. -/
theorem find?_classUnloaded (h : d ≠ c) : (v.classUnloaded c).find? space d = v.find? space d := by
  unfold classUnloaded
  split
  · have hlookup : (v.entries.filter (·.1 != c)).lookup d = v.entries.lookup d :=
      List.lookup_filter (by intro a; exact bne_iff_ne.mpr h) v.entries
    unfold find?
    rw [hlookup]
  · rfl

/-- Once a class is unloaded, its value is gone. -/
theorem find?_unload (v : ClassValue α) (space : ClassSpace) (c d : ClassNo) :
    (v.classUnloaded c).find? (space.markUnloaded c) d = if d = c then none
      else v.find? space d := by
  by_cases hd : d = c
  · rw [if_pos hd]
    exact find?_eq_none_of_unloaded (by simp [hd])
  · rw [if_neg hd, find?_classUnloaded hd]
    simp [find?, bne_iff_ne.mpr hd]

/-- Removing the value of a class leaves those of the others. -/
theorem find?_remove (v : ClassValue α) (space : ClassSpace) (c d : ClassNo) :
    (v.remove c).2.find? space d = if d = c then none else v.find? space d := by
  unfold remove find?
  rw [List.lookup_filter_bne]
  by_cases hd : d = c
  · rw [if_pos hd, if_pos hd, ite_self]
  · rw [if_neg hd, if_neg hd]

theorem mem_classUnloaded {p : ClassNo × α} (h : p ∈ (v.classUnloaded c).entries) :
    p ∈ v.entries := by
  unfold classUnloaded at h
  split at h
  · exact List.mem_of_mem_filter h
  · exact h

end ClassValue

/-! ## Records -/

/-- A record of the cache describes a class. -/
def ReflectionCache.Describes (k : ReflectionCache) (r : RecordNo) (c : LoadedClass) : Prop :=
  ∃ d, k.records[r]? = some d ∧ d.cls = c

/-- A lazy value of this strength, which can be taken back if it is held. -/
structure Lazy.IsRevocable {α : Type} (l : Lazy α) (strength : Strength) : Prop where
  strength : l.strength = strength
  registered : l.isComputed = true → l.isRegistered = true

namespace Lazy

variable {α : Type} {l : Lazy α} {strength : Strength}

theorem value_of_reclaim {p : Pressure} {v : α} (h : (l.reclaim p).value = some v) :
    l.value = some v := by
  unfold reclaim clear at h
  split at h
  · split at h
    · cases h
    · exact h
  · exact h

/-- Filling a revocable value leaves it revocable. -/
theorem IsRevocable.fill (h : l.IsRevocable strength) (v : α) :
    (l.fill v).IsRevocable strength where
  strength := h.strength
  registered _ := by simp [Lazy.fill, isRegistered]

theorem IsRevocable.reclaim (h : l.IsRevocable strength) (p : Pressure) :
    (l.reclaim p).IsRevocable strength := by
  unfold Lazy.reclaim clear
  split
  · split
    · exact ⟨h.strength, fun hcomputed => absurd hcomputed (by simp [isComputed])⟩
    · exact h
  · exact h

/-- What is held is taken back by the pressure that takes back values of its strength. -/
theorem IsRevocable.value_reclaim (h : l.IsRevocable strength) (p : Pressure) :
    (l.reclaim p).value = if p.reclaims strength then none else l.value := by
  unfold Lazy.reclaim clear isReclaimed
  rw [h.strength]
  cases hp : p.reclaims strength with
  | false => simp
  | true =>
    cases hcomputed : l.isComputed with
    | false => simpa using Option.isSome_eq_false_iff.mp hcomputed
    | true => simp [h.registered hcomputed]

end Lazy

/-- Every part of a record has its strength, and can be taken back if it is held. -/
structure ClassRecord.IsRevocable (d : ClassRecord) : Prop where
  fields : d.fields.IsRevocable .soft
  constructors : d.constructors.IsRevocable .soft
  methods : d.methods.IsRevocable .soft
  declaredInterfaces : d.declaredInterfaces.IsRevocable .soft
  superclass : d.superclass.IsRevocable .soft
  allInterfaces : d.allInterfaces.IsRevocable .weak
  hierarchy : d.hierarchy.IsRevocable .weak

/-- Every part that a record holds is what a computation from its class would give. Records in lists
are told by the classes that they describe. -/
structure ClassRecord.Faithful (describes : RecordNo → LoadedClass → Prop) (d : ClassRecord) :
    Prop where
  fields : ∀ v, d.fields.value = some v → v = d.cls.fieldHandles
  constructors : ∀ v, d.constructors.value = some v → v = d.cls.constructorHandles
  methods : ∀ v, d.methods.value = some v → v = d.cls.methodTable
  superclass : ∀ v, d.superclass.value = some v → Option.Rel describes v d.cls.superclass
  declaredInterfaces : ∀ v, d.declaredInterfaces.value = some v →
    List.Forall₂ describes v d.cls.interfaces
  allInterfaces : ∀ v, d.allInterfaces.value = some v →
    List.Forall₂ describes v d.cls.inheritedInterfaces
  hierarchy : ∀ v, d.hierarchy.value = some v → List.Forall₂ describes v d.cls.ancestors
  distance : ∀ n, d.distance = some n → n = d.cls.depth
  revocable : d.IsRevocable

namespace ClassRecord.Faithful

variable {describes describes' : RecordNo → LoadedClass → Prop} {d : ClassRecord}

/-- A record stays faithful when more records describe their classes. -/
theorem mono (h : ∀ r c, describes r c → describes' r c) (hd : d.Faithful describes) :
    d.Faithful describes' where
  fields := hd.fields
  constructors := hd.constructors
  methods := hd.methods
  superclass v hv := (hd.superclass v hv).mono h
  declaredInterfaces v hv := (hd.declaredInterfaces v hv).imp h
  allInterfaces v hv := (hd.allInterfaces v hv).imp h
  hierarchy v hv := (hd.hierarchy v hv).imp h
  distance := hd.distance
  revocable := hd.revocable

/-- A new record holds nothing yet. -/
theorem new (c : LoadedClass) : ClassRecord.Faithful describes { cls := c } := by
  constructor
  case revocable => constructor <;> exact ⟨rfl, fun h => absurd h (by simp [Lazy.isComputed])⟩
  all_goals intro _ h; cases h

end ClassRecord.Faithful

/-- What memory shortage leaves of a record is still right. -/
theorem ClassRecord.Faithful.reclaim {describes : RecordNo → LoadedClass → Prop} {d : ClassRecord}
    (h : d.Faithful describes) (p : Pressure) : (d.reclaim p).Faithful describes where
  fields v hv := h.fields v (Lazy.value_of_reclaim hv)
  constructors v hv := h.constructors v (Lazy.value_of_reclaim hv)
  methods v hv := h.methods v (Lazy.value_of_reclaim hv)
  superclass v hv := h.superclass v (Lazy.value_of_reclaim hv)
  declaredInterfaces v hv := h.declaredInterfaces v (Lazy.value_of_reclaim hv)
  allInterfaces v hv := h.allInterfaces v (Lazy.value_of_reclaim hv)
  hierarchy v hv := h.hierarchy v (Lazy.value_of_reclaim hv)
  distance := h.distance
  revocable :=
    { fields := h.revocable.fields.reclaim p
      constructors := h.revocable.constructors.reclaim p
      methods := h.revocable.methods.reclaim p
      declaredInterfaces := h.revocable.declaredInterfaces.reclaim p
      superclass := h.revocable.superclass.reclaim p
      allInterfaces := h.revocable.allInterfaces.reclaim p
      hierarchy := h.revocable.hierarchy.reclaim p }

namespace ReflectionCache

variable {k : ReflectionCache} {r q : RecordNo} {c : LoadedClass} {f : ClassRecord → ClassRecord}

theorem record_of_getElem? {d : ClassRecord} (h : k.records[r]? = some d) : k.record r = d := by
  unfold record
  rw [h]
  rfl

theorem Describes.record_cls (h : k.Describes r c) : (k.record r).cls = c := by
  obtain ⟨d, hd, hcls⟩ := h
  rw [record_of_getElem? hd]
  exact hcls

/-! ### Changing one record -/

/-- An update changes one record. -/
theorem getElem?_update (k : ReflectionCache) (r q : RecordNo) (f : ClassRecord → ClassRecord) :
    (k.update r f).records[q]? = if q = r then (k.records[q]?).map f else k.records[q]? := by
  unfold update
  rw [List.getElem?_set]
  by_cases h : r = q
  · subst h
    rw [if_pos rfl, if_pos rfl]
    cases hr : k.records[r]? with
    | none =>
      have hle : k.records.length ≤ r := List.getElem?_eq_none_iff.mp hr
      rw [if_neg (Nat.not_lt.mpr hle)]
      rfl
    | some d =>
      have hlt : r < k.records.length := (List.getElem?_eq_some_iff.mp hr).1
      rw [if_pos hlt, record_of_getElem? hr]
      rfl
  · rw [if_neg h, if_neg (Ne.symm h)]

/-- An update that keeps the class of a record keeps what records describe. -/
theorem describes_update (hcls : ∀ d, (f d).cls = d.cls) :
    (k.update r f).Describes q c ↔ k.Describes q c := by
  unfold Describes
  rw [getElem?_update]
  by_cases h : q = r
  · rw [if_pos h]
    cases k.records[q]? with
    | none => simp
    | some d => simp [hcls]
  · rw [if_neg h]

theorem added_record_update (hadded : ∀ d, (f d).added = d.added) :
    ((k.update r f).record q).added = (k.record q).added := by
  unfold record
  rw [getElem?_update]
  by_cases h : q = r
  · rw [if_pos h]
    cases k.records[q]? with
    | none => rfl
    | some d => exact hadded d
  · rw [if_neg h]

/-! ### Coherence -/

/-- Every record describes a known class and holds only what is right about it, and the cache finds
for a class a record of this class. -/
structure Coherent (classes : List LoadedClass) (k : ReflectionCache) : Prop where
  isOpen : k.isOpen = true
  known : ∀ r c, k.Describes r c → c ∈ classes
  faithful : ∀ (r : RecordNo) (d : ClassRecord), k.records[r]? = some d → d.Faithful k.Describes
  current : ∀ no r, (no, r) ∈ k.infos.entries → ∃ c, k.Describes r c ∧ c.no = no

namespace Coherent

variable {classes : List LoadedClass}

/-- Coherence survives an update that leaves the record faithful. -/
theorem update (h : k.Coherent classes) (hcls : ∀ d, (f d).cls = d.cls)
    (hf : ∀ d, k.records[r]? = some d → (f d).Faithful k.Describes) :
    (k.update r f).Coherent classes where
  isOpen := h.isOpen
  known q c hq := h.known q c ((describes_update hcls).mp hq)
  faithful q d hd := by
    refine .mono (fun q c hq => (describes_update hcls).mpr hq) ?_
    rw [getElem?_update] at hd
    by_cases hq : q = r
    · rw [if_pos hq] at hd
      obtain ⟨d₀, hd₀, rfl⟩ := Option.map_eq_some_iff.mp hd
      exact hf d₀ (hq ▸ hd₀)
    · rw [if_neg hq] at hd
      exact h.faithful q d hd
  current no q hq := by
    obtain ⟨c, hc, hno⟩ := h.current no q hq
    exact ⟨c, (describes_update hcls).mpr hc, hno⟩

/-- Coherence needs no entry: a cache may forget. -/
theorem of_entries (h : k.Coherent classes) {k' : ReflectionCache} (hopen : k'.isOpen = k.isOpen)
    (hrecords : k'.records = k.records) (hentries : ∀ p ∈ k'.infos.entries, p ∈ k.infos.entries) :
    k'.Coherent classes := by
  have hdescribes : k'.Describes = k.Describes := by
    funext r c
    unfold Describes
    rw [hrecords]
  constructor
  · rw [hopen]
    exact h.isOpen
  · rw [hdescribes]
    exact h.known
  · rw [hdescribes, hrecords]
    exact h.faithful
  · rw [hdescribes]
    exact fun no r hr => h.current no r (hentries _ hr)

/-- Coherence survives new classes. -/
theorem mono (h : k.Coherent classes) {classes' : List LoadedClass}
    (hsub : ∀ c ∈ classes, c ∈ classes') :
    k.Coherent classes' where
  isOpen := h.isOpen
  known r c hr := hsub c (h.known r c hr)
  faithful := h.faithful
  current := h.current

end Coherent

end ReflectionCache

end Metaobject
