import Metaobject.Proofs.Reflection.Ancestry
import Metaobject.Proofs.Reflection.RecordsInUse
import Metaobject.Proofs.Reflection.Supply

/-!
# Views after memory pressure

A view that is kept works, even if a class that it was made from was unloaded in the meantime.
Memory pressure takes the view back, and making it again needs that class. So memory pressure can
turn a view that works into one that fails.

* `ParentView.supplied_of_needs`: with all classes loaded that a view is made from, it works,
  whatever is kept.
* `ParentView.needs_of_supplied`: where no record in use keeps the view, it needs all of them.
* `ParentView.Supplied.transfer`: a view depends on no other parts of records than the view and the
  parents.
* `Session.view_survives_reclaim_iff`: when memory pressure makes a difference.
-/

namespace Metaobject

/-! ## Records that show the parents -/

namespace ParentView

variable {s : Realm} {v : ParentView} {c : LoadedClass} {d : Option ClassRecord}

theorem mem_parents {p : LoadedClass} (h : p ∈ v.parents c) : p ∈ c.parents := by
  rw [LoadedClass.mem_parents]
  cases v <;> simp only [parents, List.mem_append, Option.mem_toList] at h
  case superclass | methods => exact .inl h
  case declaredInterfaces => exact .inr h
  case allInterfaces | hierarchy => exact h.symm

/-- The parents that the view is made from, each with the record that shows it. -/
def refs (s : Realm) (c : LoadedClass) (d : Option ClassRecord) :
    ParentView → List (LoadedClass × Option RecordNo)
  | superclass | methods => c.superclass.toList.map fun p => (p, s.superRef p d)
  | declaredInterfaces => c.interfaces.zip (s.interfaceRefs c d)
  | allInterfaces | hierarchy =>
    c.interfaces.zip (s.interfaceRefs c d) ++ c.superclass.toList.map fun p => (p, s.superRef p d)

/-- What a view is made from is read off the records that it refers to. -/
theorem sources_eq_map_refs :
    v.sources s c d = (v.refs s c d).map fun x => (x.1, x.2.bind (s.cache.records[·]?)) := by
  have hinterfaces : s.interfaceSources c d =
      (c.interfaces.zip (s.interfaceRefs c d)).map fun x =>
        (x.1, x.2.bind (s.cache.records[·]?)) := by
    rw [Realm.interfaceSources, Realm.interfaceRecords, List.zip_map_right]
    rfl
  have hsuperclass : s.superSources c d =
      (c.superclass.toList.map fun p => (p, s.superRef p d)).map fun x =>
        (x.1, x.2.bind (s.cache.records[·]?)) := by
    rw [List.map_map]
    rfl
  cases v <;> simp only [sources, refs, hinterfaces, hsuperclass, List.map_append]

theorem mem_sources_of_mem_refs {x : LoadedClass × Option RecordNo} (h : x ∈ v.refs s c d) :
    (x.1, x.2.bind (s.cache.records[·]?)) ∈ v.sources s c d := by
  rw [sources_eq_map_refs]
  exact List.mem_map_of_mem h

theorem forall_mem_sources {P : LoadedClass × Option ClassRecord → Prop} :
    (∀ x ∈ v.sources s c d, P x) ↔ ∀ x ∈ v.refs s c d, P (x.1, x.2.bind (s.cache.records[·]?)) := by
  rw [sources_eq_map_refs, List.forall_mem_map]

/-- A view refers to records of parents only. -/
theorem mem_parents_of_mem_refs {x : LoadedClass × Option RecordNo} (h : x ∈ v.refs s c d) :
    x.1 ∈ v.parents c := by
  have hinterfaces (h : x ∈ c.interfaces.zip (s.interfaceRefs c d)) : x.1 ∈ c.interfaces :=
    (List.of_mem_zip h).1
  have hsuperclass (h : x ∈ c.superclass.toList.map fun p => (p, s.superRef p d)) :
    x.1 ∈ c.superclass.toList := by
    obtain ⟨p, hp, rfl⟩ := List.mem_map.mp h
    exact hp
  cases v <;> simp only [refs, List.mem_append] at h <;> simp only [parents, List.mem_append]
  case superclass | methods => exact hsuperclass h
  case declaredInterfaces => exact hinterfaces h
  case allInterfaces | hierarchy => exact h.imp hinterfaces hsuperclass

/-- With everything loaded that the view is made from, it makes no difference what is kept. -/
theorem supplied_of_needs (hloaded : s.space.isLoaded c.no = true)
    (hneeds : ∀ x, v.Needs c x → s.space.isLoaded x.no = true) : v.Supplied s c d := by
  induction c using LoadedClass.parent_induction generalizing d with
  | step c ih =>
    have hparent : ∀ x ∈ v.refs s c d, s.space.isLoaded x.1.no = true :=
      fun x hx => hneeds x.1 (.parent (mem_parents_of_mem_refs hx))
    refine .made hloaded (forall_mem_sources.mpr hparent)
      fun hdeep => forall_mem_sources.mpr fun x hx => ?_
    have hx' := mem_parents_of_mem_refs hx
    exact ih x.1 (mem_parents hx') (hparent x hx) fun y hy => hneeds y (.above hdeep hx' hy)

end ParentView

/-! ## Records in use -/

namespace Realm

/-- The current records are in use, and so are all records that a record in use shows. -/
structure InUse (s : Realm) (used : RecordNo → Prop) : Prop where
  current : ∀ no q, s.cache.infos.find? s.space no = some q → used q
  linked : ∀ (r : RecordNo) e, s.cache.records[r]? = some e → used r → ∀ q ∈ e.links, used q

/-- A class is shown by a record in use that describes it, or by none. -/
def Shown (s : Realm) (used : RecordNo → Prop) (c : LoadedClass) (q : Option RecordNo) : Prop :=
  ∀ r, q = some r → used r ∧ s.cache.Describes r c

variable {classes : List LoadedClass} {s : Realm} {used : RecordNo → Prop} {c : LoadedClass}
  {q : Option RecordNo}

theorem Shown.exists_record (hq : s.Shown used c q) {e : ClassRecord}
    (he : q.bind (s.cache.records[·]?) = some e) :
    ∃ r : RecordNo, s.cache.records[r]? = some e ∧ used r ∧ e.cls = c := by
  obtain ⟨r, rfl, hr⟩ := Option.bind_eq_some_iff.mp he
  obtain ⟨hused, e', he', hcls⟩ := hq r rfl
  obtain rfl : e = e' := Option.some_inj.mp (hr.symm.trans he')
  exact ⟨r, hr, hused, hcls⟩

/-- The current record of a class is shown. -/
theorem shown_current (hpop : Population classes) (hcoherent : s.cache.Coherent classes)
    (hused : s.InUse used) (hc : c ∈ classes) :
    s.Shown used c (s.cache.infos.find? s.space c.no) := by
  intro r hr
  obtain ⟨c', hc', hno⟩ := hcoherent.current c.no r (ClassValue.mem_of_find? hr)
  have hcc' : c' = c := hpop.unique c' (hcoherent.known r c' hc') c hc hno
  exact ⟨hused.current c.no r hr, hcc' ▸ hc'⟩

/-- A record in use shows the superclass by a record in use. -/
theorem shown_superRef (hpop : Population classes) (hcoherent : s.cache.Coherent classes)
    (hused : s.InUse used) (hc : c ∈ classes) (hq : s.Shown used c q) {p : LoadedClass}
    (hp : p ∈ c.superclass) : s.Shown used p (s.superRef p (q.bind (s.cache.records[·]?))) := by
  intro r hr
  rcases Option.or_eq_some_iff.mp hr with hkept | ⟨-, hcurrent⟩
  · -- the record that is kept describes the superclass, as every part of a coherent cache is right
    obtain ⟨e, he, hvalue⟩ := Option.bind_eq_some_iff.mp (Option.join_eq_some_iff.mp hkept)
    obtain ⟨r', hr', hused', rfl⟩ := hq.exists_record he
    have hlink : r ∈ e.links := by simp [ClassRecord.links, hvalue]
    have hrel := (hcoherent.faithful r' e hr').superclass _ hvalue
    rw [Option.mem_def.mp hp] at hrel
    cases hrel with
    | some hdescribes => exact ⟨hused.linked r' e hr' hused' r hlink, hdescribes⟩
  · exact shown_current hpop hcoherent hused (hpop.superclass c hc p hp) r hcurrent

/-- A record in use shows the interfaces by records in use. -/
theorem shown_interfaceRefs (hpop : Population classes) (hcoherent : s.cache.Coherent classes)
    (hused : s.InUse used) (hc : c ∈ classes) (hq : s.Shown used c q) :
    List.Forall₂ (s.Shown used) c.interfaces
      (s.interfaceRefs c (q.bind (s.cache.records[·]?))) := by
  unfold interfaceRefs
  cases hkept : (q.bind (s.cache.records[·]?)).bind (·.declaredInterfaces.value) with
  | none =>
    refine List.forall₂_map_right_iff.mpr (List.forall₂_same.mpr fun p hp => ?_)
    exact shown_current hpop hcoherent hused (hpop.interface c hc p hp)
  | some qs =>
    obtain ⟨e, he, hvalue⟩ := Option.bind_eq_some_iff.mp hkept
    obtain ⟨r', hr', hused', rfl⟩ := hq.exists_record he
    have hrel := (hcoherent.faithful r' e hr').declaredInterfaces qs hvalue
    refine List.forall₂_map_right_iff.mpr
      (List.forall₂_iff_zip.mpr ⟨hrel.length_eq.symm, fun hmem => ?_⟩)
    rintro _ ⟨⟩
    have hlink (r : RecordNo) (hr : r ∈ qs) : r ∈ e.links := by simp [ClassRecord.links, hvalue, hr]
    exact ⟨hused.linked r' e hr' hused' _ (hlink _ (List.of_mem_zip hmem).2),
      List.forall₂_zip hrel.flip hmem⟩

end Realm

namespace ParentView

variable {classes : List LoadedClass} {s : Realm} {used : RecordNo → Prop} {v : ParentView}
  {c : LoadedClass} {q : Option RecordNo}

/-- All parents are shown by records in use. -/
theorem exists_mem_refs (hpop : Population classes) (hcoherent : s.cache.Coherent classes)
    (hused : s.InUse used) (hc : c ∈ classes) (hq : s.Shown used c q) {p : LoadedClass}
    (hp : p ∈ v.parents c) :
    ∃ q', (p, q') ∈ v.refs s c (q.bind (s.cache.records[·]?)) ∧ s.Shown used p q' := by
  have hinterfaces (hp : p ∈ c.interfaces) : ∃ q',
      (p, q') ∈ c.interfaces.zip (s.interfaceRefs c (q.bind (s.cache.records[·]?))) ∧
      s.Shown used p q' := by
    have hall := Realm.shown_interfaceRefs hpop hcoherent hused hc hq
    rw [← List.map_fst_zip (Nat.le_of_eq hall.length_eq)] at hp
    obtain ⟨⟨_, q'⟩, hmem, rfl⟩ := List.mem_map.mp hp
    exact ⟨q', hmem, List.forall₂_zip hall hmem⟩
  have hsuperclass (hp : p ∈ c.superclass.toList) : ∃ q',
      (p, q') ∈ (c.superclass.toList.map fun p =>
        (p, s.superRef p (q.bind (s.cache.records[·]?)))) ∧ s.Shown used p q' :=
    ⟨_, List.mem_map.mpr ⟨p, hp, rfl⟩,
      Realm.shown_superRef hpop hcoherent hused hc hq (Option.mem_toList.mp hp)⟩
  cases v <;> simp only [parents, List.mem_append] at hp <;> simp only [refs, List.mem_append]
  case superclass | methods => exact hsuperclass hp
  case declaredInterfaces => exact hinterfaces hp
  case allInterfaces | hierarchy =>
    rcases hp with hp | hp
    · exact (hinterfaces hp).imp fun _ h => h.imp_left .inl
    · exact (hsuperclass hp).imp fun _ h => h.imp_left .inr

/-- If no record in use keeps the view, it needs everything that it is made from. -/
theorem needs_of_supplied (hpop : Population classes) (hcoherent : s.cache.Coherent classes)
    (hused : s.InUse used)
    (hkeeps : ∀ (r : RecordNo) e, s.cache.records[r]? = some e → used r → v.keeps e = false)
    (hc : c ∈ classes) (hq : s.Shown used c q) (h : v.Supplied s c (q.bind (s.cache.records[·]?))) :
    ∀ x, v.Needs c x → s.space.isLoaded x.no = true := by
  induction c using LoadedClass.parent_induction generalizing q with
  | step c ih =>
    have hkept : v.keptIn (q.bind (s.cache.records[·]?)) = false := by
      cases he : q.bind (s.cache.records[·]?) with
      | none => rfl
      | some e =>
        obtain ⟨r, hr, hused', -⟩ := hq.exists_record he
        exact hkeeps r e hr hused'
    obtain ⟨hparents, hdeep⟩ := (supplied_iff h.isLoaded hkept).mp h
    -- a class that is needed is a parent, or the same view of a parent needs it
    intro x hx
    cases hx with
    | parent hp =>
      obtain ⟨q', hq', -⟩ := exists_mem_refs hpop hcoherent hused hc hq hp
      exact forall_mem_sources.mp hparents _ hq'
    | above hisDeep hp hx =>
      obtain ⟨q', hq', hshown⟩ := exists_mem_refs hpop hcoherent hused hc hq hp
      have hp' := LoadedClass.mem_classes_of_mem_parents hpop hc (mem_parents hp)
      exact ih _ (mem_parents hp) hp' hshown (forall_mem_sources.mp (hdeep hisDeep) _ hq') x hx

end ParentView

/-! ## What memory pressure leaves -/

namespace Lazy

variable {α : Type} {l : Lazy α} {strength : Strength} {p : Pressure}

/-- Reclaiming takes a revocable value back if the pressure is high enough for it. -/
theorem IsRevocable.isComputed_reclaim (h : l.IsRevocable strength) (p : Pressure) :
    (l.reclaim p).isComputed = (!p.reclaims strength && l.isComputed) := by
  rw [isComputed, h.value_reclaim]
  cases p.reclaims strength <;> rfl

theorem value_reclaim_eq_none_or (l : Lazy α) (p : Pressure) :
    (l.reclaim p).value = none ∨ (l.reclaim p).value = l.value := by
  cases hvalue : (l.reclaim p).value with
  | none => exact .inl rfl
  | some v => exact .inr (value_of_reclaim hvalue).symm

end Lazy

/-- A reclaimed record links to no more records. -/
theorem ClassRecord.mem_links_of_reclaim {d : ClassRecord} {p : Pressure} {q : RecordNo}
    (h : q ∈ (d.reclaim p).links) : q ∈ d.links := by
  have hpart {β : Type} (l : Lazy β) (b : β) (list : β → List RecordNo) (hb : list b = [])
      (hq : q ∈ list ((l.reclaim p).value.getD b)) : q ∈ list (l.value.getD b) := by
    rcases l.value_reclaim_eq_none_or p with hnone | hsame
    · rw [hnone, Option.getD_none, hb] at hq
      cases hq
    · rwa [hsame] at hq
  have hlist (l : Lazy (List RecordNo)) := hpart l [] id rfl
  simp only [links, List.mem_append] at h ⊢
  exact h.imp (Or.imp (Or.imp (hlist _) (hpart _ none Option.toList rfl)) (hlist _)) (hlist _)

namespace ParentView

variable {e : ClassRecord} {p : Pressure}

/-- A reclaimed record keeps what the pressure does not reclaim. -/
theorem keeps_reclaim (he : e.IsRevocable) (v : ParentView) (p : Pressure) :
    v.keeps (e.reclaim p) = (!p.reclaims v.strength && v.keeps e) := by
  cases v with
  | superclass => exact he.superclass.isComputed_reclaim p
  | declaredInterfaces => exact he.declaredInterfaces.isComputed_reclaim p
  | methods => exact he.methods.isComputed_reclaim p
  | allInterfaces => exact he.allInterfaces.isComputed_reclaim p
  | hierarchy => exact he.hierarchy.isComputed_reclaim p

/-- Two records, or two missing ones, keep the view alike and show the same parents. -/
structure Matches (v : ParentView) (d e : Option ClassRecord) : Prop where
  kept : v.keptIn e = v.keptIn d
  superclass : e.bind (·.superclass.value) = d.bind (·.superclass.value)
  declaredInterfaces : e.bind (·.declaredInterfaces.value) = d.bind (·.declaredInterfaces.value)

theorem Matches.refl (v : ParentView) (d : Option ClassRecord) : v.Matches d d := ⟨rfl, rfl, rfl⟩

theorem Matches.symm {v : ParentView} {d e : Option ClassRecord} (h : v.Matches d e) :
    v.Matches e d :=
  ⟨h.kept.symm, h.superclass.symm, h.declaredInterfaces.symm⟩

/-- Parents are taken back no earlier than any other view. -/
theorem matches_reclaim {v : ParentView} (he : e.IsRevocable) (hp : p.reclaims v.strength = false) :
    v.Matches (some e) (some (e.reclaim p)) := by
  -- only low pressure spares anything, and it spares all that is soft
  have hsoft : p.reclaims .soft = false := by
    cases p with
    | low => rfl
    | high => cases hp
  refine ⟨?_, ?_, ?_⟩
  · show v.keeps (e.reclaim p) = v.keeps e
    rw [keeps_reclaim he, hp, Bool.not_false, Bool.true_and]
  · show (e.superclass.reclaim p).value = e.superclass.value
    rw [he.superclass.value_reclaim, hsoft]
    rfl
  · show (e.declaredInterfaces.reclaim p).value = e.declaredInterfaces.value
    rw [he.declaredInterfaces.value_reclaim, hsoft]
    rfl

end ParentView

/-- Two realms differ at most in parts of records that make no difference to a view. -/
structure Realm.Matches (v : ParentView) (s t : Realm) : Prop where
  space : t.space = s.space
  infos : t.cache.infos = s.cache.infos
  records : ∀ r : RecordNo, v.Matches (s.cache.records[r]?) (t.cache.records[r]?)

namespace ParentView

variable {s t : Realm} {v : ParentView} {c : LoadedClass} {d e : Option ClassRecord}

/-- Matching records refer to the same records. -/
theorem refs_congr (h : s.Matches v t) (hde : v.Matches d e) : v.refs t c e = v.refs s c d := by
  have hsuperclass (p : LoadedClass) : t.superRef p e = s.superRef p d := by
    rw [Realm.superRef, Realm.superRef, hde.superclass, h.infos, h.space]
  have hinterfaces : t.interfaceRefs c e = s.interfaceRefs c d := by
    rw [Realm.interfaceRefs, Realm.interfaceRefs, hde.declaredInterfaces, h.infos, h.space]
  cases v <;> simp only [refs, hsuperclass, hinterfaces]

theorem Supplied.transfer (h : s.Matches v t) (hde : v.Matches d e) (hs : v.Supplied s c d) :
    v.Supplied t c e := by
  induction hs generalizing e with
  | kept hloaded hkept => exact .kept (h.space ▸ hloaded) (hde.kept.trans hkept)
  | made hloaded hparents _ ih =>
    have hrefs (q : Option RecordNo) :
      v.Matches (q.bind (s.cache.records[·]?)) (q.bind (t.cache.records[·]?)) := by
      cases q with
      | none => exact .refl v none
      | some r => exact h.records r
    refine .made (h.space ▸ hloaded) ?_ fun hdeep => ?_
    · rw [forall_mem_sources, refs_congr h hde, h.space]
      exact forall_mem_sources.mp hparents
    · rw [forall_mem_sources, refs_congr h hde]
      intro x hx
      exact ih hdeep _ (mem_sources_of_mem_refs hx) (hrefs x.2)

/-- Whether a view is supplied only depends on what it matches. -/
theorem supplied_congr (h : s.Matches v t) (r : RecordNo) :
    v.Supplied t c (t.cache.records[r]?) ↔ v.Supplied s c (s.cache.records[r]?) :=
  ⟨.transfer ⟨h.space.symm, h.infos.symm, fun r => (h.records r).symm⟩ (h.records r).symm,
    .transfer h (h.records r)⟩

end ParentView

/-! ## Memory pressure -/

namespace Realm

variable {classes : List LoadedClass} {s : Realm} {held : List RecordNo} {p : Pressure}

/-- The realm after memory pressure. -/
def reclaim (s : Realm) (held : List RecordNo) (p : Pressure) : Realm :=
  ⟨s.space, (s.cache.reclaim held p).1⟩

/-- A record in use is reclaimed where it stands. -/
theorem exists_of_getElem?_reclaim {r : RecordNo} {e : ClassRecord}
    (he : (s.reclaim held p).cache.records[r]? = some e) (hr : r ∈ s.cache.inUse held) :
    ∃ d, s.cache.records[r]? = some d ∧ d.reclaim p = e := by
  rw [reclaim, ReflectionCache.getElem?_reclaim, if_pos hr] at he
  exact Option.map_eq_some_iff.mp he

/-- What was in use stays in use, as far as records still show it. -/
theorem inUse_reclaim (s : Realm) (held : List RecordNo) (p : Pressure) :
    (s.reclaim held p).InUse (· ∈ s.cache.inUse held) where
  current no q hq := by
    rw [reclaim, ReflectionCache.infos_reclaim] at hq
    exact ReflectionCache.mem_inUse_of_find? hq
  linked r e he hr q hq := by
    obtain ⟨d, hd, rfl⟩ := exists_of_getElem?_reclaim he hr
    refine ReflectionCache.mem_inUse_of_link hr ?_
    rw [ReflectionCache.record_of_getElem? hd]
    exact ClassRecord.mem_links_of_reclaim hq

/-- If the pressure takes the view back, no record in use keeps it. -/
theorem not_keeps_reclaim (hcoherent : s.cache.Coherent classes) {v : ParentView}
    (hp : p.reclaims v.strength = true) (r : RecordNo) (e : ClassRecord)
    (he : (s.reclaim held p).cache.records[r]? = some e) (hr : r ∈ s.cache.inUse held) :
    v.keeps e = false := by
  obtain ⟨d, hd, rfl⟩ := exists_of_getElem?_reclaim he hr
  rw [ParentView.keeps_reclaim (hcoherent.faithful r d hd).revocable, hp, Bool.not_true,
    Bool.false_and]

/-- Otherwise nothing changes for the view. -/
theorem matches_reclaim (hcoherent : s.cache.Coherent classes) {v : ParentView}
    (hp : p.reclaims v.strength = false) :
    s.Matches v (s.reclaim held p) where
  space := rfl
  infos := ReflectionCache.infos_reclaim s.cache held p
  records r := by
    rw [reclaim, ReflectionCache.getElem?_reclaim]
    split
    · cases he : s.cache.records[r]? with
      | none => exact .refl v none
      | some e => exact ParentView.matches_reclaim (hcoherent.faithful r e he).revocable hp
    · exact .refl v _

end Realm

namespace ParentView

variable {classes : List LoadedClass} {s : Realm} {held : List RecordNo} {p : Pressure}
  {v : ParentView} {c : LoadedClass} {r : RecordNo}

/-- A view that was taken back needs everything that it is made from. -/
theorem supplied_reclaim_iff_needs (hpop : Population classes)
    (hcoherent : s.cache.Coherent classes) (hcoherent' : (s.reclaim held p).cache.Coherent classes)
    (hr : (s.reclaim held p).cache.Describes r c) (hused : r ∈ s.cache.inUse held)
    (hloaded : s.space.isLoaded c.no = true) (hp : p.reclaims v.strength = true) :
    v.Supplied (s.reclaim held p) c ((s.reclaim held p).cache.records[r]?) ↔
      ∀ x, v.Needs c x → s.space.isLoaded x.no = true := by
  constructor
  · have hshown : (s.reclaim held p).Shown (· ∈ s.cache.inUse held) c (some r) := by
      rintro _ ⟨⟩
      exact ⟨hused, hr⟩
    exact needs_of_supplied hpop hcoherent' (s.inUse_reclaim held p)
      (Realm.not_keeps_reclaim hcoherent hp)
      (hcoherent'.known r c hr) hshown
  · exact supplied_of_needs (s := s.reclaim held p) hloaded

/-- Memory pressure makes a difference if it takes back a view that is supplied, although a class is
missing. -/
theorem supplied_reclaim_iff (hpop : Population classes) (hcoherent : s.cache.Coherent classes)
    (hcoherent' : (s.reclaim held p).cache.Coherent classes)
    (hr : (s.reclaim held p).cache.Describes r c) (hused : r ∈ s.cache.inUse held)
    (hloaded : s.space.isLoaded c.no = true) :
    (v.Supplied s c (s.cache.records[r]?) ↔
      v.Supplied (s.reclaim held p) c ((s.reclaim held p).cache.records[r]?)) ↔
      ¬ (p.reclaims v.strength = true ∧ v.Supplied s c (s.cache.records[r]?) ∧
        ∃ x, v.Needs c x ∧ s.space.isLoaded x.no = false) := by
  cases hp : p.reclaims v.strength with
  | false =>
    refine iff_of_true (supplied_congr (Realm.matches_reclaim hcoherent hp) r).symm ?_
    rintro ⟨⟨⟩, -⟩
  | true =>
    have hneeds := supplied_reclaim_iff_needs hpop hcoherent hcoherent' hr hused hloaded hp
    by_cases hall : ∀ x, v.Needs c x → s.space.isLoaded x.no = true
    · refine iff_of_true (iff_of_true (supplied_of_needs hloaded hall) (hneeds.mpr hall)) ?_
      rintro ⟨-, -, x, hx, hunloaded⟩
      rw [hall x hx] at hunloaded
      cases hunloaded
    · -- the view fails from now on, so it must have failed before if nothing is to change
      have hlost : ¬ v.Supplied (s.reclaim held p) c ((s.reclaim held p).cache.records[r]?) :=
        mt hneeds.mp hall
      have hmissing : ∃ x, v.Needs c x ∧ s.space.isLoaded x.no = false := by
        simpa using hall
      rw [iff_false_right hlost]
      exact not_congr ⟨fun h => ⟨rfl, h, hmissing⟩, fun h => h.2.1⟩

end ParentView

namespace Session

variable {α : Type}

/-- In every state that a session reaches, a view of a loaded class works exactly if it is supplied,
and if it fails, it names a class that was unloaded. Memory pressure makes a difference exactly if
it takes the view back while the view works, although a class that it is made from was unloaded. -/
theorem view_survives_reclaim_iff (backend : ValueBackend) (permits : AccessPolicy)
    (actions : List Action) (v : ParentView) (c : LoadedClass) (r : RecordNo) (held : List RecordNo)
    (p : Pressure) (hr : ((start backend permits : Session α).run actions).cache.Describes r c)
    (hheld : r ∈ held ++ ((start backend permits : Session α).run actions).cache.current)
    (hloaded : ((start backend permits : Session α).run actions).realm.space.isLoaded c.no = true) :
    let s : Session α := (start backend permits).run actions
    let t : Session α := s.reclaim held p
    ((v.Works s.realm c r ↔ v.Works t.realm c r) ↔
      ¬ (p.reclaims v.strength = true ∧ v.Works s.realm c r ∧
        ∃ x, v.Needs c x ∧ s.realm.space.isLoaded x.no = false)) ∧
    (v.Works s.realm c r ↔ v.Supplied s.realm c (s.cache.records[r]?)) ∧
    ∀ u ∈ [s.realm, t.realm], ∀ e u', (v.aspect.view c r).run.run u = (.error e, u') →
      ∃ x ∈ s.classes, s.realm.space.isLoaded x.no = false ∧ e = .classUnloaded x.name := by
  intro s t
  have hs : s.Orderly := (start_orderly backend permits).run actions
  obtain ⟨hcoherent, hgrows⟩ := hs.reclaim_grows held p
  have htrealm : t.realm = s.realm.reclaim held p :=
    World.realm_setRealm (s := s.realm.reclaim held p) hs.cached
  have hrt : (s.realm.reclaim held p).cache.Describes r c := hgrows.describes r c hr
  have hused : r ∈ s.cache.inUse held := (s.cache.inUse_closed held).1 r hheld
  have hworks : v.Works s.realm c r ↔ v.Supplied s.realm c (s.cache.records[r]?) :=
    ParentView.works_iff_supplied hs.population hs.coherent hs.rooted hr
  refine ⟨?_, hworks, ?_⟩
  · rw [hworks, htrealm, ParentView.works_iff_supplied hs.population hcoherent hs.rooted hrt]
    exact ParentView.supplied_reclaim_iff hs.population hs.coherent hcoherent hrt hused hloaded
  · intro u hu e u' hrun
    rcases List.mem_pair.mp hu with rfl | rfl
    · exact ParentView.unloaded_of_fails hs.population hs.coherent hs.rooted hr hrun
    · rw [htrealm] at hrun
      exact ParentView.unloaded_of_fails hs.population hcoherent hs.rooted hrt hrun

/-- `Child` has kept its superclass and its hierarchy, and then `Base` is unloaded. -/
def orphanActions : List Action := [
  .addLoader,
  .define 0 { name := "Base" },
  .define 0 { name := "Child", superclass := some "Base" },
  .describe 2,
  .look 0 .superclass,
  .look 0 .hierarchy,
  .unload 0 "Base"]

/-- High pressure takes the superclass of `Child` back, and then it is missing. -/
theorem view_survives_reclaim_iff_orphan :
    let s : Session Unit := (start .slot fun _ _ => true).run orphanActions
    let child : LoadedClass := (s.cache.record 0).cls
    s.cache.Describes 0 child ∧ 0 ∈ [0] ++ s.cache.current ∧
      s.realm.space.isLoaded child.no = true ∧
      ¬ (ParentView.superclass.Works s.realm child 0 ↔
        ParentView.superclass.Works (s.reclaim [0] .high).realm child 0) := by
  intro s child
  have hr : s.cache.Describes 0 child := ⟨s.cache.record 0, by rfl, rfl⟩
  have hloaded : s.realm.space.isLoaded child.no = true := by decide +kernel
  have hsurvives :=
    view_survives_reclaim_iff .slot (fun _ _ => true) orphanActions .superclass child 0 [0] .high hr
    List.mem_cons_self hloaded
  have hsupplied : ParentView.superclass.Supplied s.realm child (s.cache.records[0]?) :=
    .kept hloaded (by decide +kernel)
  have hmissing : ∃ x, ParentView.superclass.Needs child x ∧
    s.realm.space.isLoaded x.no = false := by
    have hbase : child.superclass.toList.any (fun p => !s.realm.space.isLoaded p.no) = true := by
      decide +kernel
    obtain ⟨base, hmem, hunloaded⟩ := List.any_eq_true.mp hbase
    exact ⟨base, .parent hmem, by simpa using hunloaded⟩
  refine ⟨hr, List.mem_cons_self, hloaded, ?_⟩
  rw [hsurvives.1]
  exact fun h => h ⟨rfl, hsurvives.2.1.mpr hsupplied, hmissing⟩

/-- Low pressure turns the hierarchy of `Child`, which works, into one that fails. -/
theorem hierarchy_lost_under_pressure :
    let s : Session Unit := (start .slot fun _ _ => true).run orphanActions
    let child : LoadedClass := (s.cache.record 0).cls
    s.realm.space.isLoaded child.no = true ∧ ParentView.hierarchy.Works s.realm child 0 ∧
      ¬ ParentView.hierarchy.Works (s.reclaim [0] .low).realm child 0 := by
  intro s child
  exact ⟨by decide +kernel, by decide +kernel, by decide +kernel⟩

end Session

end Metaobject
