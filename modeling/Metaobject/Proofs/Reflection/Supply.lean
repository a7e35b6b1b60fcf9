import Metaobject.Proofs.Reflection.Session

/-!
# When a view works

Some views of a class are made from its parents. A record that keeps such a view answers without
looking at the parents. If it does not, the view is made from the records of the parents, and fails
if a parent was unloaded. So whether a view works depends on the parts that are kept, of the record
and of the records above it: `ParentView.Supplied` says how.

A view that is made changes records. It adds new ones, and it fills parts, but only such as are
supplied, so that whether other views work stays the same (`Realm.Tracks`). `Viewing.Decides` says
that a computation works exactly under a condition on the records it was started with; there is one
rule for each way such computations are built, and one statement for each view. The main statement
is `ParentView.works_iff_supplied`.
-/

namespace Metaobject

/-- The views of a class that are made from its parents. -/
inductive ParentView where
  | superclass
  | declaredInterfaces
  | methods
  | allInterfaces
  | hierarchy
deriving DecidableEq, Repr

namespace ParentView

def aspect : ParentView → Aspect
  | superclass => .superclass
  | declaredInterfaces => .declaredInterfaces
  | methods => .methods
  | allInterfaces => .allInterfaces
  | hierarchy => .hierarchy

/-- How easily the view is taken back. -/
def strength : ParentView → Strength
  | superclass | declaredInterfaces | methods => .soft
  | allInterfaces | hierarchy => .weak

/-- Whether a record keeps the view. -/
def keeps : ParentView → ClassRecord → Bool
  | superclass, d => d.superclass.isComputed
  | declaredInterfaces, d => d.declaredInterfaces.isComputed
  | methods, d => d.methods.isComputed
  | allInterfaces, d => d.allInterfaces.isComputed
  | hierarchy, d => d.hierarchy.isComputed

/-- Whether the parents are asked for the same view. If not, they are only named. -/
def isDeep : ParentView → Bool
  | superclass | declaredInterfaces => false
  | methods | allInterfaces | hierarchy => true

/-- The parents that the view is made from. -/
def parents (c : LoadedClass) : ParentView → List LoadedClass
  | superclass | methods => c.superclass.toList
  | declaredInterfaces => c.interfaces
  | allInterfaces | hierarchy => c.interfaces ++ c.superclass.toList

/-- The classes that the view of a class needs if no view is kept anywhere. -/
inductive Needs (v : ParentView) : LoadedClass → LoadedClass → Prop
  | parent {c p : LoadedClass} : p ∈ v.parents c → Needs v c p
  | above {c p x : LoadedClass} : v.isDeep = true → p ∈ v.parents c → Needs v p x → Needs v c x

end ParentView

namespace Realm

variable (s : Realm)

/-- The current record of a class, if there is one. -/
def currentRecord (no : ClassNo) : Option ClassRecord :=
  (s.cache.infos.find? s.space no).bind (s.cache.records[·]?)

/-- The record through which a class with the record `d` sees its superclass: the one that is kept,
or else the current one. -/
def superRef (p : LoadedClass) (d : Option ClassRecord) : Option RecordNo :=
  (d.bind (·.superclass.value)).join.or (s.cache.infos.find? s.space p.no)

/-- The records through which a class sees its interfaces. -/
def interfaceRefs (c : LoadedClass) (d : Option ClassRecord) : List (Option RecordNo) :=
  (d.bind (·.declaredInterfaces.value)).elim
    (c.interfaces.map fun p => s.cache.infos.find? s.space p.no) (·.map some)

/-- The record that a view of the superclass comes to. -/
def superRecord (p : LoadedClass) (d : Option ClassRecord) : Option ClassRecord :=
  (s.superRef p d).bind (s.cache.records[·]?)

/-- The records that a view of the interfaces comes to. -/
def interfaceRecords (c : LoadedClass) (d : Option ClassRecord) : List (Option ClassRecord) :=
  (s.interfaceRefs c d).map (·.bind (s.cache.records[·]?))

/-- The superclass, with the record that a view comes to. -/
def superSources (c : LoadedClass) (d : Option ClassRecord) :
    List (LoadedClass × Option ClassRecord) :=
  c.superclass.toList.map fun p => (p, s.superRecord p d)

/-- The interfaces, with the records that a view comes to. -/
def interfaceSources (c : LoadedClass) (d : Option ClassRecord) :
    List (LoadedClass × Option ClassRecord) :=
  c.interfaces.zip (s.interfaceRecords c d)

end Realm

namespace ParentView

/-- The parents with the records that the view of a class with the record `d` is made from. -/
def sources (s : Realm) (c : LoadedClass) (d : Option ClassRecord) :
    ParentView → List (LoadedClass × Option ClassRecord)
  | superclass | methods => s.superSources c d
  | declaredInterfaces => s.interfaceSources c d
  | allInterfaces | hierarchy => s.interfaceSources c d ++ s.superSources c d

/-- A record that may not be there yet keeps the view. -/
def keptIn (v : ParentView) (d : Option ClassRecord) : Bool := d.any v.keeps

/-- A class with the record `d` has what it needs for a view: the class is loaded, and the view is
kept, or it can be made from the parents. -/
inductive Supplied (s : Realm) (v : ParentView) : LoadedClass → Option ClassRecord → Prop
  | kept {c : LoadedClass} {d : Option ClassRecord} : s.space.isLoaded c.no = true →
      v.keptIn d = true →
      Supplied s v c d
  | made {c : LoadedClass} {d : Option ClassRecord} : s.space.isLoaded c.no = true →
      (∀ x ∈ v.sources s c d, s.space.isLoaded x.1.no = true) →
      (v.isDeep = true → ∀ x ∈ v.sources s c d, Supplied s v x.1 x.2) → Supplied s v c d

/-- The view works. -/
def Works (v : ParentView) (s : Realm) (c : LoadedClass) (r : RecordNo) : Prop :=
  ∃ t, (v.aspect.view c r).run.run s = (.ok (), t)

theorem works_iff_toBool {v : ParentView} {s : Realm} {c : LoadedClass} {r : RecordNo} :
    v.Works s c r ↔ ((v.aspect.view c r).run.run s).1.toBool = true := by
  unfold Works
  cases hrun : (v.aspect.view c r).run.run s with
  | mk res t =>
    cases res with
    | error e => exact iff_of_false (by rintro ⟨_, ⟨⟩⟩) Bool.false_ne_true
    | ok _ => exact iff_of_true ⟨t, rfl⟩ rfl

instance (v : ParentView) (s : Realm) (c : LoadedClass) (r : RecordNo) :
    Decidable (v.Works s c r) :=
  decidable_of_iff _ works_iff_toBool.symm

end ParentView

namespace ParentView

variable {s : Realm} {v : ParentView} {c : LoadedClass} {d : Option ClassRecord}

/-- A view that is supplied is of a loaded class. -/
theorem Supplied.isLoaded (h : v.Supplied s c d) : s.space.isLoaded c.no = true := by
  cases h with
  | kept hloaded _ => exact hloaded
  | made hloaded _ _ => exact hloaded

/-- What a view that is not kept needs from the parents. -/
theorem supplied_iff (hloaded : s.space.isLoaded c.no = true) (hkept : v.keptIn d = false) :
    v.Supplied s c d ↔ (∀ x ∈ v.sources s c d, s.space.isLoaded x.1.no = true) ∧
      (v.isDeep = true → ∀ x ∈ v.sources s c d, v.Supplied s x.1 x.2) := by
  refine ⟨fun h => ?_, fun h => .made hloaded h.1 h.2⟩
  cases h with
  | kept _ hkept' => exact absurd (hkept'.symm.trans hkept) (by decide)
  | made _ hparents hdeep => exact ⟨hparents, hdeep⟩

/-- A deep view is supplied by the same view of the parents. -/
theorem supplied_iff_of_isDeep (hdeep : v.isDeep = true) (hloaded : s.space.isLoaded c.no = true)
    (hkept : v.keptIn d = false) :
    v.Supplied s c d ↔ ∀ x ∈ v.sources s c d, v.Supplied s x.1 x.2 := by
  rw [supplied_iff hloaded hkept]
  exact ⟨fun h => h.2 hdeep, fun h => ⟨fun x hx => (h x hx).isLoaded, fun _ => h⟩⟩

/-- A view that only names the parents is supplied if they are loaded. -/
theorem supplied_iff_of_not_isDeep (hdeep : v.isDeep = false)
    (hloaded : s.space.isLoaded c.no = true) (hkept : v.keptIn d = false) :
    v.Supplied s c d ↔ ∀ x ∈ v.sources s c d, s.space.isLoaded x.1.no = true := by
  rw [supplied_iff hloaded hkept]
  exact and_iff_left fun hdeep' => absurd (hdeep.symm.trans hdeep') (by decide)

/-- The superclass is shown if it supplies a view. -/
theorem supplied_superclass (hloaded : s.space.isLoaded c.no = true)
    (h : ∀ x ∈ s.superSources c d, v.Supplied s x.1 x.2) : superclass.Supplied s c d :=
  .made hloaded (fun x hx => (h x hx).isLoaded) (by rintro ⟨⟩)

/-- The interfaces are shown if they supply a view. -/
theorem supplied_declaredInterfaces (hloaded : s.space.isLoaded c.no = true)
    (h : ∀ x ∈ s.interfaceSources c d, v.Supplied s x.1 x.2) : declaredInterfaces.Supplied s c d :=
  .made hloaded (fun x hx => (h x hx).isLoaded) (by rintro ⟨⟩)

end ParentView

namespace Realm

variable {s : Realm} {d : Option ClassRecord}

theorem superRecord_of_not_kept (h : ParentView.superclass.keptIn d = false) (p : LoadedClass) :
    s.superRecord p d = s.currentRecord p.no := by
  cases d with
  | none => rfl
  | some e =>
    have hnone : e.superclass.value = none :=
      Option.isSome_eq_false_iff.mp h |> Option.isNone_iff_eq_none.mp
    simp [superRecord, superRef, currentRecord, hnone]

theorem interfaceRecords_of_not_kept (h : ParentView.declaredInterfaces.keptIn d = false)
    (c : LoadedClass) :
    s.interfaceRecords c d = c.interfaces.map fun p => s.currentRecord p.no := by
  cases d with
  | none => simp [interfaceRecords, interfaceRefs, currentRecord]
  | some e =>
    have hnone : e.declaredInterfaces.value = none :=
      Option.isSome_eq_false_iff.mp h |> Option.isNone_iff_eq_none.mp
    simp [interfaceRecords, interfaceRefs, currentRecord, hnone]

theorem map_fst_interfaceSources {c : LoadedClass}
    (h : (s.interfaceRecords c d).length = c.interfaces.length) :
    (s.interfaceSources c d).map (·.1) = c.interfaces :=
  List.map_fst_zip (Nat.le_of_eq h.symm)

/-- The record of the superclass that was found is the one through which the class sees it. -/
theorem forall_superSources {describes : RecordNo → LoadedClass → Prop} {c : LoadedClass}
    {q : Option RecordNo} {P : LoadedClass → Option ClassRecord → Prop}
    (hq : Option.Rel describes q c.superclass)
    (hrecord : ∀ q', q = some q' → ∀ p ∈ c.superclass, s.cache.records[q']? = s.superRecord p d) :
    (∀ p ∈ c.superclass, ∀ q' ∈ q, P p (s.cache.records[q']?)) ↔
      ∀ x ∈ s.superSources c d, P x.1 x.2 := by
  unfold superSources
  cases hp : c.superclass with
  | none => simp
  | some p =>
    rw [hp] at hq
    cases hq with
    | some _ => simp [hrecord _ rfl p hp]

end Realm

/-! ## What looking changes about records -/

namespace Realm

/-- The record `e` has come from the record `d` of the state `s` by looking: it still keeps what was
kept, and what it keeps beyond that was supplied. It shows the parents through the same records. -/
structure TracksRecord (s : Realm) (d : Option ClassRecord) (e : ClassRecord) : Prop where
  kept : ∀ v : ParentView, v.keptIn d = true → v.keeps e = true
  supplied : ∀ v : ParentView, v.keeps e = true → v.keptIn d = true ∨ v.Supplied s e.cls d
  superclass : ∀ q, e.superclass.value = some (some q) → ∀ p ∈ e.cls.superclass,
    s.cache.records[q]? = s.superRecord p d
  declaredInterfaces : ∀ qs, e.declaredInterfaces.value = some qs →
    qs.map (s.cache.records[·]?) = s.interfaceRecords e.cls d

/-- The state `t` has come from the state `s` by looking. -/
structure Tracks (s t : Realm) : Prop where
  grows : s.Grows t
  current : ∀ no q, t.cache.infos.find? t.space no = some q →
    s.cache.records[q]? = s.currentRecord no
  records : ∀ (r : RecordNo) e, t.cache.records[r]? = some e →
    s.TracksRecord (s.cache.records[r]?) e

namespace TracksRecord

variable {s : Realm} {d : Option ClassRecord} {e : ClassRecord}

theorem refl (s : Realm) (e : ClassRecord) : s.TracksRecord (some e) e where
  kept _ h := h
  supplied _ h := .inl h
  superclass q hq p _ := by simp [superRecord, superRef, hq]
  declaredInterfaces qs hqs := by simp [interfaceRecords, interfaceRefs, hqs]

/-- A new record keeps nothing. -/
theorem new (s : Realm) (c : LoadedClass) : s.TracksRecord none { cls := c } where
  kept v h := by cases h
  supplied v h := by cases v <;> cases h
  superclass q hq := by cases hq
  declaredInterfaces qs hqs := by cases hqs

/-- A view that is supplied may be kept. -/
theorem fill {v : ParentView} {e' : ClassRecord} (he : s.TracksRecord d e)
    (hsupplied : v.Supplied s e.cls d) (hcls : e'.cls = e.cls) (hkeeps : v.keeps e' = true)
    (hothers : ∀ w, w ≠ v → w.keeps e' = w.keeps e)
    (hsuperclass : ∀ q, e'.superclass.value = some (some q) → ∀ p ∈ e.cls.superclass,
      s.cache.records[q]? = s.superRecord p d)
    (hinterfaces : ∀ qs, e'.declaredInterfaces.value = some qs →
      qs.map (s.cache.records[·]?) = s.interfaceRecords e.cls d) : s.TracksRecord d e' where
  kept w hw := by
    by_cases hwv : w = v
    · rw [hwv]
      exact hkeeps
    · rw [hothers w hwv]
      exact he.kept w hw
  supplied w hw := by
    rw [hcls]
    by_cases hwv : w = v
    · rw [hwv]
      exact .inr hsupplied
    · rw [hothers w hwv] at hw
      exact he.supplied w hw
  superclass := by
    rw [hcls]
    exact hsuperclass
  declaredInterfaces := by
    rw [hcls]
    exact hinterfaces

end TracksRecord

namespace Tracks

variable {s t : Realm}

theorem refl (s : Realm) : s.Tracks s where
  grows := .refl s
  current no q hq := by rw [currentRecord, hq, Option.bind_some]
  records r e he := by
    rw [he]
    exact .refl s e

theorem isLoaded (h : s.Tracks t) : t.space.isLoaded = s.space.isLoaded := h.grows.isLoaded

/-- Only what members are accessible changes. -/
theorem of_space (h : s.Tracks t) {u : Realm} (hcache : u.cache = t.cache) (hgrows : t.Grows u) :
    s.Tracks u where
  grows := h.grows.trans hgrows
  current no q hq := h.current no q (by rwa [find?_congr hcache hgrows.unloaded] at hq)
  records r e he := h.records r e (by rwa [hcache] at he)

/-- An update that tracks the record tracks the realm. -/
theorem update (h : s.Tracks t) {r : RecordNo} {f : ClassRecord → ClassRecord}
    (hcls : ∀ e, (f e).cls = e.cls) (hadded : ∀ e, (f e).added = e.added)
    (hf : ∀ e, t.cache.records[r]? = some e → s.TracksRecord (s.cache.records[r]?) (f e)) :
    s.Tracks ⟨t.space, t.cache.update r f⟩ where
  grows := h.grows.trans (.update hcls hadded)
  current := h.current
  records q e he := by
    have hupdate := ReflectionCache.getElem?_update t.cache r q f
    rw [show (t.cache.update r f).records[q]? = some e from he] at hupdate
    by_cases hq : q = r
    · rw [if_pos hq] at hupdate
      obtain ⟨e', he', rfl⟩ := Option.map_eq_some_iff.mp hupdate.symm
      rw [hq] at he' ⊢
      exact hf e' he'
    · rw [if_neg hq] at hupdate
      exact h.records q e hupdate.symm

theorem length_le (h : s.Tracks t) : s.cache.records.length ≤ t.cache.records.length := by
  by_contra hlt
  have hlast := List.getElem?_eq_getElem (Nat.lt_of_not_le hlt)
  obtain ⟨e, he, -⟩ := h.grows.describes t.cache.records.length _ ⟨_, hlast, rfl⟩
  have hnone : t.cache.records[t.cache.records.length]? = none :=
    List.getElem?_eq_none (Nat.le_refl _)
  rw [hnone] at he
  cases he

/-- A class without a record gets one that keeps nothing. -/
theorem recorded {classes : List LoadedClass} {c : LoadedClass} (h : s.Tracks t)
    (hcoherent : t.cache.Coherent classes) (hc : t.space.isLoaded c.no = true)
    (hnone : t.cache.infos.find? t.space c.no = none) :
    s.Tracks (Viewing.recorded t c) ∧
      s.cache.records[t.cache.records.length]? = s.currentRecord c.no := by
  have hnew : s.cache.records[t.cache.records.length]? = none := List.getElem?_eq_none h.length_le
  have hcurrent : s.cache.records[t.cache.records.length]? = s.currentRecord c.no := by
    rw [hnew, currentRecord]
    cases hfind : s.cache.infos.find? s.space c.no with
    | none => rfl
    | some q =>
      rw [h.grows.current c.no q hfind] at hnone
      cases hnone
  refine ⟨⟨h.grows.trans (Viewing.grows_recorded hcoherent hc hnone), ?_, ?_⟩, hcurrent⟩
  · intro no q hq
    -- the new record is found for its own class, the old one for every other class
    have hfind : (Viewing.recorded t c).cache.infos.find? (Viewing.recorded t c).space no =
        (t.cache.infos.find? t.space no).or
          (if no = c.no then some t.cache.records.length else none) :=
      ClassValue.find?_store hc no
    rw [hq] at hfind
    cases hold : t.cache.infos.find? t.space no with
    | some q' =>
      rw [hold, Option.some_or, Option.some_inj] at hfind
      exact hfind ▸ h.current no q' hold
    | none =>
      rw [hold, Option.none_or] at hfind
      split at hfind
      · rename_i hno
        cases hfind
        exact hno ▸ hcurrent
      · cases hfind
  · intro r e he
    rcases Viewing.getElem?_recorded he with he | ⟨rfl, rfl⟩
    · exact h.records r e he
    · rw [hnew]
      exact .new s c

end Tracks

end Realm

/-! ## Computations -/

namespace Viewing

variable {α β : Type} {classes : List LoadedClass} {s t : Realm} {c : LoadedClass} {r : RecordNo}

/-- Started in `t`, which has come from `s` by looking, the computation only looks. It works exactly
if `works`, and what it finds satisfies `post`; it fails only because of an unloaded class, which it
names. -/
def Decides (classes : List LoadedClass) (s : Realm) (x : Viewing α) (t : Realm) (works : Prop)
    (post : α → Prop) : Prop :=
  match x.run.run t with
  | (.ok a, u) => t.Grows u ∧ s.Tracks u ∧ works ∧ post a
  | (.error e, u) =>
    t.Grows u ∧ s.Tracks u ∧ ¬ works ∧ ∃ c ∈ classes, s.space.isLoaded c.no = false ∧
      e = .classUnloaded c.name

namespace Decides

variable {x : Viewing α} {f : α → Viewing β} {P Q : Prop} {post : α → Prop} {post' : β → Prop}

theorem pure {a : α} (h : s.Tracks t) (ha : post a) : Decides classes s (Pure.pure a) t True post :=
  ⟨.refl t, h, trivial, ha⟩

theorem congr (h : Decides classes s x t P post) (hP : P ↔ Q) : Decides classes s x t Q post :=
  propext hP ▸ h

/-- A view decides its outcome part by part. -/
theorem bind {found : Realm → α → Prop} (hyields : Yields classes x t False found)
    (hx : Decides classes s x t P post)
    (hf : ∀ a u, u.cache.Coherent classes → t.Grows u → found u a → s.Tracks u → P → post a →
      Decides classes s (f a) u Q post') : Decides classes s (x >>= f) t (P ∧ Q) post' := by
  unfold Decides Yields at *
  rw [run_bind]
  cases hrun : x.run.run t with
  | mk res u =>
    rw [hrun] at hyields hx
    cases res with
    | error e =>
      obtain ⟨hgrows, htracks, hfails, he⟩ := hx
      exact ⟨hgrows, htracks, fun hboth => hfails hboth.1, he⟩
    | ok a =>
      obtain ⟨hgrows, htracks, hP, hpost⟩ := hx
      have hfa := hf a u hyields.1 hgrows hyields.2.2 htracks hP hpost
      dsimp only
      cases hrun' : (f a).run.run u with
      | mk res' w =>
        rw [hrun'] at hfa
        cases res' with
        | error e =>
          obtain ⟨hgrows', htracks', hfails, he⟩ := hfa
          exact ⟨hgrows.trans hgrows', htracks', fun hboth => hfails hboth.2, he⟩
        | ok b =>
          obtain ⟨hgrows', htracks', hQ, hpost'⟩ := hfa
          exact ⟨hgrows.trans hgrows', htracks', ⟨hP, hQ⟩, hpost'⟩

/-- What is found may be left unused. -/
theorem ignore (h : Decides classes s x t P post) :
    Decides classes s (do let _ ← x) t P fun _ => True := by
  unfold Decides at *
  rw [run_bind]
  cases hrun : x.run.run t with
  | mk res u =>
    rw [hrun] at h
    cases res with
    | error e => exact h
    | ok a =>
      obtain ⟨hgrows, htracks, hP, -⟩ := h
      exact ⟨hgrows, htracks, hP, trivial⟩

end Decides

/-- Whether a class can be used is decided by whether it is loaded. -/
theorem ensureUsable_decides (hcoherent : t.cache.Coherent classes) (h : s.Tracks t)
    (hknown : c ∈ classes) :
    Decides classes s (ensureUsable c) t (s.space.isLoaded c.no = true) fun _ => True := by
  unfold Decides
  rw [← h.isLoaded]
  by_cases hc : t.space.isLoaded c.no = true
  · rw [run_ensureUsable_loaded hcoherent.isOpen hc]
    exact ⟨.refl t, h, hc, trivial⟩
  · have hc' : t.space.isLoaded c.no = false := Bool.eq_false_iff.mpr hc
    rw [run_ensureUsable_unloaded hc']
    exact ⟨.refl t, h, hc, c, hknown, hc', rfl⟩

/-- Whether a record can be made is decided by whether the class is loaded. -/
theorem recordOf_decides (hcoherent : t.cache.Coherent classes) (h : s.Tracks t)
    (hknown : c ∈ classes) :
    Decides classes s (recordOf c) t (s.space.isLoaded c.no = true) fun q =>
      s.cache.records[q]? = s.currentRecord c.no := by
  unfold Decides
  rw [← h.isLoaded]
  by_cases hc : t.space.isLoaded c.no = true
  · rw [run_recordOf_loaded hc]
    cases hfind : t.cache.infos.find? t.space c.no with
    | some q => exact ⟨.refl t, h, hc, h.current c.no q hfind⟩
    | none =>
      obtain ⟨hrecorded, hcurrent⟩ := h.recorded hcoherent hc hfind
      exact ⟨grows_recorded hcoherent hc hfind, hrecorded, hc, hcurrent⟩
  · have hc' : t.space.isLoaded c.no = false := Bool.eq_false_iff.mpr hc
    rw [run_recordOf_unloaded hc']
    exact ⟨.refl t, h, hc, c, hknown, hc', rfl⟩

theorem tryWiden_decides (hcoherent : t.cache.Coherent classes) (h : s.Tracks t)
    (owner member : String) (id : MemberId) (m : Modifiers) :
    Decides classes s (tryWiden owner member id m) t True fun _ => True := by
  have hyields : Yields classes (tryWiden owner member id m) t False fun _ _ => True :=
    tryWiden_yields hcoherent owner member id m
  exact ⟨hyields.grows, h.of_space rfl hyields.grows, trivial, trivial⟩

theorem forM_decides {f : α → Viewing Unit} (l : List α) (hcoherent : t.cache.Coherent classes)
    (h : s.Tracks t)
    (hyields : ∀ a t, t.cache.Coherent classes → Yields classes (f a) t False fun _ _ => True)
    (hf : ∀ a t, t.cache.Coherent classes → s.Tracks t → Decides classes s (f a) t True fun _ =>
      True) :
    Decides classes s (l.forM f) t True fun _ => True := by
  induction l generalizing t with
  | nil => exact .pure h trivial
  | cons a l ih =>
    refine .congr (.bind (hyields a t hcoherent) (hf a t hcoherent h) ?_) (and_self_iff)
    exact fun _ u hu _ _ hsu _ _ => ih hu hsu

/-- Whether all records can be made is decided by whether all classes are loaded. -/
theorem mapM_recordOf_decides (hpop : Population classes) (cs : List LoadedClass)
    (hcoherent : t.cache.Coherent classes) (h : s.Tracks t) (hcs : ∀ c ∈ cs, c ∈ classes) :
    Decides classes s (cs.mapM recordOf) t (∀ c ∈ cs, s.space.isLoaded c.no = true) fun qs =>
      qs.map (s.cache.records[·]?) = cs.map fun c => s.currentRecord c.no := by
  induction cs generalizing t with
  | nil => exact .congr (.pure h rfl) (by simp)
  | cons c cs ih =>
    rw [List.mapM_cons]
    simp only [List.forall_mem_cons]
    have hcs' : ∀ d ∈ cs, d ∈ classes := fun d hd => hcs d (List.mem_cons_of_mem c hd)
    refine .bind (recordOf_yields hpop hcoherent (hcs c List.mem_cons_self) False.elim)
      (recordOf_decides hcoherent h (hcs c List.mem_cons_self)) ?_
    intro q u hu _ _ hsu _ hq
    refine .congr (.bind (View.recordsOf_yields hpop cs hu hcs' False.elim) (ih hu hsu hcs') ?_)
      (and_iff_left trivial)
    intro qs w _ _ _ hsw _ hqs
    refine .pure hsw ?_
    rw [List.map_cons, List.map_cons, hq, hqs]

end Viewing

/-! ## Parts of records -/

/-- The view is a part of records. Its value satisfies `content`, which may say through which
records the parents are seen. -/
structure ParentView.HeldIn {α : Type} (v : ParentView) (slot : RecordSlot α)
    (content : Realm → LoadedClass → Option ClassRecord → α → Prop) : Prop where
  cls : ∀ e l, (slot.put e l).cls = e.cls
  added : ∀ e l, (slot.put e l).added = e.added
  keeps : ∀ e, v.keeps e = (slot.get e).isComputed
  sound : ∀ s d e a, s.TracksRecord d e → (slot.get e).value = some a → content s e.cls d a
  fill : ∀ s d e a, s.TracksRecord d e → v.Supplied s e.cls d → content s e.cls d a →
    s.TracksRecord d (slot.put e ((slot.get e).fill a))

namespace ParentView

theorem superclass_heldIn : superclass.HeldIn .superclass fun s c d a =>
    ∀ q, a = some q → ∀ p ∈ c.superclass, s.cache.records[q]? = s.superRecord p d where
  cls _ _ := rfl
  added _ _ := rfl
  keeps _ := rfl
  sound s d e a he ha q hq := he.superclass q (ha.trans (congrArg some hq))
  fill s d e a he hsupplied ha := by
    refine he.fill hsupplied rfl rfl (fun w hw => ?_) (fun q hq => ha q (Option.some_inj.mp hq))
      he.declaredInterfaces
    cases w with
    | superclass => exact absurd rfl hw
    | _ => rfl

theorem declaredInterfaces_heldIn : declaredInterfaces.HeldIn .declaredInterfaces fun s c d qs =>
    qs.map (s.cache.records[·]?) = s.interfaceRecords c d where
  cls _ _ := rfl
  added _ _ := rfl
  keeps _ := rfl
  sound s d e a he ha := he.declaredInterfaces a ha
  fill s d e a he hsupplied ha := by
    refine he.fill hsupplied rfl rfl (fun w hw => ?_) he.superclass
      fun qs hqs => Option.some_inj.mp hqs ▸ ha
    cases w with
    | declaredInterfaces => exact absurd rfl hw
    | _ => rfl

theorem methods_heldIn : methods.HeldIn .methods fun _ _ _ _ => True where
  cls _ _ := rfl
  added _ _ := rfl
  keeps _ := rfl
  sound _ _ _ _ _ _ := trivial
  fill s d e a he hsupplied _ := by
    refine he.fill hsupplied rfl rfl (fun w hw => ?_) he.superclass he.declaredInterfaces
    cases w with
    | methods => exact absurd rfl hw
    | _ => rfl

theorem allInterfaces_heldIn : allInterfaces.HeldIn .allInterfaces fun _ _ _ _ => True where
  cls _ _ := rfl
  added _ _ := rfl
  keeps _ := rfl
  sound _ _ _ _ _ _ := trivial
  fill s d e a he hsupplied _ := by
    refine he.fill hsupplied rfl rfl (fun w hw => ?_) he.superclass he.declaredInterfaces
    cases w with
    | allInterfaces => exact absurd rfl hw
    | _ => rfl

theorem hierarchy_heldIn : hierarchy.HeldIn .hierarchy fun _ _ _ _ => True where
  cls _ _ := rfl
  added _ _ := rfl
  keeps _ := rfl
  sound _ _ _ _ _ _ := trivial
  fill s d e a he hsupplied _ := by
    refine he.fill hsupplied rfl rfl (fun w hw => ?_) he.superclass he.declaredInterfaces
    cases w with
    | hierarchy => exact absurd rfl hw
    | _ => rfl

end ParentView

/-- A kept view is supplied or was kept from the start; one that is made is supplied if it can be
made, and then it may be kept. -/
theorem Viewing.memo_decides {α : Type} {classes : List LoadedClass} {s t : Realm} {c : LoadedClass}
    {r : RecordNo} {v : ParentView} {slot : RecordSlot α}
    {content : Realm → LoadedClass → Option ClassRecord → α → Prop} {compute : Viewing α}
    (hheld : v.HeldIn slot content) (h : s.Tracks t) (hr : t.cache.Describes r c)
    (hloaded : s.space.isLoaded c.no = true)
    (hcompute : v.keptIn (s.cache.records[r]?) = false →
      Decides classes s compute t (v.Supplied s c (s.cache.records[r]?))
      (content s c (s.cache.records[r]?))) :
    Decides classes s (memo slot r compute) t (v.Supplied s c (s.cache.records[r]?))
      (content s c (s.cache.records[r]?)) := by
  obtain ⟨e, he, rfl⟩ := hr
  have hrecord := h.records r e he
  have hread : (record r).run.run t = (.ok e, t) := by
    show (Except.ok (t.cache.record r), t) = _
    rw [ReflectionCache.record_of_getElem? he]
  unfold memo Decides
  rw [run_bind, hread]
  dsimp only
  cases hvalue : (slot.get e).value with
  | some a =>
    -- kept from the start, or filled since then with what was supplied
    have hkeeps : v.keeps e = true := by
      rw [hheld.keeps, Lazy.isComputed, hvalue, Option.isSome_some]
    refine ⟨.refl t, h, ?_, hheld.sound s _ e a hrecord hvalue⟩
    rcases hrecord.supplied v hkeeps with hkept | hsupplied
    · exact .kept hloaded hkept
    · exact hsupplied
  | none =>
    -- looking takes nothing back, so the view was not kept at the start either
    have hkept : v.keptIn (s.cache.records[r]?) = false := by
      rw [← Bool.not_eq_true]
      intro hkept
      have hkeeps := hrecord.kept v hkept
      rw [hheld.keeps, Lazy.isComputed, hvalue] at hkeeps
      cases hkeeps
    have hdecides := hcompute hkept
    unfold Decides at hdecides
    rw [run_bind]
    cases hrun : compute.run.run t with
    | mk res u =>
      rw [hrun] at hdecides
      cases res with
      | error _ => exact hdecides
      | ok a =>
        obtain ⟨hgrows, hu, hsupplied, hcontent⟩ := hdecides
        have hcls (e : ClassRecord) := hheld.cls e ((slot.get e).fill a)
        have hadded (e : ClassRecord) := hheld.added e ((slot.get e).fill a)
        refine ⟨hgrows.trans (.update hcls hadded), hu.update hcls hadded fun e' he' => ?_,
          hsupplied, hcontent⟩
        have hcls : e'.cls = e.cls := hgrows.cls_eq he he'
        exact hheld.fill s _ e' a (hu.records r e' he') (hcls ▸ hsupplied) (hcls ▸ hcontent)

/-! ## Views -/

namespace View

open Viewing

variable {classes : List LoadedClass} {s t : Realm} {c : LoadedClass} {r : RecordNo}

/-- A view starts with a look at its class. -/
theorem usable_decides {α : Type} {x : Viewing α} {v : ParentView} {d : Option ClassRecord}
    {post : α → Prop} (hcoherent : t.cache.Coherent classes) (h : s.Tracks t) (hc : c ∈ classes)
    (hx : ∀ u, u.cache.Coherent classes → t.Grows u → s.Tracks u → s.space.isLoaded c.no = true →
      Decides classes s x u (v.Supplied s c d) post) :
    Decides classes s (do ensureUsable c; x) t (v.Supplied s c d) post := by
  refine .congr
    (.bind (ensureUsable_yields hcoherent False.elim) (ensureUsable_decides hcoherent h hc) ?_)
    (and_iff_right_of_imp ParentView.Supplied.isLoaded)
  exact fun _ u hu htu _ hsu hloaded _ => hx u hu htu hsu hloaded

/-- The view of the superclass works exactly if it is supplied. -/
theorem superclass_decides (hpop : Population classes) (hcoherent : t.cache.Coherent classes)
    (h : s.Tracks t) (hr : t.cache.Describes r c) :
    Decides classes s (superclass c r) t
      (ParentView.superclass.Supplied s c (s.cache.records[r]?)) fun a =>
      ∀ q, a = some q → ∀ p ∈ c.superclass,
        s.cache.records[q]? = s.superRecord p (s.cache.records[r]?) := by
  have hc : c ∈ classes := hcoherent.known r c hr
  unfold superclass
  refine usable_decides hcoherent h hc ?_
  intro u hu htu hsu hloaded
  refine memo_decides ParentView.superclass_heldIn hsu (htu.describes r c hr) hloaded fun hkept =>
    ?_
  rw [propext (ParentView.supplied_iff_of_not_isDeep rfl hloaded hkept)]
  simp only [ParentView.sources, Realm.superSources, Realm.superRecord_of_not_kept hkept]
  cases hp : c.superclass with
  | none => exact .congr (.pure hsu (by rintro q ⟨⟩)) (by simp)
  | some p =>
    have hp' : p ∈ classes := hpop.superclass c hc p hp
    refine .congr (.bind (recordOf_yields hpop hu hp' False.elim) (recordOf_decides hu hsu hp')
      fun q w _ _ _ hsw _ hq => .pure hsw ?_) (by simp)
    rintro _ ⟨⟩ _ ⟨⟩
    exact hq

/-- The view of the declared interfaces works exactly if it is supplied. -/
theorem declaredInterfaces_decides (hpop : Population classes)
    (hcoherent : t.cache.Coherent classes) (h : s.Tracks t) (hr : t.cache.Describes r c) :
    Decides classes s (declaredInterfaces c r) t
      (ParentView.declaredInterfaces.Supplied s c (s.cache.records[r]?))
      fun qs => qs.map (s.cache.records[·]?) = s.interfaceRecords c (s.cache.records[r]?) := by
  have hc : c ∈ classes := hcoherent.known r c hr
  unfold declaredInterfaces
  refine usable_decides hcoherent h hc ?_
  intro u hu htu hsu hloaded
  refine memo_decides ParentView.declaredInterfaces_heldIn hsu (htu.describes r c hr) hloaded
    fun hkept => ?_
  rw [Realm.interfaceRecords_of_not_kept hkept]
  refine .congr (mapM_recordOf_decides hpop c.interfaces hu hsu (hpop.interface c hc)) ?_
  rw [ParentView.supplied_iff_of_not_isDeep rfl hloaded hkept]
  have hfst := Realm.map_fst_interfaceSources (s := s) (c := c) (d := s.cache.records[r]?)
    (by rw [Realm.interfaceRecords_of_not_kept hkept, List.length_map])
  exact (hfst ▸ List.forall_mem_map)

/-- The superclass is asked for a view through the record that shows it. -/
theorem parent_decides {β γ : Type} {v : ParentView} {ofParent : Option RecordNo → Viewing β}
    {rest : β → Viewing γ} {found : Realm → β → Prop} (hpop : Population classes)
    (hcoherent : t.cache.Coherent classes) (h : s.Tracks t) (hr : t.cache.Describes r c)
    (hloaded : s.space.isLoaded c.no = true)
    (hyields : ∀ q u, u.cache.Coherent classes → Option.Rel u.cache.Describes q c.superclass →
      Yields classes (ofParent q) u False found)
    (hparent : ∀ q u, u.cache.Coherent classes → s.Tracks u →
      Option.Rel u.cache.Describes q c.superclass →
      Decides classes s (ofParent q) u
      (∀ p ∈ c.superclass, ∀ q' ∈ q, v.Supplied s p (s.cache.records[q']?)) fun _ => True)
    (hrest : ∀ y u, u.cache.Coherent classes → s.Tracks u →
      Decides classes s (rest y) u True fun _ => True) :
    Decides classes s (do let y ← ofParent (← superclass c r); rest y) t
      (∀ x ∈ s.superSources c (s.cache.records[r]?), v.Supplied s x.1 x.2) fun _ => True := by
  -- the superclass can only supply a view if it is loaded, and then it is shown
  refine .congr
    (.bind (superclass_yields hpop hcoherent hr False.elim) (superclass_decides hpop hcoherent h hr)
    ?_)
    (and_iff_right_of_imp (ParentView.supplied_superclass hloaded))
  intro q u hu _ hq hsu _ hrecord
  refine .congr (.bind (hyields q u hu hq) (hparent q u hu hsu hq) ?_)
    ((and_iff_left trivial).trans (Realm.forall_superSources hq hrecord))
  exact fun y w hw _ _ hsw _ _ => hrest y w hw hsw

mutual

/-- The view of the methods works exactly if it is supplied. -/
theorem methods_decides (hpop : Population classes) :
    ∀ (c : LoadedClass) (r : RecordNo) (t : Realm),
    t.cache.Coherent classes → s.Tracks t → t.cache.Describes r c →
    Decides classes s (methods c r) t
      (ParentView.methods.Supplied s c (s.cache.records[r]?)) fun _ => True
  | ⟨_, _, _, parent, _, _, _, _⟩, r, t, hcoherent, h, hr => by
    have hc := hcoherent.known r _ hr
    rw [methods]
    refine usable_decides hcoherent h hc ?_
    intro u hu htu hsu hloaded
    refine memo_decides ParentView.methods_heldIn hsu (htu.describes r _ hr) hloaded fun hkept => ?_
    refine .congr (.bind (forM_yields _ hu fun m w hw => tryWiden_yields hw _ _ _ _)
      (forM_decides _ hu hsu (fun m w hw => tryWiden_yields hw _ _ _ _)
        fun m w hw hsw => tryWiden_decides hw hsw _ _ _ _) ?_)
      ((and_iff_right trivial).trans (ParentView.supplied_iff_of_isDeep rfl hloaded hkept).symm)
    intro _ w hw huw _ hsw _ _
    exact parent_decides hpop hw hsw ((htu.trans huw).describes r _ hr) hloaded
      (fun q x hx hq => protocolOfParent_yields hpop parent q x hx hq False.elim)
      (fun q x hx hsx hq => protocolOfParent_decides hpop parent q x hx hsx hq)
      (fun _ x _ hsx => .pure hsx trivial)

theorem protocolOfParent_decides (hpop : Population classes) :
    ∀ (p : Option LoadedClass) (q : Option RecordNo)
    (t : Realm), t.cache.Coherent classes → s.Tracks t → Option.Rel t.cache.Describes q p →
    Decides classes s (protocolOfParent p q) t
      (∀ c ∈ p, ∀ r ∈ q, ParentView.methods.Supplied s c (s.cache.records[r]?))
      fun _ => True
  | some c, some r, t, hcoherent, h, .some hr => by
    rw [protocolOfParent]
    exact .congr
      (.bind (methods_yields hpop c r t hcoherent hr False.elim)
      (methods_decides hpop c r t hcoherent h hr)
      fun _ u _ _ _ hsu _ _ => .pure hsu trivial) (by simp)
  | none, none, _, _, h, _ => .congr (.pure h trivial) (by simp)

end

theorem distinct_decides (c : LoadedClass) (rs : List RecordNo) (h : s.Tracks t) :
    Decides classes s (distinct c rs) t True fun _ => True := by
  unfold distinct Decides
  rw [run_bind, run_mapM (g := fun r => ((t.cache.record r).cls.no, r)) (by intro r; rfl)]
  exact ⟨.refl t, h, trivial, trivial⟩

/-- The root is never missing. -/
theorem distinct_top_decides (hpop : Population classes) (c : LoadedClass) (rs : List RecordNo)
    (hcoherent : t.cache.Coherent classes) (h : s.Tracks t)
    (hroot : s.space.isLoaded LoadedClass.root.no = true) :
    Decides classes s (do
      let top ← if c.isInterface then pure [← recordOf .root] else pure []
      distinct c (rs ++ top)) t True fun _ => True := by
  split
  · refine .congr (.bind (recordOf_yields hpop hcoherent hpop.root False.elim)
      (recordOf_decides hcoherent h hpop.root) ?_)
        ((and_iff_left trivial).trans (iff_true_intro hroot))
    exact fun q u _ _ _ hsu _ _ => distinct_decides c _ hsu
  · exact distinct_decides c _ h

/-- Interfaces are asked before the superclass, each through the record that shows it. -/
theorem parents_decides {β : Type} {v : ParentView}
    {ofAll : List RecordNo → Viewing (List RecordNo)}
    {ofParent : Option RecordNo → Viewing (List RecordNo)}
    {rest : List RecordNo → List RecordNo → Viewing β}
    {foundAll found : Realm → List RecordNo → Prop} (hpop : Population classes)
    (hcoherent : t.cache.Coherent classes) (h : s.Tracks t) (hr : t.cache.Describes r c)
    (hloaded : s.space.isLoaded c.no = true)
    (hyieldsAll : ∀ qs u, u.cache.Coherent classes →
      List.Forall₂ u.cache.Describes qs c.interfaces → Yields classes (ofAll qs) u False foundAll)
    (hall : ∀ qs u, u.cache.Coherent classes → s.Tracks u →
      List.Forall₂ u.cache.Describes qs c.interfaces →
      Decides classes s (ofAll qs) u
      (∀ x ∈ c.interfaces.zip (qs.map (s.cache.records[·]?)), v.Supplied s x.1 x.2) fun _ => True)
    (hyields : ∀ q u, u.cache.Coherent classes → Option.Rel u.cache.Describes q c.superclass →
      Yields classes (ofParent q) u False found)
    (hparent : ∀ q u, u.cache.Coherent classes → s.Tracks u →
      Option.Rel u.cache.Describes q c.superclass →
      Decides classes s (ofParent q) u
      (∀ p ∈ c.superclass, ∀ q' ∈ q, v.Supplied s p (s.cache.records[q']?)) fun _ => True)
    (hrest : ∀ xs ys u, u.cache.Coherent classes → s.Tracks u →
      Decides classes s (rest xs ys) u True fun _ => True) :
    Decides classes s (do
      let xs ← ofAll (← declaredInterfaces c r)
      let ys ← ofParent (← superclass c r)
      rest xs ys) t
      (∀ x ∈ s.interfaceSources c (s.cache.records[r]?) ++ s.superSources c (s.cache.records[r]?),
        v.Supplied s x.1 x.2)
      fun _ => True := by
  rw [List.forall_mem_append]
  refine .congr (.bind (declaredInterfaces_yields hpop hcoherent hr False.elim)
    (declaredInterfaces_decides hpop hcoherent h hr) ?_)
    (and_iff_right_of_imp fun hsources => ParentView.supplied_declaredInterfaces hloaded hsources.1)
  intro qs u hu htu hqs hsu _ hrecords
  refine .bind (hyieldsAll qs u hu hqs) (hrecords ▸ hall qs u hu hsu hqs) ?_
  intro xs w hw huw _ hsw _ _
  exact parent_decides hpop hw hsw ((htu.trans huw).describes r c hr) hloaded hyields hparent
    (hrest xs)

mutual

/-- The view of all interfaces works exactly if it is supplied. -/
theorem allInterfaces_decides (hpop : Population classes) :
    ∀ (c : LoadedClass) (r : RecordNo) (t : Realm),
    t.cache.Coherent classes → s.Tracks t → t.cache.Describes r c →
    Decides classes s (allInterfaces c r) t
      (ParentView.allInterfaces.Supplied s c (s.cache.records[r]?)) fun _ => True
  | ⟨_, _, _, parent, interfaces, _, _, _⟩, r, t, hcoherent, h, hr => by
    have hc := hcoherent.known r _ hr
    rw [allInterfaces]
    refine usable_decides hcoherent h hc ?_
    intro u hu htu hsu hloaded
    have hru := htu.describes r _ hr
    refine .congr (.bind (memo_yields RecordSlot.allInterfaces_lawful hu hru ?_)
      (memo_decides ParentView.allInterfaces_heldIn hsu hru hloaded fun hkept => ?_) ?_)
        (and_iff_left trivial)
    · exact parents_yields hpop hu hru False.elim
        (fun qs w hw hqs hl => interfacesOfAll_yields hpop interfaces qs w hw hqs hl)
        (fun q w hw hq hl => interfacesOfParent_yields hpop parent q w hw hq hl)
        (fun _ _ w hw _ hrs => distinct_yields _ hw hrs)
    · rw [propext (ParentView.supplied_iff_of_isDeep rfl hloaded hkept)]
      exact parents_decides hpop hu hsu hru hloaded
        (fun qs w hw hqs => interfacesOfAll_yields hpop interfaces qs w hw hqs False.elim)
        (fun qs w hw hsw hqs => interfacesOfAll_decides hpop interfaces qs w hw hsw hqs)
        (fun q w hw hq => interfacesOfParent_yields hpop parent q w hw hq False.elim)
        (fun q w hw hsw hq => interfacesOfParent_decides hpop parent q w hw hsw hq)
        (fun _ _ w _ hsw => distinct_decides _ _ hsw)
    · intro _ w hw _ _ hsw _ _
      split
      · exact .congr (.bind (recordOf_yields hpop hw hc False.elim) (recordOf_decides hw hsw hc)
          fun _ x _ _ _ hsx _ _ => .pure hsx trivial)
            ((and_iff_left trivial).trans (iff_true_intro hloaded))
      · exact .pure hsw trivial

theorem interfacesOfAll_decides (hpop : Population classes) :
    ∀ (cs : List LoadedClass) (rs : List RecordNo) (t : Realm),
    t.cache.Coherent classes → s.Tracks t → List.Forall₂ t.cache.Describes rs cs →
    Decides classes s (interfacesOfAll cs rs) t
      (∀ x ∈ cs.zip (rs.map (s.cache.records[·]?)), ParentView.allInterfaces.Supplied s x.1 x.2)
        fun _ => True
  | [], [], _, _, h, _ => .congr (.pure h trivial) (by simp)
  | c :: cs, r :: rs, t, hcoherent, h, .cons hr hrs => by
    rw [interfacesOfAll, List.map_cons, List.zip_cons_cons, List.forall_mem_cons]
    refine .bind (allInterfaces_yields hpop c r t hcoherent hr False.elim)
      (allInterfaces_decides hpop c r t hcoherent h hr) ?_
    intro _ u hu htu _ hsu _ _
    exact .congr (.bind (interfacesOfAll_yields hpop cs rs u hu (hrs.imp htu.describes) False.elim)
      (interfacesOfAll_decides hpop cs rs u hu hsu (hrs.imp htu.describes))
      fun _ w _ _ _ hsw _ _ => .pure hsw trivial) (and_iff_left trivial)

theorem interfacesOfParent_decides (hpop : Population classes) :
    ∀ (p : Option LoadedClass) (q : Option RecordNo)
    (t : Realm), t.cache.Coherent classes → s.Tracks t → Option.Rel t.cache.Describes q p →
    Decides classes s (interfacesOfParent p q) t
      (∀ c ∈ p, ∀ r ∈ q, ParentView.allInterfaces.Supplied s c (s.cache.records[r]?)) fun _ => True
  | some c, some r, t, hcoherent, h, .some hr =>
    .congr (allInterfaces_decides hpop c r t hcoherent h hr) (by simp)
  | none, none, _, _, h, _ => .congr (.pure h trivial) (by simp)

end

mutual

/-- The hierarchy works exactly if it is supplied. -/
theorem hierarchy_decides (hpop : Population classes)
    (hroot : s.space.isLoaded LoadedClass.root.no = true) :
    ∀ (c : LoadedClass) (r : RecordNo) (t : Realm),
    t.cache.Coherent classes → s.Tracks t → t.cache.Describes r c →
    Decides classes s (hierarchy c r) t
      (ParentView.hierarchy.Supplied s c (s.cache.records[r]?)) fun _ => True
  | ⟨_, _, _, parent, interfaces, _, _, _⟩, r, t, hcoherent, h, hr => by
    have hc := hcoherent.known r _ hr
    rw [hierarchy]
    refine usable_decides hcoherent h hc ?_
    intro u hu htu hsu hloaded
    have hru := htu.describes r _ hr
    refine .congr (.bind (memo_yields RecordSlot.hierarchy_lawful hu hru ?_)
      (memo_decides ParentView.hierarchy_heldIn hsu hru hloaded fun hkept => ?_) ?_)
        (and_iff_left trivial)
    · exact parents_yields hpop hu hru False.elim
        (fun qs w hw hqs hl => hierarchyOfAll_yields hpop interfaces qs w hw hqs hl)
        (fun q w hw hq hl => hierarchyOfParent_yields hpop parent q w hw hq hl)
        (fun _ _ w hw _ hrs => distinct_top_yields hpop _ hw hrs False.elim)
    · rw [propext (ParentView.supplied_iff_of_isDeep rfl hloaded hkept)]
      exact parents_decides hpop hu hsu hru hloaded
        (fun qs w hw hqs => hierarchyOfAll_yields hpop interfaces qs w hw hqs False.elim)
        (fun qs w hw hsw hqs => hierarchyOfAll_decides hpop hroot interfaces qs w hw hsw hqs)
        (fun q w hw hq => hierarchyOfParent_yields hpop parent q w hw hq False.elim)
        (fun q w hw hsw hq => hierarchyOfParent_decides hpop hroot parent q w hw hsw hq)
        (fun _ _ w hw hsw => distinct_top_decides hpop _ _ hw hsw hroot)
    · intro _ w hw _ _ hsw _ _
      exact .congr (.bind (recordOf_yields hpop hw hc False.elim) (recordOf_decides hw hsw hc)
        fun _ x _ _ _ hsx _ _ => .pure hsx trivial)
          ((and_iff_left trivial).trans (iff_true_intro hloaded))

theorem hierarchyOfAll_decides (hpop : Population classes)
    (hroot : s.space.isLoaded LoadedClass.root.no = true) :
    ∀ (cs : List LoadedClass) (rs : List RecordNo) (t : Realm),
    t.cache.Coherent classes → s.Tracks t → List.Forall₂ t.cache.Describes rs cs →
    Decides classes s (hierarchyOfAll cs rs) t
      (∀ x ∈ cs.zip (rs.map (s.cache.records[·]?)), ParentView.hierarchy.Supplied s x.1 x.2)
        fun _ => True
  | [], [], _, _, h, _ => .congr (.pure h trivial) (by simp)
  | c :: cs, r :: rs, t, hcoherent, h, .cons hr hrs => by
    rw [hierarchyOfAll, List.map_cons, List.zip_cons_cons, List.forall_mem_cons]
    refine .bind (hierarchy_yields hpop c r t hcoherent hr False.elim)
      (hierarchy_decides hpop hroot c r t hcoherent h hr) ?_
    intro _ u hu htu _ hsu _ _
    exact .congr (.bind (hierarchyOfAll_yields hpop cs rs u hu (hrs.imp htu.describes) False.elim)
      (hierarchyOfAll_decides hpop hroot cs rs u hu hsu (hrs.imp htu.describes))
      fun _ w _ _ _ hsw _ _ => .pure hsw trivial) (and_iff_left trivial)

theorem hierarchyOfParent_decides (hpop : Population classes)
    (hroot : s.space.isLoaded LoadedClass.root.no = true) :
    ∀ (p : Option LoadedClass) (q : Option RecordNo) (t : Realm),
    t.cache.Coherent classes → s.Tracks t → Option.Rel t.cache.Describes q p →
    Decides classes s (hierarchyOfParent p q) t
      (∀ c ∈ p, ∀ r ∈ q, ParentView.hierarchy.Supplied s c (s.cache.records[r]?)) fun _ => True
  | some c, some r, t, hcoherent, h, .some hr =>
    .congr (hierarchy_decides hpop hroot c r t hcoherent h hr) (by simp)
  | none, none, _, _, h, _ => .congr (.pure h trivial) (by simp)

end

end View

namespace ParentView

open View

variable {classes : List LoadedClass} {s : Realm} {v : ParentView} {c : LoadedClass} {r : RecordNo}

/-- Each of the views works exactly if it is supplied. -/
theorem view_decides (hpop : Population classes) (hcoherent : s.cache.Coherent classes)
    (hroot : s.space.isLoaded LoadedClass.root.no = true) (hr : s.cache.Describes r c) :
    Viewing.Decides classes s (v.aspect.view c r) s (v.Supplied s c (s.cache.records[r]?)) fun _ =>
      True := by
  have hs : s.Tracks s := .refl s
  cases v with
  | superclass => exact (superclass_decides hpop hcoherent hs hr).ignore
  | declaredInterfaces => exact (declaredInterfaces_decides hpop hcoherent hs hr).ignore
  | methods => exact (methods_decides hpop c r s hcoherent hs hr).ignore
  | allInterfaces => exact (allInterfaces_decides hpop c r s hcoherent hs hr).ignore
  | hierarchy => exact (hierarchy_decides hpop hroot c r s hcoherent hs hr).ignore

/-- A view works exactly if it is kept, or can be made from what the records above keep. -/
theorem works_iff_supplied (hpop : Population classes) (hcoherent : s.cache.Coherent classes)
    (hroot : s.space.isLoaded LoadedClass.root.no = true) (hr : s.cache.Describes r c) :
    v.Works s c r ↔ v.Supplied s c (s.cache.records[r]?) := by
  have hdecides := view_decides (v := v) hpop hcoherent hroot hr
  unfold Viewing.Decides at hdecides
  unfold Works
  cases hrun : (v.aspect.view c r).run.run s with
  | mk res t =>
    rw [hrun] at hdecides
    cases res with
    | error e => exact iff_of_false (by rintro ⟨_, ⟨⟩⟩) hdecides.2.2.1
    | ok a => exact iff_of_true ⟨t, rfl⟩ hdecides.2.2.1

/-- A view that fails names an unloaded class. -/
theorem unloaded_of_fails (hpop : Population classes) (hcoherent : s.cache.Coherent classes)
    (hroot : s.space.isLoaded LoadedClass.root.no = true) (hr : s.cache.Describes r c)
    {e : ReflectionError} {t : Realm} (hrun : (v.aspect.view c r).run.run s = (.error e, t)) :
    ∃ x ∈ classes, s.space.isLoaded x.no = false ∧ e = .classUnloaded x.name := by
  have hdecides := view_decides (v := v) hpop hcoherent hroot hr
  unfold Viewing.Decides at hdecides
  rw [hrun] at hdecides
  exact hdecides.2.2.2

end ParentView

end Metaobject
