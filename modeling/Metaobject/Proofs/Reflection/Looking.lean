import Metaobject.Proofs.Reflection.Coherence

/-!
# Looking at classes

A computation that looks at classes may add records, fill parts of records and make members
accessible. It keeps the cache coherent and changes nothing that a resolved call depends on
(`Realm.Grows`), also when it fails. `Viewing.Yields` says this together with what the computation
finds and when it has to succeed; it has one rule for each way such computations are built.
-/

namespace Metaobject

/-! ## What looking leaves as it was -/

/-- The methods that were added to a class at run time, as far as its current record knows them. -/
def Realm.addedTo (s : Realm) (no : ClassNo) : List MethodHandle :=
  (s.cache.infos.find? s.space no).elim [] fun r => (s.cache.record r).added

/-- Nothing was forgotten from one state to the next, and no class changed. -/
structure Realm.Grows (s t : Realm) : Prop where
  next : t.space.next = s.space.next
  unloaded : t.space.unloaded = s.space.unloaded
  addedMethods : t.space.addedMethods = s.space.addedMethods
  changes : t.cache.changes = s.cache.changes
  describes : ∀ r c, s.cache.Describes r c → t.cache.Describes r c
  added : ∀ no, s.space.isLoaded no = true → t.addedTo no = s.addedTo no
  current : ∀ no r, s.cache.infos.find? s.space no = some r →
    t.cache.infos.find? t.space no = some r
  /-- A new record is the current one of its class. -/
  new : ∀ r c, t.cache.Describes r c → s.cache.Describes r c ∨
    t.cache.infos.find? t.space c.no = some r

theorem ClassSpace.isLoaded_congr {s t : ClassSpace} (h : t.unloaded = s.unloaded) :
    t.isLoaded = s.isLoaded := by
  funext no
  unfold isLoaded
  rw [h]

theorem Realm.find?_congr {s t : Realm} (hcache : t.cache = s.cache)
    (hunloaded : t.space.unloaded = s.space.unloaded) (no : ClassNo) :
    t.cache.infos.find? t.space no = s.cache.infos.find? s.space no := by
  unfold ClassValue.find?
  rw [ClassSpace.isLoaded_congr hunloaded, hcache]

theorem Realm.addedTo_congr {s t : Realm} (hcache : t.cache = s.cache)
    (hunloaded : t.space.unloaded = s.space.unloaded) (no : ClassNo) :
    t.addedTo no = s.addedTo no := by
  unfold addedTo
  rw [find?_congr hcache hunloaded, hcache]

namespace Realm.Grows

variable {s t u : Realm} {c : LoadedClass} {r : RecordNo} {f : ClassRecord → ClassRecord}

theorem refl (s : Realm) : s.Grows s :=
  ⟨rfl, rfl, rfl, rfl, fun _ _ h => h, fun _ _ => rfl, fun _ _ h => h, fun _ _ h => .inl h⟩

theorem isLoaded (h : s.Grows t) : t.space.isLoaded = s.space.isLoaded :=
  ClassSpace.isLoaded_congr h.unloaded

theorem trans (h : s.Grows t) (h' : t.Grows u) : s.Grows u where
  next := h'.next.trans h.next
  unloaded := h'.unloaded.trans h.unloaded
  addedMethods := h'.addedMethods.trans h.addedMethods
  changes := h'.changes.trans h.changes
  describes r c hr := h'.describes r c (h.describes r c hr)
  added no hno := by
    have hno' : t.space.isLoaded no = true := by rw [h.isLoaded]; exact hno
    rw [h'.added no hno', h.added no hno]
  current no r hr := h'.current no r (h.current no r hr)
  new r c hr := by
    rcases h'.new r c hr with hr | hcurrent
    · exact (h.new r c hr).imp_right (h'.current c.no r)
    · exact .inr hcurrent

/-- A record keeps its class. -/
theorem cls_eq {d e : ClassRecord} (h : s.Grows t) (hd : s.cache.records[r]? = some d)
    (he : t.cache.records[r]? = some e) : e.cls = d.cls := by
  obtain ⟨e', he', hcls⟩ := h.describes r d.cls ⟨d, hd, rfl⟩
  rw [he] at he'
  cases he'
  exact hcls

/-- Families stay while a realm grows. -/
theorem hasFamily (h : s.Grows t) (hc : s.space.HasFamily c) : t.space.HasFamily c := by
  intro no hno
  rw [h.isLoaded]
  exact hc no hno

/-- Accessibility of members is nobody's concern here. -/
theorem of_space (hcache : t.cache = s.cache) (hnext : t.space.next = s.space.next)
    (hunloaded : t.space.unloaded = s.space.unloaded)
    (hadded : t.space.addedMethods = s.space.addedMethods) : s.Grows t := by
  refine ⟨hnext, hunloaded, hadded, ?_, ?_, fun no _ => addedTo_congr hcache hunloaded no, ?_, ?_⟩
  · rw [hcache]
  · rw [hcache]
    exact fun _ _ h => h
  · intro no r hr
    rw [find?_congr hcache hunloaded]
    exact hr
  · rw [hcache]
    exact fun _ _ h => .inl h

/-- An update that keeps classes and added methods lets the realm grow. -/
theorem update (hcls : ∀ d, (f d).cls = d.cls) (hadded : ∀ d, (f d).added = d.added) :
    s.Grows ⟨s.space, s.cache.update r f⟩ := by
  refine ⟨rfl, rfl, rfl, rfl, fun q c hq => (ReflectionCache.describes_update hcls).mpr hq, ?_,
    fun _ _ h => h, fun q c hq => .inl ((ReflectionCache.describes_update hcls).mp hq)⟩
  intro no _
  show (s.cache.infos.find? s.space no).elim [] (fun q => ((s.cache.update r f).record q).added) =
    s.addedTo no
  unfold addedTo
  cases s.cache.infos.find? s.space no with
  | none => rfl
  | some q => exact ReflectionCache.added_record_update hadded

end Realm.Grows

/-! ## Computations -/

namespace Viewing

variable {α β : Type} {classes : List LoadedClass} {s : Realm} {live : Prop}

/-- Started in `s`, the computation keeps the cache coherent and forgets nothing. What it finds
satisfies `post`, and it does find something if `live` holds. -/
def Yields (classes : List LoadedClass) (x : Viewing α) (s : Realm) (live : Prop)
    (post : Realm → α → Prop) : Prop :=
  match x.run.run s with
  | (.ok a, t) => t.cache.Coherent classes ∧ s.Grows t ∧ post t a
  | (.error _, t) => t.cache.Coherent classes ∧ s.Grows t ∧ ¬ live

/-- A view runs its parts one after the other. -/
theorem run_bind (x : Viewing α) (f : α → Viewing β) (s : Realm) :
    (x >>= f).run.run s =
      match x.run.run s with
      | (.ok a, t) => (f a).run.run t
      | (.error e, t) => (.error e, t) := by
  show (match x.run.run s with
    | (res, t) => StateT.run (ExceptT.bindCont f res) t) = _
  cases x.run.run s with
  | mk res t => cases res <;> rfl

/-- Reading one thing after the other. -/
theorem run_mapM {f : α → Viewing β} {g : α → β} (hf : ∀ a, (f a).run.run s = (.ok (g a), s))
    (l : List α) : (l.mapM f).run.run s = (.ok (l.map g), s) := by
  induction l with
  | nil => rfl
  | cons a l ih =>
    rw [List.mapM_cons, run_bind, hf a]
    dsimp only
    rw [run_bind, ih]
    rfl

namespace Yields

variable {x : Viewing α} {f : α → Viewing β} {post : Realm → α → Prop} {post' : Realm → β → Prop}

theorem pure {a : α} (h : s.cache.Coherent classes) (ha : post s a) :
    Yields classes (Pure.pure a) s live post :=
  ⟨h, .refl s, ha⟩

/-- A view yields what its last part yields from where the others have led. -/
theorem bind (hx : Yields classes x s live post)
    (hf : ∀ a t, t.cache.Coherent classes → s.Grows t → post t a →
      Yields classes (f a) t live post') :
    Yields classes (x >>= f) s live post' := by
  unfold Yields at hx ⊢
  rw [run_bind]
  cases hrun : x.run.run s with
  | mk res t =>
    rw [hrun] at hx
    cases res with
    | error e => exact hx
    | ok a =>
      obtain ⟨ht, hst, ha⟩ := hx
      have hfa := hf a t ht hst ha
      unfold Yields at hfa
      dsimp only
      -- what the second part says about its own start is carried back to the start of the whole
      cases hrun' : (f a).run.run t with
      | mk res' u =>
        rw [hrun'] at hfa
        cases res' with
        | error e => exact ⟨hfa.1, hst.trans hfa.2.1, hfa.2.2⟩
        | ok b => exact ⟨hfa.1, hst.trans hfa.2.1, hfa.2.2⟩

/-- A view that yields something yields whatever follows from it. -/
theorem imp {post₂ : Realm → α → Prop} (hx : Yields classes x s live post)
    (h : ∀ a t, t.cache.Coherent classes → s.Grows t → post t a → post₂ t a) :
    Yields classes x s live post₂ := by
  unfold Yields at hx ⊢
  cases hrun : x.run.run s with
  | mk res t =>
    rw [hrun] at hx
    cases res with
    | error e => exact hx
    | ok a => exact ⟨hx.1, hx.2.1, h a t hx.1 hx.2.1 hx.2.2⟩

/-- What is found and kept, in terms of the run itself. -/
theorem coherent (hx : Yields classes x s live post) : (x.run.run s).2.cache.Coherent classes := by
  unfold Yields at hx
  cases hrun : x.run.run s with
  | mk res t =>
    rw [hrun] at hx
    cases res <;> exact hx.1

/-- A view lets its realm grow. -/
theorem grows (hx : Yields classes x s live post) : s.Grows (x.run.run s).2 := by
  unfold Yields at hx
  cases hrun : x.run.run s with
  | mk res t =>
    rw [hrun] at hx
    cases res <;> exact hx.2.1

end Yields

/-! ## Steps -/

variable {c : LoadedClass} {r : RecordNo}

theorem get_yields (h : s.cache.Coherent classes) :
    Yields classes get s live fun t a => s = t ∧ s = a :=
  ⟨h, .refl s, rfl, rfl⟩

theorem record_yields {d : ClassRecord} (h : s.cache.Coherent classes)
    (hr : s.cache.records[r]? = some d) :
    Yields classes (record r) s live fun t e => s = t ∧ d = e :=
  ⟨h, .refl s, rfl, (ReflectionCache.record_of_getElem? hr).symm⟩

/-- An update that leaves the record faithful yields. -/
theorem update_yields {f : ClassRecord → ClassRecord} (h : s.cache.Coherent classes)
    (hcls : ∀ d, (f d).cls = d.cls) (hadded : ∀ d, (f d).added = d.added)
    (hf : ∀ d, s.cache.records[r]? = some d → (f d).Faithful s.cache.Describes) :
    Yields classes (update r f) s live fun t _ => t.cache.Describes = s.cache.Describes := by
  refine ⟨h.update hcls hf, .update hcls hadded, ?_⟩
  funext q d
  exact propext (ReflectionCache.describes_update hcls)

/-- A loaded class can be used. -/
theorem run_ensureUsable_loaded (hopen : s.cache.isOpen = true)
    (hc : s.space.isLoaded c.no = true) : (ensureUsable c).run.run s = (.ok (), s) := by
  show StateT.run (ExceptT.run (do
    if !s.space.isLoaded c.no then throw (.classUnloaded c.name)
    if !s.cache.isOpen then throw (.cacheDropped c.name) : Viewing Unit)) s = _
  rw [hc, hopen]
  rfl

/-- An unloaded class cannot be used. -/
theorem run_ensureUsable_unloaded (hc : s.space.isLoaded c.no = false) :
    (ensureUsable c).run.run s = (.error (.classUnloaded c.name), s) := by
  show StateT.run (ExceptT.run (do
    if !s.space.isLoaded c.no then throw (.classUnloaded c.name)
    if !s.cache.isOpen then throw (.cacheDropped c.name) : Viewing Unit)) s = _
  rw [hc]
  rfl

theorem ensureUsable_yields (h : s.cache.Coherent classes)
    (hlive : live → s.space.isLoaded c.no = true) :
    Yields classes (ensureUsable c) s live fun _ _ => True := by
  unfold Yields
  by_cases hc : s.space.isLoaded c.no = true
  · rw [run_ensureUsable_loaded h.isOpen hc]
    exact ⟨h, .refl s, trivial⟩
  · rw [run_ensureUsable_unloaded (Bool.eq_false_iff.mpr hc)]
    exact ⟨h, .refl s, fun hl => hc (hlive hl)⟩

/-- Widening access to a member yields, whether it is permitted or not. -/
theorem tryWiden_yields (h : s.cache.Coherent classes) (owner member : String) (id : MemberId)
    (m : Modifiers) : Yields classes (tryWiden owner member id m) s live fun _ _ => True := by
  have hspace : ∀ space : ClassSpace,
    (space.tryWiden s.cache.permits owner member id m).next = space.next ∧
      (space.tryWiden s.cache.permits owner member id m).unloaded = space.unloaded ∧
      (space.tryWiden s.cache.permits owner member id m).addedMethods = space.addedMethods := by
    intro space
    unfold ClassSpace.tryWiden ClassSpace.widen
    split
    · rename_i after hafter
      split at hafter
      · cases hafter
        exact ⟨rfl, rfl, rfl⟩
      · split at hafter
        · cases hafter
          exact ⟨rfl, rfl, rfl⟩
        · cases hafter
    · exact ⟨rfl, rfl, rfl⟩
  obtain ⟨hnext, hunloaded, hadded⟩ := hspace s.space
  exact ⟨h, .of_space rfl hnext hunloaded hadded, trivial⟩

/-- A pass yields if it does at each item. -/
theorem forM_yields {f : α → Viewing Unit} (l : List α) (h : s.cache.Coherent classes)
    (hf : ∀ a t, t.cache.Coherent classes → Yields classes (f a) t live fun _ _ => True) :
    Yields classes (l.forM f) s live fun _ _ => True := by
  induction l generalizing s with
  | nil => exact .pure h trivial
  | cons a l ih => exact .bind (hf a s h) fun _ t ht _ _ => ih ht

/-! ## New records -/

/-- Making a record for a loaded class that has none. -/
def recorded (s : Realm) (c : LoadedClass) : Realm :=
  { s with cache := { s.cache with
      infos := s.cache.infos.store s.space c.no s.cache.records.length
      records := s.cache.records ++ [{ cls := c }] } }

theorem run_recordOf_unloaded (hc : s.space.isLoaded c.no = false) :
    (recordOf c).run.run s = (.error (.classUnloaded c.name), s) := by
  show StateT.run
    (ExceptT.run (if s.space.isLoaded c.no then _ else throw (.classUnloaded c.name) :
    Viewing RecordNo)) s = _
  rw [hc]
  rfl

/-- The record of a loaded class is the current one, or a new one. -/
theorem run_recordOf_loaded (hc : s.space.isLoaded c.no = true) :
    (recordOf c).run.run s =
      match s.cache.infos.find? s.space c.no with
      | some r => (.ok r, s)
      | none => (.ok s.cache.records.length, recorded s c) := by
  show StateT.run (ExceptT.run (if s.space.isLoaded c.no then
      match s.cache.infos.find? s.space c.no with
      | some r => pure r
      | none => do
        set (recorded s c)
        return s.cache.records.length
    else throw (.classUnloaded c.name) : Viewing RecordNo)) s = _
  rw [hc, if_pos rfl]
  cases s.cache.infos.find? s.space c.no <;> rfl

/-- A new record leaves the others. -/
theorem describes_recorded {q : RecordNo} {d : LoadedClass} (h : s.cache.Describes q d) :
    (recorded s c).cache.Describes q d := by
  obtain ⟨e, he, hcls⟩ := h
  have hlt : q < s.cache.records.length := (List.getElem?_eq_some_iff.mp he).1
  refine ⟨e, ?_, hcls⟩
  show (s.cache.records ++ [{ cls := c }])[q]? = some e
  rw [List.getElem?_append_left hlt]
  exact he

theorem describes_recorded_self (s : Realm) (c : LoadedClass) :
    (recorded s c).cache.Describes s.cache.records.length c :=
  ⟨{ cls := c }, List.getElem?_concat_length, rfl⟩

/-- A record is an old one or the new one. -/
theorem getElem?_recorded {q : RecordNo} {d : ClassRecord}
    (h : (recorded s c).cache.records[q]? = some d) :
    s.cache.records[q]? = some d ∨ q = s.cache.records.length ∧ d = { cls := c } := by
  have hmem : (s.cache.records ++ [{ cls := c }])[q]? = some d := h
  rw [List.getElem?_append] at hmem
  split at hmem
  · exact .inl hmem
  · rename_i hge
    obtain ⟨hlt, hq⟩ := List.getElem?_eq_some_iff.mp hmem
    rw [List.getElem_singleton] at hq
    have hle : q ≤ s.cache.records.length := Nat.sub_eq_zero_iff_le.mp (Nat.lt_one_iff.mp hlt)
    exact .inr ⟨Nat.le_antisymm hle (Nat.le_of_not_lt hge), hq.symm⟩

/-- A new record is coherent. -/
theorem coherent_recorded (h : s.cache.Coherent classes) (hc : c ∈ classes) :
    (recorded s c).cache.Coherent classes where
  isOpen := h.isOpen
  known q d hq := by
    obtain ⟨e, he, rfl⟩ := hq
    rcases getElem?_recorded he with he | ⟨-, rfl⟩
    · exact h.known q e.cls ⟨e, he, rfl⟩
    · exact hc
  faithful q d hd := by
    rcases getElem?_recorded hd with hd | ⟨-, rfl⟩
    · exact (h.faithful q d hd).mono fun _ _ => describes_recorded
    · exact .new c
  current no q hq := by
    rcases ClassValue.mem_store hq with hq | hq
    · obtain ⟨d, hd, hno⟩ := h.current no q hq
      exact ⟨d, describes_recorded hd, hno⟩
    · cases hq
      exact ⟨c, describes_recorded_self s c, rfl⟩

/-- A new record knows of no added methods, as little as the class without a record had. -/
theorem addedTo_recorded (h : s.cache.Coherent classes) (hc : s.space.isLoaded c.no = true)
    (no : ClassNo) : (recorded s c).addedTo no = s.addedTo no := by
  show ((s.cache.infos.store s.space c.no s.cache.records.length).find? s.space no).elim []
    (fun q => ((recorded s c).cache.record q).added) = s.addedTo no
  rw [ClassValue.find?_store hc, Realm.addedTo]
  cases hfind : s.cache.infos.find? s.space no with
  | some q =>
    -- an old record stands where it stood
    obtain ⟨_, ⟨d, hd, _⟩, _⟩ := h.current no q (ClassValue.mem_of_find? hfind)
    have hlt : q < s.cache.records.length := (List.getElem?_eq_some_iff.mp hd).1
    have hd' : (recorded s c).cache.records[q]? = some d := by
      show (s.cache.records ++ [{ cls := c }])[q]? = some d
      rw [List.getElem?_append_left hlt]
      exact hd
    show ((recorded s c).cache.record q).added = (s.cache.record q).added
    rw [ReflectionCache.record_of_getElem? hd, ReflectionCache.record_of_getElem? hd']
  | none =>
    by_cases heq : no = c.no
    · rw [if_pos heq]
      show ((recorded s c).cache.record s.cache.records.length).added = []
      have hnew : (recorded s c).cache.records[s.cache.records.length]? = some { cls := c } :=
        List.getElem?_concat_length
      rw [ReflectionCache.record_of_getElem? hnew]
    · rw [if_neg heq]
      rfl

/-- A new record lets the realm grow. -/
theorem grows_recorded (h : s.cache.Coherent classes) (hc : s.space.isLoaded c.no = true)
    (hnone : s.cache.infos.find? s.space c.no = none) : s.Grows (recorded s c) := by
  have hfind : ∀ no, (recorded s c).cache.infos.find? (recorded s c).space no =
      (s.cache.infos.find? s.space no).or
        (if no = c.no then some s.cache.records.length else none) :=
    ClassValue.find?_store hc
  refine ⟨rfl, rfl, rfl, rfl, fun _ _ => describes_recorded, fun no _ => addedTo_recorded h hc no,
    ?_, ?_⟩
  · intro no r hr
    rw [hfind, hr, Option.some_or]
  · rintro q d ⟨e, he, rfl⟩
    rcases getElem?_recorded he with he | ⟨rfl, rfl⟩
    · exact .inl ⟨e, he, rfl⟩
    · rw [hfind, hnone, Option.none_or, if_pos rfl]
      exact .inr rfl

/-- The record of a known class describes it, and it is the one that the cache finds from then
on. -/
theorem recordOf_yields (hpop : Population classes) (h : s.cache.Coherent classes)
    (hc : c ∈ classes) (hlive : live → s.space.isLoaded c.no = true) :
    Yields classes (recordOf c) s live fun t r =>
      t.cache.Describes r c ∧ t.cache.infos.find? t.space c.no = some r := by
  by_cases hloaded : s.space.isLoaded c.no = true
  · have hrun := run_recordOf_loaded hloaded
    unfold Yields
    rw [hrun]
    cases hfind : s.cache.infos.find? s.space c.no with
    | some r =>
      -- numbers tell classes apart, so the record that is found is one of `c`
      obtain ⟨d, hd, hno⟩ := h.current c.no r (ClassValue.mem_of_find? hfind)
      have hdc : d = c := hpop.unique d (h.known r d hd) c hc hno
      exact ⟨h, .refl s, hdc ▸ hd, hfind⟩
    | none =>
      refine ⟨coherent_recorded h hc, grows_recorded h hloaded hfind, describes_recorded_self s c,
        ?_⟩
      show (s.cache.infos.store s.space c.no s.cache.records.length).find? s.space c.no = _
      rw [ClassValue.find?_store hloaded, hfind, if_pos rfl]
      rfl
  · unfold Yields
    rw [run_recordOf_unloaded (Bool.eq_false_iff.mpr hloaded)]
    exact ⟨h, .refl s, fun hl => hloaded (hlive hl)⟩

end Viewing

/-! ## Parts of records -/

/-- What a part of a record may hold: `content` relates the class of the record and the value, given
the classes that records describe. -/
structure RecordSlot.Lawful {α : Type} (slot : RecordSlot α)
    (content : (RecordNo → LoadedClass → Prop) → LoadedClass → α → Prop) : Prop where
  cls : ∀ d l, (slot.put d l).cls = d.cls
  added : ∀ d l, (slot.put d l).added = d.added
  sound : ∀ describes d v, d.Faithful describes → (slot.get d).value = some v →
    content describes d.cls v
  fill : ∀ describes d v, d.Faithful describes → content describes d.cls v →
    (slot.put d ((slot.get d).fill v)).Faithful describes

namespace RecordSlot

/-- The fields that a record keeps are those of its class. -/
theorem fields_lawful : fields.Lawful fun _ c v => v = c.fieldHandles where
  cls _ _ := rfl
  added _ _ := rfl
  sound _ _ v hd hv := hd.fields v hv
  fill _ _ v hd hv :=
    { hd with
      fields := by rintro _ ⟨⟩; exact hv
      revocable := { hd.revocable with fields := hd.revocable.fields.fill v } }

theorem constructors_lawful : constructors.Lawful fun _ c v => v = c.constructorHandles where
  cls _ _ := rfl
  added _ _ := rfl
  sound _ _ v hd hv := hd.constructors v hv
  fill _ _ v hd hv :=
    { hd with
      constructors := by rintro _ ⟨⟩; exact hv
      revocable := { hd.revocable with constructors := hd.revocable.constructors.fill v } }

theorem methods_lawful : methods.Lawful fun _ c v => v = c.methodTable where
  cls _ _ := rfl
  added _ _ := rfl
  sound _ _ v hd hv := hd.methods v hv
  fill _ _ v hd hv :=
    { hd with
      methods := by rintro _ ⟨⟩; exact hv
      revocable := { hd.revocable with methods := hd.revocable.methods.fill v } }

/-- The superclass that a record keeps describes the superclass. -/
theorem superclass_lawful :
    superclass.Lawful fun describes c v => Option.Rel describes v c.superclass where
  cls _ _ := rfl
  added _ _ := rfl
  sound _ _ v hd hv := hd.superclass v hv
  fill _ _ v hd hv :=
    { hd with
      superclass := by rintro _ ⟨⟩; exact hv
      revocable := { hd.revocable with superclass := hd.revocable.superclass.fill v } }

theorem declaredInterfaces_lawful :
    declaredInterfaces.Lawful fun describes c v => List.Forall₂ describes v c.interfaces where
  cls _ _ := rfl
  added _ _ := rfl
  sound _ _ v hd hv := hd.declaredInterfaces v hv
  fill _ _ v hd hv :=
    { hd with
      declaredInterfaces := by rintro _ ⟨⟩; exact hv
      revocable :=
        { hd.revocable with declaredInterfaces := hd.revocable.declaredInterfaces.fill v } }

/-- The interfaces that a record keeps describe the inherited ones. -/
theorem allInterfaces_lawful :
    allInterfaces.Lawful fun describes c v => List.Forall₂ describes v c.inheritedInterfaces where
  cls _ _ := rfl
  added _ _ := rfl
  sound _ _ v hd hv := hd.allInterfaces v hv
  fill _ _ v hd hv :=
    { hd with
      allInterfaces := by rintro _ ⟨⟩; exact hv
      revocable := { hd.revocable with allInterfaces := hd.revocable.allInterfaces.fill v } }

/-- The hierarchy that a record keeps describes the ancestors. -/
theorem hierarchy_lawful :
    hierarchy.Lawful fun describes c v => List.Forall₂ describes v c.ancestors where
  cls _ _ := rfl
  added _ _ := rfl
  sound _ _ v hd hv := hd.hierarchy v hv
  fill _ _ v hd hv :=
    { hd with
      hierarchy := by rintro _ ⟨⟩; exact hv
      revocable := { hd.revocable with hierarchy := hd.revocable.hierarchy.fill v } }

end RecordSlot

/-- A kept part is right because the record is faithful, a computed one because the computation is
right; and then it may be kept. -/
theorem Viewing.memo_yields {α : Type} {classes : List LoadedClass} {s : Realm} {live : Prop}
    {c : LoadedClass} {r : RecordNo} {slot : RecordSlot α}
    {content : (RecordNo → LoadedClass → Prop) → LoadedClass → α → Prop} {compute : Viewing α}
    (hslot : slot.Lawful content) (h : s.cache.Coherent classes) (hr : s.cache.Describes r c)
    (hcompute : Yields classes compute s live fun t v => content t.cache.Describes c v) :
    Yields classes (memo slot r compute) s live fun t v => content t.cache.Describes c v := by
  obtain ⟨d, hd, rfl⟩ := hr
  have hfaithful := h.faithful r d hd
  unfold memo
  refine .bind (record_yields h hd) ?_
  rintro _ _ - - ⟨rfl, rfl⟩
  cases hv : (slot.get d).value with
  | some v => exact .pure h (hslot.sound _ d v hfaithful hv)
  | none =>
    -- the record may have got other parts meanwhile, but its class is the same
    refine .bind hcompute ?_
    intro v t ht hst hv
    have hfill : ∀ e, t.cache.records[r]? = some e →
        (slot.put e ((slot.get e).fill v)).Faithful t.cache.Describes := by
      intro e he
      refine hslot.fill _ e v (ht.faithful r e he) ?_
      rw [hst.cls_eq hd he]
      exact hv
    refine .bind (update_yields ht (fun e => hslot.cls e _) (fun e => hslot.added e _) hfill) ?_
    intro _ u hu _ hdescribes
    refine .pure hu ?_
    rw [hdescribes]
    exact hv

end Metaobject
