import Metaobject.Proofs.Reflection.CallCoherence

/-!
# Sessions that cannot be told apart

Two sessions may differ in the records they have made and in the parts of records they keep, and
still answer alike: answers about loaded classes depend only on the classes themselves and on the
methods added to them (`Session.Alike`). Looking, calling and memory pressure leave a session as it
was in this respect; everything else changes two sessions that are alike in the same way.

A method is added to a record, and answers come from records. This is why a class must not have two
records at a time: as long as no loaded class is forgotten, every record of a loaded class is the
current one (`Realm.Current`).
-/

namespace Metaobject

/-! ## Current records -/

/-- A record with one more method. -/
def ClassRecord.withMethod (d : ClassRecord) (h : MethodHandle) : ClassRecord :=
  { d with added := d.added ++ [h], version := d.version + 1 }

/-- Every record of a loaded class is the current one. -/
def Realm.Current (s : Realm) : Prop :=
  ∀ r c, s.cache.Describes r c → s.space.isLoaded c.no = true →
    s.cache.infos.find? s.space c.no = some r

/-- Records keep their classes, a new record is the current one, and loaded classes keep their
current records. -/
structure Realm.Retains (s t : Realm) : Prop where
  describes : ∀ r c, s.cache.Describes r c → t.cache.Describes r c
  new : ∀ r c, t.cache.Describes r c → s.cache.Describes r c ∨
    t.cache.infos.find? t.space c.no = some r
  current : ∀ no r, t.space.isLoaded no = true → s.cache.infos.find? s.space no = some r →
    t.cache.infos.find? t.space no = some r

namespace Realm

variable {s t : Realm} {r q : RecordNo} {c : LoadedClass}

/-- An added method changes one record. -/
theorem getElem?_addMethod (s : Realm) (r q : RecordNo) (m : MethodSignature) :
    (s.addMethod r m).2.cache.records[q]? =
      if q = r then (s.cache.records[q]?).map (·.withMethod (s.addMethod r m).1)
        else s.cache.records[q]? :=
  ReflectionCache.getElem?_update s.cache r q (·.withMethod (s.addMethod r m).1)

theorem describes_addMethod {m : MethodSignature} :
    (s.addMethod r m).2.cache.Describes q c ↔ s.cache.Describes q c :=
  ReflectionCache.describes_update (f := (·.withMethod (s.addMethod r m).1)) fun _ => rfl

/-- To forget an unloaded class changes nothing that is found. -/
theorem find?_forget {no : ClassNo} (h : s.space.isLoaded no = false) (other : ClassNo) :
    (s.cache.forget no).infos.find? s.space other = s.cache.infos.find? s.space other := by
  show (s.cache.infos.remove no).2.find? s.space other = _
  rw [ClassValue.find?_remove]
  by_cases hother : other = no
  · rw [if_pos hother, hother, ClassValue.find?_eq_none_of_unloaded h]
  · rw [if_neg hother]

namespace Retains

/-- A realm that grows retains what it has. -/
theorem of_grows (h : s.Grows t) : s.Retains t :=
  ⟨h.describes, h.new, fun no r _ hr => h.current no r hr⟩

theorem of_space (hcache : t.cache = s.cache) (hunloaded : t.space.unloaded = s.space.unloaded) :
    s.Retains t := by
  refine ⟨?_, ?_, ?_⟩
  · rw [hcache]
    exact fun _ _ hr => hr
  · rw [hcache]
    exact fun _ _ hr => .inl hr
  · intro no r _ hr
    rw [find?_congr hcache hunloaded]
    exact hr

/-- Unloading a class retains the added methods of the others. -/
theorem unload (s : Realm) (no : ClassNo) :
    s.Retains ⟨s.space.markUnloaded no,
      { s.cache with infos := s.cache.infos.classUnloaded no }⟩ := by
  refine ⟨fun _ _ hr => hr, fun _ _ hr => .inl hr, ?_⟩
  intro other r hloaded hr
  have hboth : (s.space.markUnloaded no).isLoaded other = true := hloaded
  rw [ClassSpace.isLoaded_markUnloaded, Bool.and_eq_true, bne_iff_ne] at hboth
  rw [ClassValue.find?_unload, if_neg hboth.1]
  exact hr

theorem forget {no : ClassNo} (h : s.space.isLoaded no = false) :
    s.Retains ⟨s.space, s.cache.forget no⟩ := by
  refine ⟨fun _ _ hr => hr, fun _ _ hr => .inl hr, ?_⟩
  intro other r _ hr
  rw [find?_forget h]
  exact hr

/-- Adding a method retains the methods that were added before. -/
theorem addMethod (s : Realm) (r : RecordNo) (m : MethodSignature) :
    s.Retains (s.addMethod r m).2 :=
  ⟨fun _ _ hr => describes_addMethod.mpr hr, fun _ _ hr => .inl (describes_addMethod.mp hr),
    fun _ _ _ hr => hr⟩

end Retains

/-- A current realm stays current as long as nothing is unloaded or lost. -/
theorem Current.retains (h : s.Current) (hst : s.Retains t)
    (hloaded : ∀ no, t.space.isLoaded no = true → s.space.isLoaded no = true) : t.Current := by
  intro r c hr hc
  rcases hst.new r c hr with hold | hcurrent
  · exact hst.current c.no r hc (h r c hold (hloaded c.no hc))
  · exact hcurrent

/-- A current record knows all methods that were added to its class. -/
theorem Current.added_record (h : s.Current) (hr : s.cache.Describes r c)
    (hc : s.space.isLoaded c.no = true) : (s.cache.record r).added = s.addedTo c.no := by
  rw [addedTo, h r c hr hc]
  rfl

/-- A method that is added through a current record is added to its class, and to no other. -/
theorem addedTo_addMethod {classes : List LoadedClass} (h : s.cache.Coherent classes)
    (hr : s.cache.Describes r c) (hcurrent : s.cache.infos.find? s.space c.no = some r)
    (m : MethodSignature) (no : ClassNo) :
    (s.addMethod r m).2.addedTo no =
      if no = c.no then s.addedTo no ++ [(s.addMethod r m).1] else s.addedTo no := by
  show (s.cache.infos.find? s.space no).elim []
    (fun q => ((s.addMethod r m).2.cache.record q).added) = _
  unfold ReflectionCache.record addedTo
  by_cases hno : no = c.no
  · obtain ⟨d, hd, -⟩ := hr
    rw [if_pos hno, hno, hcurrent]
    dsimp only [Option.elim_some]
    rw [getElem?_addMethod, if_pos rfl, ReflectionCache.record_of_getElem? hd, hd]
    rfl
  · rw [if_neg hno]
    cases hfind : s.cache.infos.find? s.space no with
    | none => rfl
    | some q =>
      -- the current record of another class is another record
      have hq : q ≠ r := by
        rintro rfl
        obtain ⟨e, he, heno⟩ := h.current no q (ClassValue.mem_of_find? hfind)
        exact hno (heno.symm.trans (congrArg _ (he.record_cls.symm.trans hr.record_cls)))
      dsimp only [Option.elim_some]
      rw [getElem?_addMethod, if_neg hq]
      rfl

end Realm

/-! ## Sessions -/

namespace Session

variable {α : Type} {s t u : Session α}

/-- A sound session in which every record of a loaded class is the current one. -/
structure Settled (s : Session α) : Prop extends Sound s where
  current : s.realm.Current

/-- What a settled session turns into: it stays settled, no class is loaded again, and records keep
their classes. -/
structure Continues (s t : Session α) : Prop where
  settled : t.Settled
  isLoaded : ∀ no, t.realm.space.isLoaded no = true → s.realm.space.isLoaded no = true
  describes : ∀ r c, s.cache.Describes r c → t.cache.Describes r c

/-- A settled session goes on as long as it advances and retains. -/
theorem Settled.advances (hs : s.Settled) (h : s.Advances t) (hretains : s.realm.Retains t.realm) :
    s.Continues t where
  settled := ⟨hs.toSound.advances h, hs.current.retains hretains h.ages.isLoaded⟩
  isLoaded := h.ages.isLoaded
  describes := hretains.describes

theorem Settled.refl (hs : s.Settled) : s.Continues s := ⟨hs, fun _ h => h, fun _ _ h => h⟩

/-- Two sessions agree on all that answers about loaded classes depend on. -/
structure Alike (s t : Session α) : Prop where
  loaders : t.loaders = s.loaders
  classes : t.classes = s.classes
  names : t.sites.map (·.name) = s.sites.map (·.name)
  next : t.realm.space.next = s.realm.space.next
  unloaded : t.realm.space.unloaded = s.realm.space.unloaded
  addedMethods : t.realm.space.addedMethods = s.realm.space.addedMethods
  added : ∀ no, s.realm.space.isLoaded no = true → t.realm.addedTo no = s.realm.addedTo no

namespace Alike

theorem refl (s : Session α) : s.Alike s := ⟨rfl, rfl, rfl, rfl, rfl, rfl, fun _ _ => rfl⟩

theorem isLoaded (h : s.Alike t) : t.realm.space.isLoaded = s.realm.space.isLoaded :=
  ClassSpace.isLoaded_congr h.unloaded

theorem hasFamily (h : s.Alike t) {c : LoadedClass} (hc : s.realm.space.HasFamily c) :
    t.realm.space.HasFamily c := by
  intro no hno
  rw [h.isLoaded]
  exact hc no hno

/-- Alike sessions know the same classes. -/
theorem class?_eq (h : s.Alike t) (no : ClassNo) : t.class? no = s.class? no := by
  unfold class?
  rw [h.classes]

theorem symm (h : s.Alike t) : t.Alike s where
  loaders := h.loaders.symm
  classes := h.classes.symm
  names := h.names.symm
  next := h.next.symm
  unloaded := h.unloaded.symm
  addedMethods := h.addedMethods.symm
  added no hno := (h.added no (by rw [← h.isLoaded]; exact hno)).symm

theorem trans (h : s.Alike t) (h' : t.Alike u) : s.Alike u where
  loaders := h'.loaders.trans h.loaders
  classes := h'.classes.trans h.classes
  names := h'.names.trans h.names
  next := h'.next.trans h.next
  unloaded := h'.unloaded.trans h.unloaded
  addedMethods := h'.addedMethods.trans h.addedMethods
  added no hno := (h'.added no (by rw [h.isLoaded]; exact hno)).trans (h.added no hno)

end Alike

/-! ### Steps that nobody notices -/

theorem names_set {i : Nat} {site after : CallSite} (hsite : s.sites[i]? = some site)
    (hname : after.name = site.name) :
    (s.sites.set i after).map (·.name) = s.sites.map (·.name) := by
  apply List.ext_getElem?
  intro j
  rw [List.getElem?_map, List.getElem?_map, List.getElem?_set]
  by_cases hij : i = j
  · subst hij
    rw [if_pos rfl, if_pos (List.getElem?_eq_some_iff.mp hsite).1, hsite]
    exact congrArg some hname
  · rw [if_neg hij]

/-- Only the cache, what goes with it and the memory of the sites change, and no class is
touched. -/
theorem Orderly.alike (hs : s.Orderly) {t : Realm} {sites : List CallSite}
    (hnext : t.space.next = s.realm.space.next)
    (hunloaded : t.space.unloaded = s.realm.space.unloaded)
    (haddedMethods : t.space.addedMethods = s.realm.space.addedMethods)
    (hadded : ∀ no, s.realm.space.isLoaded no = true → t.addedTo no = s.realm.addedTo no)
    (hnames : sites.map (·.name) = s.sites.map (·.name)) :
    s.Alike { s with world := s.world.setRealm 0 t, sites } := by
  have hrealm : Session.realm { s with world := s.world.setRealm 0 t, sites } = t :=
    World.realm_setRealm hs.cached
  refine ⟨rfl, rfl, hnames, ?_, ?_, ?_, ?_⟩ <;> rw [hrealm] <;> assumption

/-- A session whose realm has grown is alike. -/
theorem Orderly.alike_of_grows (hs : s.Orderly) {t : Realm} {sites : List CallSite}
    (hgrows : s.realm.Grows t) (hnames : sites.map (·.name) = s.sites.map (·.name)) :
    s.Alike { s with world := s.world.setRealm 0 t, sites } :=
  hs.alike hgrows.next hgrows.unloaded hgrows.addedMethods hgrows.added hnames

namespace Settled

/-- A view lets a settled session go on. -/
theorem setRealm (hs : s.Settled) {t : Realm} (hcoherent : t.cache.Coherent s.classes)
    (hgrows : s.realm.Grows t) : s.Continues { s with world := s.world.setRealm 0 t } := by
  refine hs.advances
    (hs.toOrderly.setRealm hcoherent hgrows.next hgrows.unloaded (.of_grows hgrows)) ?_
  show s.realm.Retains ((s.world.setRealm 0 t).realm 0)
  rw [World.realm_setRealm hs.cached]
  exact .of_grows hgrows

/-- Reclaiming lets a session go on, and leaves it alike. -/
theorem reclaim (hs : s.Settled) (held : List RecordNo) (p : Pressure) :
    s.Continues (s.reclaim held p) ∧ s.Alike (s.reclaim held p) := by
  obtain ⟨hcoherent, hgrows⟩ := hs.toOrderly.reclaim_grows held p
  exact ⟨hs.setRealm hcoherent hgrows, hs.toOrderly.alike_of_grows hgrows rfl⟩

/-- Forgetting an unloaded class lets a session go on, and leaves it alike. -/
theorem forget (hs : s.Settled) {no : ClassNo} (hno : s.realm.space.isLoaded no = false) :
    s.Continues (s.forget no) ∧ s.Alike (s.forget no) := by
  constructor
  · refine hs.advances (hs.toOrderly.forget no) ?_
    show s.realm.Retains ((s.world.setRealm 0 ⟨s.world.space, s.cache.forget no⟩).realm 0)
    rw [World.realm_setRealm hs.cached]
    exact Realm.Retains.forget (s := s.realm) hno
  · refine hs.toOrderly.alike (t := ⟨s.world.space, s.cache.forget no⟩) rfl rfl rfl ?_ rfl
    intro other _
    have hfind := Realm.find?_forget (s := s.realm) hno other
    exact congrArg (fun found => found.elim [] fun r => (s.cache.record r).added) hfind

theorem clear (hs : s.Settled) (i : Nat) : s.Continues (s.clear i) ∧ s.Alike (s.clear i) := by
  have hadvances := hs.toOrderly.clear i
  unfold Session.clear at hadvances ⊢
  cases hsite : s.sites[i]? with
  | none => exact ⟨hs.refl, .refl s⟩
  | some site =>
    rw [hsite] at hadvances
    exact ⟨hs.advances hadvances (.of_space rfl rfl),
      { Alike.refl s with names := names_set hsite rfl }⟩

theorem resolve (hs : s.Settled) (i : Nat) (no : ClassNo) (arity : Nat) :
    s.Continues (s.resolve i no arity) ∧ s.Alike (s.resolve i no arity) := by
  have hadvances := hs.toOrderly.resolve i no arity
  unfold Session.resolve at hadvances ⊢
  cases hsite : s.sites[i]? with
  | none => exact ⟨hs.refl, .refl s⟩
  | some site =>
    cases hc : s.class? no with
    | none => exact ⟨hs.refl, .refl s⟩
    | some c =>
      rw [hsite, hc] at hadvances
      have hlearns : site.Learns s.classes s.realm c (site.resolve s.realm c arity).2 :=
        site.resolve_learns hs.population arity hs.coherent (mem_of_class? hc)
      have hrealm : (s.world.setRealm 0 (site.resolve s.realm c arity).2.2).realm 0 =
          (site.resolve s.realm c arity).2.2 := World.realm_setRealm hs.cached
      refine ⟨hs.advances hadvances ?_,
        hs.toOrderly.alike_of_grows hlearns.grows (names_set hsite hlearns.name)⟩
      show s.realm.Retains ((s.world.setRealm 0 (site.resolve s.realm c arity).2.2).realm 0)
      rw [hrealm]
      exact .of_grows hlearns.grows

/-! ### Steps that are noticed -/

theorem addLoader (hs : s.Settled) : s.Continues s.addLoader :=
  hs.advances hs.toOrderly.addLoader (.of_space rfl rfl)

theorem addSite (hs : s.Settled) (index : Nat) (name : String) :
    s.Continues (s.addSite index name) :=
  hs.advances (hs.toOrderly.addSite index name) (.of_space rfl rfl)

/-- A definition lets a session go on. -/
theorem define (hs : s.Settled) (i : Nat) (d : ClassDefinition) : s.Continues (s.define i d) := by
  refine hs.advances (hs.toOrderly.define i d) ?_
  unfold Session.define
  cases s.loaders[i]? with
  | none => exact .of_space rfl rfl
  | some l =>
    dsimp only
    rw [World.load_define]
    cases l.classOf s.world.space.next d <;> exact .of_space rfl rfl

theorem unload (hs : s.Settled) (i : Nat) (name : String) : s.Continues (s.unload i name) := by
  refine hs.advances (hs.toOrderly.unload i name) ?_
  unfold Session.unload
  cases s.loaders[i]? with
  | none => exact .of_space rfl rfl
  | some l =>
    dsimp only
    rcases s.world.unload_cases l name with hnone | ⟨c, -, -, hsome⟩
    · rw [hnone]
      exact .of_space rfl rfl
    · rw [hsome]
      show s.realm.Retains
        (({ s.world with space := s.world.space.markUnloaded c.no }.classUnloaded c.no).realm 0)
      rw [World.realm_unloaded hs.cached]
      exact .unload s.realm c.no

theorem addMethod (hs : s.Settled) (r : RecordNo) (m : MethodSignature) :
    s.Continues (s.addMethod r m) := by
  refine hs.advances (hs.toOrderly.addMethod r m) ?_
  show s.realm.Retains ((s.world.setRealm 0 (s.realm.addMethod r m).2).realm 0)
  rw [World.realm_setRealm hs.cached]
  exact .addMethod s.realm r m

end Settled

namespace Alike

theorem addLoader (h : s.Alike t) : s.addLoader.Alike t.addLoader :=
  { h with loaders := congrArg (· ++ [({} : Loader)]) h.loaders }

theorem addSite (h : s.Alike t) (index : Nat) (name : String) :
    (s.addSite index name).Alike (t.addSite index name) :=
  { h with
    names := by
      show (t.sites ++ _).map _ = (s.sites ++ _).map _
      rw [List.map_append, List.map_append, h.names] }

/-- Alike sessions stay alike through a definition. -/
theorem define (h : s.Alike t) (i : Nat) (d : ClassDefinition) :
    (s.define i d).Alike (t.define i d) := by
  have hnext : t.world.space.next = s.world.space.next := h.next
  unfold Session.define
  rw [h.loaders]
  cases s.loaders[i]? with
  | none => exact h
  | some l =>
    dsimp only
    rw [World.load_define, World.load_define, hnext]
    cases l.classOf s.world.space.next d with
    | error e => exact { h with loaders := rfl }
    | ok c =>
      exact { h with loaders := rfl, classes := congrArg (· ++ [c]) h.classes, next := rfl }

/-- Alike sessions stay alike when a class is unloaded. -/
theorem unload (h : s.Alike t) (hs : s.Orderly) (ht : t.Orderly) (i : Nat) (name : String) :
    (s.unload i name).Alike (t.unload i name) := by
  unfold Session.unload
  rw [h.loaders]
  cases s.loaders[i]? with
  | none => exact h
  | some l =>
    dsimp only
    rw [World.unload_eq, World.unload_eq]
    by_cases hroot : name = LoadedClass.root.name
    · rw [if_pos hroot, if_pos hroot]
      exact { h with loaders := rfl }
    · rw [if_neg hroot, if_neg hroot]
      cases l.lookup name with
      | none => exact { h with loaders := rfl }
      | some c =>
        have hsrealm := World.realm_unloaded hs.cached c.no
        have htrealm := World.realm_unloaded ht.cached c.no
        refine ⟨rfl, h.classes, h.names, h.next, congrArg (c.no :: ·) h.unloaded, h.addedMethods,
          ?_⟩
        intro no hno
        have hloaded : (s.realm.space.markUnloaded c.no).isLoaded no = true := hno
        have hboth := hloaded
        rw [ClassSpace.isLoaded_markUnloaded, Bool.and_eq_true] at hboth
        -- what stays loaded keeps its methods in both
        have hsadded := (Realm.Ages.unload s.realm c.no).added rfl no hloaded
        have htadded := (Realm.Ages.unload t.realm c.no).added rfl no (by
          show (t.realm.space.markUnloaded c.no).isLoaded no = true
          rw [ClassSpace.isLoaded_markUnloaded, h.isLoaded, Bool.and_eq_true]
          exact hboth)
        show (({ t.world with space := t.world.space.markUnloaded c.no }.classUnloaded c.no).realm
          0).addedTo no =
          (({ s.world with space := s.world.space.markUnloaded c.no }.classUnloaded c.no).realm
            0).addedTo no
        rw [hsrealm, htrealm]
        exact htadded.trans ((h.added no hboth.2).trans hsadded.symm)

/-- The same method is added to a class through the record of either session. -/
theorem addMethod (h : s.Alike t) (hs : s.Settled) (ht : t.Settled) {r q : RecordNo}
    {c : LoadedClass} (hr : s.cache.Describes r c) (hq : t.cache.Describes q c)
    (hc : s.realm.space.isLoaded c.no = true) (m : MethodSignature) :
    (t.realm.addMethod q m).1 = (s.realm.addMethod r m).1 ∧
      (s.addMethod r m).Alike (t.addMethod q m) := by
  have hhandle : (t.realm.addMethod q m).1 = (s.realm.addMethod r m).1 := by
    show (⟨.added t.realm.space.addedMethods, (t.cache.record q).cls, m⟩ : MethodHandle) =
      ⟨.added s.realm.space.addedMethods, (s.cache.record r).cls, m⟩
    rw [h.addedMethods, hq.record_cls, hr.record_cls]
  refine ⟨hhandle, ?_⟩
  have hsrealm : (s.addMethod r m).realm = (s.realm.addMethod r m).2 :=
    World.realm_setRealm hs.cached
  have htrealm : (t.addMethod q m).realm = (t.realm.addMethod q m).2 :=
    World.realm_setRealm ht.cached
  have hc' : t.realm.space.isLoaded c.no = true := by
    rw [h.isLoaded]
    exact hc
  refine ⟨h.loaders, h.classes, h.names, h.next, h.unloaded, congrArg (· + 1) h.addedMethods, ?_⟩
  intro no hno
  rw [hsrealm, htrealm, Realm.addedTo_addMethod hs.coherent hr (hs.current r c hr hc),
    Realm.addedTo_addMethod ht.coherent hq (ht.current q c hq hc'), hhandle, h.added no hno]

/-- Sites of the same name come to the same, whatever each of them remembers. -/
theorem resolve_fst (h : s.Alike t) (hs : s.Sound) (ht : t.Sound) {site site' : CallSite}
    (hsite : site ∈ s.sites) (hsite' : site' ∈ t.sites) (hname : site'.name = site.name)
    {c : LoadedClass} (hc : c ∈ s.classes) (hfamily : s.realm.space.HasFamily c) (arity : Nat) :
    (site'.resolve t.realm c arity).1 = (site.resolve s.realm c arity).1 := by
  have hc' : c ∈ t.classes := by
    rw [h.classes]
    exact hc
  rw [hs.resolve_outcome hsite hc hfamily, ht.resolve_outcome hsite' hc' (h.hasFamily hfamily),
    h.added c.no hfamily.self]
  unfold CallSite.outcome CallSite.missing CallSite.isConstructor
  rw [hname]

end Alike

end Session

end Metaobject
