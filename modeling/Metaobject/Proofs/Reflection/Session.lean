import Metaobject.Proofs.Reflection.Answers
import Metaobject.Proofs.Reflection.Loading
import Metaobject.Proofs.Reflection.Recall

/-!
# Sessions

A session uses one cache with any number of loaders and call sites. Its actions are everything that
can be done with them: classes are defined and unloaded, the cache describes classes, looks at them
and is told to forget them, methods are added to classes, memory runs short, and calls are resolved
and forgotten.

What any action can do is said once (`Session.step_advances`): the session stays orderly, its realm
ages, and a call site remembers nothing new but what it has just found. Ageing leaves alone what
calls on loaded classes mean, unless a change is counted (`Realm.Ages`).
-/

namespace Metaobject

/-! ## Passing of time -/

/-- What can happen to a realm. Classes are not loaded again, and as long as no change is counted,
the methods added to loaded classes stay the same. -/
structure Realm.Ages (s t : Realm) : Prop where
  isLoaded : ∀ no, t.space.isLoaded no = true → s.space.isLoaded no = true
  changes : s.cache.changes ≤ t.cache.changes
  added : t.cache.changes = s.cache.changes → ∀ no, t.space.isLoaded no = true →
    t.addedTo no = s.addedTo no

namespace Realm.Ages

variable {s t : Realm}

/-- A realm that grows ages. -/
theorem of_grows (h : s.Grows t) : s.Ages t where
  isLoaded no hno := by rw [← h.isLoaded]; exact hno
  changes := Nat.le_of_eq h.changes.symm
  added _ no hno := by
    rw [h.isLoaded] at hno
    exact h.added no hno

theorem refl (s : Realm) : s.Ages s := of_grows (.refl s)

/-- A counted change excuses everything but reloading. -/
theorem of_lt (hloaded : t.space.unloaded = s.space.unloaded)
    (h : s.cache.changes < t.cache.changes) : s.Ages t where
  isLoaded no hno := by rw [← ClassSpace.isLoaded_congr hloaded]; exact hno
  changes := Nat.le_of_lt h
  added heq := absurd heq (Nat.ne_of_gt h)

/-- New classes are no concern of the old ones. -/
theorem of_space (hcache : t.cache = s.cache) (hunloaded : t.space.unloaded = s.space.unloaded) :
    s.Ages t where
  isLoaded no hno := by rw [← ClassSpace.isLoaded_congr hunloaded]; exact hno
  changes := Nat.le_of_eq (congrArg ReflectionCache.changes hcache.symm)
  added _ no _ := addedTo_congr hcache hunloaded no

/-- Unloading a class leaves the records of all others where they are. -/
theorem unload (s : Realm) (no : ClassNo) :
    s.Ages ⟨s.space.markUnloaded no, { s.cache with infos := s.cache.infos.classUnloaded no }⟩ where
  isLoaded other hother := by
    rw [ClassSpace.isLoaded_markUnloaded, Bool.and_eq_true] at hother
    exact hother.2
  changes := Nat.le_refl _
  added _ other hother := by
    have hother' : (s.space.markUnloaded no).isLoaded other = true := hother
    have hboth := hother'
    rw [ClassSpace.isLoaded_markUnloaded, Bool.and_eq_true, bne_iff_ne] at hboth
    show ((s.cache.infos.classUnloaded no).find? (s.space.markUnloaded no) other).elim []
      (fun r => (s.cache.record r).added) = s.addedTo other
    rw [ClassValue.find?_unload, if_neg hboth.1, addedTo]

end Realm.Ages

/-! ## Worlds -/

namespace World

variable {α : Type} {w : World α} {i : Nat} {k : ReflectionCache}

theorem cache_setCache (h : i < w.caches.length) : (w.setCache i k).cache i = k := by
  unfold cache setCache
  rw [List.getElem?_set_self h]
  rfl

theorem length_setCache : (w.setCache i k).caches.length = w.caches.length := List.length_set

theorem realm_setRealm {s : Realm} (h : i < w.caches.length) : (w.setRealm i s).realm i = s := by
  unfold realm setRealm
  show (⟨s.space, (w.setCache i s.cache).cache i⟩ : Realm) = s
  rw [cache_setCache h]

end World

/-! ## Sessions -/

/-- Look at a class. What is found does not matter here. -/
def Aspect.view (c : LoadedClass) (r : RecordNo) : Aspect → Viewing Unit
  | fields => do let _ ← View.fields c r
  | constructors => do let _ ← View.constructors c r
  | methods => do let _ ← View.methods c r
  | superclass => do let _ ← View.superclass c r
  | declaredInterfaces => do let _ ← View.declaredInterfaces c r
  | allInterfaces => do let _ ← View.allInterfaces c r
  | hierarchy => do let _ ← View.hierarchy c r
  | distance => do let _ ← View.distance c r
  | field name => do let _ ← View.findField name c r
  | declaredMember name arity => do let _ ← Resolution.declaredMember c r name arity
  | member name arity => do let _ ← Resolution.member c r name arity
  | constructor arity => do let _ ← Resolution.constructor c r arity

/-- Looking at a part of a record is asking for it and ignoring the answer. -/
theorem Aspect.view_eq_ask (c : LoadedClass) (r : RecordNo) (aspect : Aspect) :
    aspect.view c r = aspect.ask c r >>= fun _ => pure () := by
  -- giving out records is only reading
  have hnamed : ∀ rs, (fun _ => ()) <$> Viewing.named rs = (pure () : Viewing Unit) := fun _ => rfl
  cases aspect <;> simp [view, ask, hnamed]

/-- Looking finds what it finds, or fails, and in either case the cache stays coherent. -/
theorem Aspect.view_yields {classes : List LoadedClass} {s : Realm} {r : RecordNo} {d : ClassRecord}
    (hpop : Population classes) (h : s.cache.Coherent classes) (hd : s.cache.records[r]? = some d)
    (aspect : Aspect) : Viewing.Yields classes (aspect.view d.cls r) s False fun _ _ => True := by
  rw [view_eq_ask]
  exact .bind (aspect.ask_yields hpop h hd False.elim) fun _ _ ht _ _ => .pure ht trivial

/-- Something that is done in a session. Loaders and sites are told by their positions, classes and
records by their numbers; an action on something that is not there does nothing. -/
inductive Action where
  | addLoader
  | addSite (index : Nat) (name : String)
  | define (loader : Nat) (d : ClassDefinition)
  | unload (loader : Nat) (name : String)
  /-- Tell the cache that a class was unloaded. -/
  | forget (no : ClassNo)
  /-- Ask the cache for the record of a class. -/
  | describe (no : ClassNo)
  | look (r : RecordNo) (aspect : Aspect)
  | addMethod (r : RecordNo) (m : MethodSignature)
  | reclaim (held : List RecordNo) (p : Pressure)
  | resolve (site : Nat) (no : ClassNo) (arity : Nat)
  | clear (site : Nat)
deriving DecidableEq, Repr

/-- One cache, with the loaders and the call sites that are used with it. -/
structure Session (α : Type) where
  /-- The cache has the number zero. -/
  world : World α
  loaders : List Loader := []
  sites : List CallSite := []
  /-- All classes that were ever loaded. -/
  classes : List LoadedClass := [.root]

namespace Session

variable {α : Type}

/-- A session with a new cache. -/
def start (backend : ValueBackend) (permits : AccessPolicy) : Session α where
  world := { caches := [.empty backend permits] }

/-- The cache of the session. -/
def cache (s : Session α) : ReflectionCache := s.world.cache 0

/-- The cache with what changes about classes. -/
def realm (s : Session α) : Realm := s.world.realm 0

/-- The class with a number. -/
def class? (s : Session α) (no : ClassNo) : Option LoadedClass := s.classes.find? (·.no == no)

/-! ### Actions -/

def addLoader (s : Session α) : Session α := { s with loaders := s.loaders ++ [{}] }

/-- Add a call site for a name. -/
def addSite (s : Session α) (index : Nat) (name : String) : Session α :=
  { s with sites := s.sites ++ [{ index, name }] }

/-- Define a class through a loader. -/
def define (s : Session α) (i : Nat) (d : ClassDefinition) : Session α :=
  match s.loaders[i]? with
  | none => s
  | some l =>
    match s.world.load l (Loading.define d) with
    | .ok (.ok c, l, world) =>
      { s with world, loaders := s.loaders.set i l, classes := s.classes ++ [c] }
    | .ok (.error _, l, world) => { s with world, loaders := s.loaders.set i l }
    | .error _ => s

/-- Unload a class from a loader. -/
def unload (s : Session α) (i : Nat) (name : String) : Session α :=
  match s.loaders[i]? with
  | none => s
  | some l =>
    let (_, l, world) := s.world.unload l name
    { s with world, loaders := s.loaders.set i l }

/-- Forget what is stored about a class. -/
def forget (s : Session α) (no : ClassNo) : Session α :=
  { s with world := s.world.setCache 0 (s.cache.forget no) }

/-- Have a record made of a class. -/
def describe (s : Session α) (no : ClassNo) : Session α :=
  match s.class? no with
  | none => s
  | some c => { s with world := (s.world.view 0 (Viewing.recordOf c)).2 }

/-- Look at a part of a record. -/
def look (s : Session α) (r : RecordNo) (aspect : Aspect) : Session α :=
  match s.cache.records[r]? with
  | none => s
  | some d => { s with world := (s.world.view 0 (aspect.view d.cls r)).2 }

/-- Add a method to the class of a record. -/
def addMethod (s : Session α) (r : RecordNo) (m : MethodSignature) : Session α :=
  { s with world := s.world.setRealm 0 (s.realm.addMethod r m).2 }

/-- Take values back; the records that are held stay in use. -/
def reclaim (s : Session α) (held : List RecordNo) (p : Pressure) : Session α :=
  { s with world := s.world.setCache 0 (s.cache.reclaim held p).1 }

/-- Call a method through a call site. -/
def resolve (s : Session α) (i : Nat) (no : ClassNo) (arity : Nat) : Session α :=
  match s.sites[i]?, s.class? no with
  | some site, some c =>
    let (_, site, world) := s.world.call 0 site c arity
    { s with world, sites := s.sites.set i site }
  | _, _ => s

/-- Clear a call site. -/
def clear (s : Session α) (i : Nat) : Session α :=
  match s.sites[i]? with
  | none => s
  | some site => { s with sites := s.sites.set i site.clear }

/-- The session after an action. -/
def step (s : Session α) : Action → Session α
  | .addLoader => s.addLoader
  | .addSite index name => s.addSite index name
  | .define i d => s.define i d
  | .unload i name => s.unload i name
  | .forget no => s.forget no
  | .describe no => s.describe no
  | .look r aspect => s.look r aspect
  | .addMethod r m => s.addMethod r m
  | .reclaim held p => s.reclaim held p
  | .resolve i no arity => s.resolve i no arity
  | .clear i => s.clear i

/-- The session after some actions. -/
def run (s : Session α) (actions : List Action) : Session α := actions.foldl step s

/-! ## What one action does -/

/-- The classes of a session belong together, loaders have them under their own names, the root is
loaded, and the cache is coherent. -/
structure Orderly (s : Session α) : Prop where
  cached : 0 < s.world.caches.length
  population : Population s.classes
  numbered : ∀ c ∈ s.classes, c.no < s.world.space.next
  registered : ∀ l ∈ s.loaders, ∀ p ∈ l.registered, p.1 = p.2.name ∧ p.2 ∈ s.classes
  rooted : s.world.space.isLoaded LoadedClass.root.no = true
  coherent : s.cache.Coherent s.classes

/-- What can happen to a session: it stays orderly, its realm ages, and whatever a site remembers
afterwards, a site of the same name remembered before or has just found. -/
structure Advances (s t : Session α) : Prop where
  orderly : t.Orderly
  known : ∀ c ∈ s.classes, c ∈ t.classes
  ages : s.realm.Ages t.realm
  entries : ∀ after ∈ t.sites, ∀ e ∈ after.entries,
    (∃ before ∈ s.sites, before.name = after.name ∧ e ∈ before.entries) ∨
      ∃ c ∈ s.classes, e.Found s.realm after.name c

variable {s : Session α}

theorem mem_of_class? {no : ClassNo} {c : LoadedClass} (h : s.class? no = some c) : c ∈ s.classes :=
  List.mem_of_find?_eq_some h

/-- The sites are left alone. -/
theorem entries_of_sites {t : Session α} (h : t.sites = s.sites) (after : CallSite)
    (hafter : after ∈ t.sites) (e : SiteEntry) (he : e ∈ after.entries) :
    (∃ before ∈ s.sites, before.name = after.name ∧ e ∈ before.entries) ∨
      ∃ c ∈ s.classes, e.Found s.realm after.name c :=
  .inl ⟨after, h ▸ hafter, rfl, he⟩

theorem Advances.refl (hs : s.Orderly) : s.Advances s where
  orderly := hs
  known _ hc := hc
  ages := .refl _
  entries := entries_of_sites rfl

namespace Orderly

/-- Only the cache and what goes with it change. -/
theorem setRealm (hs : s.Orderly) {t : Realm} (hcoherent : t.cache.Coherent s.classes)
    (hnext : t.space.next = s.world.space.next)
    (hunloaded : t.space.unloaded = s.world.space.unloaded) (hages : s.realm.Ages t) :
    s.Advances { s with world := s.world.setRealm 0 t } where
  orderly :=
    { cached := by
        show 0 < (s.world.setCache 0 t.cache).caches.length
        rw [World.length_setCache]
        exact hs.cached
      population := hs.population
      numbered := fun c hc => by
        show c.no < t.space.next
        rw [hnext]
        exact hs.numbered c hc
      registered := hs.registered
      rooted := by
        show t.space.isLoaded LoadedClass.root.no = true
        rw [ClassSpace.isLoaded_congr hunloaded]
        exact hs.rooted
      coherent := by
        show ((s.world.setRealm 0 t).realm 0).cache.Coherent s.classes
        rw [World.realm_setRealm hs.cached]
        exact hcoherent }
  known _ hc := hc
  ages := by
    show s.realm.Ages ((s.world.setRealm 0 t).realm 0)
    rw [World.realm_setRealm hs.cached]
    exact hages
  entries := entries_of_sites rfl

/-- A view advances a session. -/
theorem view {β : Type} {act : Viewing β} {live : Prop} {post : Realm → β → Prop} (hs : s.Orderly)
    (hact : Viewing.Yields s.classes act s.realm live post) :
    s.Advances { s with world := (s.world.view 0 act).2 } :=
  hs.setRealm hact.coherent hact.grows.next hact.grows.unloaded (.of_grows hact.grows)

theorem forget (hs : s.Orderly) (no : ClassNo) : s.Advances (s.forget no) := by
  refine hs.setRealm (t := ⟨s.world.space, s.cache.forget no⟩) ?_ rfl rfl
    (.of_lt rfl (Nat.lt_succ_self _))
  exact hs.coherent.of_entries rfl rfl fun p hp => List.mem_of_mem_filter hp

/-- Adding a method advances a session. -/
theorem addMethod (hs : s.Orderly) (r : RecordNo) (m : MethodSignature) :
    s.Advances (s.addMethod r m) := by
  refine hs.setRealm ?_ rfl rfl (.of_lt rfl (Nat.lt_succ_self _))
  have hupdate : (s.cache.update r fun d =>
      { d with
        added := d.added ++ [⟨.added s.world.space.addedMethods, (s.cache.record r).cls, m⟩]
        version := d.version + 1 }).Coherent s.classes := by
    refine hs.coherent.update (fun _ => rfl) ?_
    intro d hd
    have hfaithful := hs.coherent.faithful r d hd
    exact ⟨hfaithful.fields, hfaithful.constructors, hfaithful.methods, hfaithful.superclass,
      hfaithful.declaredInterfaces, hfaithful.allInterfaces, hfaithful.hierarchy,
      hfaithful.distance, { hfaithful.revocable with }⟩
  exact hupdate.of_entries rfl rfl fun p hp => hp

/-- Describing a class advances a session. -/
theorem describe (hs : s.Orderly) (no : ClassNo) : s.Advances (s.describe no) := by
  unfold Session.describe
  cases hc : s.class? no with
  | none => exact .refl hs
  | some c =>
    exact hs.view (Viewing.recordOf_yields hs.population hs.coherent (mem_of_class? hc) False.elim)

theorem look (hs : s.Orderly) (r : RecordNo) (aspect : Aspect) : s.Advances (s.look r aspect) := by
  unfold Session.look
  cases hd : s.cache.records[r]? with
  | none => exact .refl hs
  | some d =>
    exact hs.view (aspect.view_yields hs.population hs.coherent hd)

/-- What memory pressure takes away, one record after the other, leaves nothing wrong behind. -/
theorem reclaim_grows (hs : s.Orderly) (held : List RecordNo) (p : Pressure) :
    (s.cache.reclaim held p).1.Coherent s.classes ∧
      s.realm.Grows ⟨s.world.space, (s.cache.reclaim held p).1⟩ := by
  have hfold : ∀ (rs : List RecordNo) (t : Realm), t.cache.Coherent s.classes →
      (rs.foldl (fun k r => k.update r (·.reclaim p)) t.cache).Coherent s.classes ∧
        t.Grows ⟨t.space, rs.foldl (fun k r => k.update r (·.reclaim p)) t.cache⟩ := by
    intro rs
    induction rs with
    | nil => exact fun t ht => ⟨ht, .refl t⟩
    | cons r rs ih =>
      intro t ht
      have hupdate := ht.update (f := (·.reclaim p)) (fun _ => rfl) fun d hd =>
        (ht.faithful r d hd).reclaim p
      have hgrows : t.Grows ⟨t.space, t.cache.update r (·.reclaim p)⟩ :=
        .update (fun _ => rfl) fun _ => rfl
      obtain ⟨hcoherent, hrest⟩ := ih ⟨t.space, t.cache.update r (·.reclaim p)⟩ hupdate
      exact ⟨hcoherent, hgrows.trans hrest⟩
  obtain ⟨hcoherent, hgrows⟩ := hfold (s.cache.inUse held) s.realm hs.coherent
  refine ⟨hcoherent.of_entries rfl rfl fun p hp => hp, ?_⟩
  exact ⟨hgrows.next, hgrows.unloaded, hgrows.addedMethods, hgrows.changes, hgrows.describes,
    hgrows.added, hgrows.current, hgrows.new⟩

theorem reclaim (hs : s.Orderly) (held : List RecordNo) (p : Pressure) :
    s.Advances (s.reclaim held p) := by
  obtain ⟨hcoherent, hgrows⟩ := hs.reclaim_grows held p
  exact hs.setRealm (t := ⟨s.world.space, (s.cache.reclaim held p).1⟩) hcoherent rfl rfl
    (.of_grows hgrows)

theorem addLoader (hs : s.Orderly) : s.Advances s.addLoader where
  orderly := { hs with
    registered := by
      intro l hl p hp
      rcases List.mem_append.mp hl with hl | hl
      · exact hs.registered l hl p hp
      · rw [List.mem_singleton.mp hl] at hp
        rw [List.mem_singleton.mp hp]
        exact ⟨rfl, hs.population.root⟩ }
  known _ hc := hc
  ages := .refl _
  entries := entries_of_sites rfl

/-- Only the sites change. -/
theorem setSites (hs : s.Orderly) {sites : List CallSite}
    (hsites : ∀ after ∈ sites, after ∈ s.sites ∨ after.entries = []) :
    s.Advances { s with sites } where
  orderly := { hs with }
  known _ hc := hc
  ages := .refl _
  entries := by
    intro after hafter e he
    rcases hsites after hafter with hmem | hempty
    · exact .inl ⟨after, hmem, rfl, he⟩
    · rw [hempty] at he
      cases he

theorem addSite (hs : s.Orderly) (index : Nat) (name : String) :
    s.Advances (s.addSite index name) := by
  refine hs.setSites ?_
  intro after hafter
  rcases List.mem_append.mp hafter with hafter | hafter
  · exact .inl hafter
  · rw [List.mem_singleton.mp hafter]
    exact .inr rfl

theorem clear (hs : s.Orderly) (i : Nat) : s.Advances (s.clear i) := by
  unfold Session.clear
  cases s.sites[i]? with
  | none => exact .refl hs
  | some site =>
    refine hs.setSites ?_
    intro after hafter
    rcases List.mem_or_eq_of_mem_set hafter with hafter | rfl
    · exact .inl hafter
    · exact .inr rfl

/-- So does a call, whether it finds a method or not. -/
theorem resolve (hs : s.Orderly) (i : Nat) (no : ClassNo) (arity : Nat) :
    s.Advances (s.resolve i no arity) := by
  unfold Session.resolve
  cases hsite : s.sites[i]? with
  | none => exact .refl hs
  | some site =>
    cases hc : s.class? no with
    | none => exact .refl hs
    | some c =>
      have hlearns : site.Learns s.classes s.realm c (site.resolve s.realm c arity).2 :=
        site.resolve_learns hs.population arity hs.coherent (mem_of_class? hc)
      -- the realm changes as in a view; then only the site that was called has changed
      have hrealm :=
        hs.setRealm hlearns.coherent hlearns.grows.next hlearns.grows.unloaded
        (.of_grows hlearns.grows)
      refine ⟨{ hrealm.orderly with }, hrealm.known, hrealm.ages, ?_⟩
      intro after hafter e he
      rcases List.mem_or_eq_of_mem_set hafter with hafter | rfl
      · exact .inl ⟨after, hafter, rfl, he⟩
      · have hmem : site ∈ s.sites := List.mem_of_getElem? hsite
        have hname : (site.resolve s.realm c arity).2.1.name = site.name := hlearns.name
        rcases hlearns.entries e he with hold | hnew
        · exact .inl ⟨site, hmem, hname.symm, hold⟩
        · exact .inr ⟨c, mem_of_class? hc, hname ▸ hnew⟩

theorem registered_set (hs : s.Orderly) {classes : List LoadedClass} {l : Loader} (i : Nat)
    (hknown : ∀ c ∈ s.classes, c ∈ classes)
    (hl : ∀ p ∈ l.registered, p.1 = p.2.name ∧ p.2 ∈ classes) :
    ∀ l' ∈ s.loaders.set i l, ∀ p ∈ l'.registered, p.1 = p.2.name ∧ p.2 ∈ classes := by
  intro l' hl' p hp
  rcases List.mem_or_eq_of_mem_set hl' with hl' | rfl
  · exact (hs.registered l' hl' p hp).imp_right (hknown p.2)
  · exact hl p hp

theorem setLoader (hs : s.Orderly) {l : Loader} (i : Nat)
    (hl : ∀ p ∈ l.registered, p.1 = p.2.name ∧ p.2 ∈ s.classes) :
    s.Advances { s with loaders := s.loaders.set i l } where
  orderly := { hs with registered := hs.registered_set i (fun _ hc => hc) hl }
  known _ hc := hc
  ages := .refl _
  entries := entries_of_sites rfl

theorem unload (hs : s.Orderly) (i : Nat) (name : String) : s.Advances (s.unload i name) := by
  unfold Session.unload
  cases hl : s.loaders[i]? with
  | none => exact .refl hs
  | some l =>
    have hregistered := hs.registered l (List.mem_of_getElem? hl)
    dsimp only
    rcases s.world.unload_cases l name with hnone | ⟨c, hc, hname, hsome⟩
    · rw [hnone]
      exact hs.setLoader i hregistered
    · rw [hsome]
      have hrealm := World.realm_unloaded hs.cached c.no
      refine ⟨⟨?_, hs.population, hs.numbered, ?_, ?_, ?_⟩, fun _ hc => hc, ?_,
        entries_of_sites rfl⟩
      · show 0 < (s.world.caches.map _).length
        rw [List.length_map]
        exact hs.cached
      · exact hs.registered_set i (fun _ hc => hc) fun p hp => hregistered p
          (List.mem_of_mem_filter hp)
      · -- the class has another name than the root, so it is not the root
        obtain ⟨hown, hknown⟩ := hregistered (name, c) hc
        have hother : LoadedClass.root.no ≠ c.no := by
          intro hno
          rw [← hs.population.unique _ hs.population.root c hknown hno] at hown
          exact hname hown
        show (s.world.space.markUnloaded c.no).isLoaded LoadedClass.root.no = true
        rw [ClassSpace.isLoaded_markUnloaded, hs.rooted, Bool.and_true, bne_iff_ne]
        exact hother
      · have hcoherent : (({ s.world with space := s.world.space.markUnloaded c.no }.classUnloaded
            c.no).realm 0).cache.Coherent s.classes := by
          rw [hrealm]
          exact hs.coherent.of_entries rfl rfl fun p hp => ClassValue.mem_classUnloaded hp
        exact hcoherent
      · have hages :
          s.realm.Ages (({ s.world with space := s.world.space.markUnloaded c.no }.classUnloaded
            c.no).realm 0) := by
          rw [hrealm]
          exact .unload s.realm c.no
        exact hages

/-- A new class has a new number, and its parents are known. -/
theorem population_append (hs : s.Orderly) {l : Loader} {d : ClassDefinition} {c : LoadedClass}
    (hl : l ∈ s.loaders) (hc : l.classOf s.world.space.next d = .ok c) :
    Population (s.classes ++ [c]) := by
  obtain ⟨hno, hsuperclass, hinterfaces⟩ := Loader.parents_of_classOf hc
  have hregistered : ∀ name p, (name, p) ∈ l.registered → p ∈ s.classes :=
    fun name p hp => (hs.registered l hl (name, p) hp).2
  have hfresh : ∀ e ∈ s.classes, e.no ≠ c.no := by
    intro e he
    rw [hno]
    exact Nat.ne_of_lt (hs.numbered e he)
  -- in each clause the class is an old one, covered by the old clause, or the new one, whose
  -- parents come from the registered classes or are the root
  constructor
  · intro a ha b hb hab
    rcases List.mem_append.mp ha with ha | ha
    · rcases List.mem_append.mp hb with hb | hb
      · exact hs.population.unique a ha b hb hab
      · rw [List.mem_singleton.mp hb] at hab
        exact absurd hab (hfresh a ha)
    · rw [List.mem_singleton.mp ha] at hab ⊢
      rcases List.mem_append.mp hb with hb | hb
      · exact absurd hab.symm (hfresh b hb)
      · exact (List.mem_singleton.mp hb).symm
  · intro a ha p hp
    refine List.mem_append_left _ ?_
    rcases List.mem_append.mp ha with ha | ha
    · exact hs.population.superclass a ha p hp
    · rw [List.mem_singleton.mp ha] at hp
      rcases hsuperclass p hp with rfl | ⟨name, hname⟩
      · exact hs.population.root
      · exact hregistered name p hname
  · intro a ha p hp
    refine List.mem_append_left _ ?_
    rcases List.mem_append.mp ha with ha | ha
    · exact hs.population.interface a ha p hp
    · rw [List.mem_singleton.mp ha] at hp
      obtain ⟨name, hname⟩ := hinterfaces p hp
      exact hregistered name p hname
  · exact List.mem_append_left _ hs.population.root
  · intro a ha hnone
    rcases List.mem_append.mp ha with ha | ha
    · exact hs.population.top a ha hnone
    · rw [List.mem_singleton.mp ha] at hnone ⊢
      exact .inl (Loader.isInterface_of_classOf hc hnone)

/-- So does a definition, whether it succeeds or not. -/
theorem define (hs : s.Orderly) (i : Nat) (d : ClassDefinition) : s.Advances (s.define i d) := by
  unfold Session.define
  cases hl : s.loaders[i]? with
  | none => exact .refl hs
  | some l =>
    have hmem : l ∈ s.loaders := List.mem_of_getElem? hl
    have hregistered := hs.registered l hmem
    dsimp only
    rw [World.load_define]
    -- a refused definition leaves the loader as it was; an accepted one adds a class with the next
    -- free number
    cases hc : l.classOf s.world.space.next d with
    | error e => exact hs.setLoader i hregistered
    | ok c =>
      have hknown : ∀ e ∈ s.classes, e ∈ s.classes ++ [c] := fun e he => List.mem_append_left _ he
      refine ⟨⟨hs.cached, hs.population_append hmem hc, ?_, ?_, hs.rooted, hs.coherent.mono hknown⟩,
        hknown, .of_space rfl rfl, entries_of_sites rfl⟩
      · intro e he
        rcases List.mem_append.mp he with he | he
        · exact Nat.lt_succ_of_lt (hs.numbered e he)
        · rw [List.mem_singleton.mp he, (Loader.parents_of_classOf hc).1]
          exact Nat.lt_succ_self _
      · refine hs.registered_set i hknown ?_
        intro p hp
        rcases List.mem_append.mp hp with hp | hp
        · exact (hregistered p hp).imp_right (hknown p.2)
        · rw [List.mem_singleton.mp hp]
          exact ⟨rfl, List.mem_append_right _ List.mem_cons_self⟩

end Orderly

/-- What any action does. -/
theorem step_advances (hs : s.Orderly) (action : Action) : s.Advances (s.step action) := by
  cases action with
  | addLoader => exact hs.addLoader
  | addSite index name => exact hs.addSite index name
  | define i d => exact hs.define i d
  | unload i name => exact hs.unload i name
  | forget no => exact hs.forget no
  | describe no => exact hs.describe no
  | look r aspect => exact hs.look r aspect
  | addMethod r m => exact hs.addMethod r m
  | reclaim held p => exact hs.reclaim held p
  | resolve i no arity => exact hs.resolve i no arity
  | clear i => exact hs.clear i

/-- A session stays orderly through any actions. -/
theorem Orderly.run (hs : s.Orderly) (actions : List Action) : (s.run actions).Orderly := by
  induction actions generalizing s with
  | nil => exact hs
  | cons action actions ih => exact ih (step_advances hs action).orderly

/-- A session that has just started is orderly. -/
theorem start_orderly (backend : ValueBackend) (permits : AccessPolicy) :
    (start backend permits : Session α).Orderly where
  cached := Nat.one_pos
  population := by
    refine ⟨?_, ?_, ?_, List.mem_cons_self, ?_⟩
    · intro c hc d hd _
      rw [List.mem_singleton.mp hc, List.mem_singleton.mp hd]
    · intro c hc p hp
      rw [List.mem_singleton.mp hc] at hp
      cases hp
    · intro c hc p hp
      rw [List.mem_singleton.mp hc] at hp
      cases hp
    · intro c hc _
      exact .inr (List.mem_singleton.mp hc)
  numbered c hc := by
    rw [List.mem_singleton.mp hc]
    exact Nat.one_pos
  registered l hl := absurd hl List.not_mem_nil
  rooted := rfl
  coherent :=
    { isOpen := rfl
      known := by rintro r c ⟨d, hd, _⟩; cases hd
      faithful := by intro r d hd; cases hd
      current := by intro no r hr; cases hr }

end Session

end Metaobject
