import Metaobject.Proofs.Reflection.Session

/-!
# Coherence of remembered calls

One number guards all remembered calls: the count of changes. An entry with the current count is
right about a loaded receiver (`Session.Sound`), because every action either counts a change or
leaves alone what calls mean. An entry for a class that was unloaded, and that the cache was told to
forget afterwards, has an old count from then on (`Session.Outdated`).

The main statement is `Session.resolve_coherent`: in every state that a session reaches, a call site
returns what a new one would return.
-/

namespace Metaobject

/-! ## Entries -/

/-- An entry of a site is for a known class. If it has the current count and the class is loaded, it
holds what a call on the class means. -/
def SiteEntry.Sound (classes : List LoadedClass) (s : Realm) (name : String) (e : SiteEntry) :
    Prop :=
  ∃ c ∈ classes, e.receiver = c.no ∧ e.stamp ≤ s.cache.changes ∧
    (e.stamp = s.cache.changes → s.space.isLoaded c.no = true →
      c.meaning (s.addedTo c.no) name e.arity = some e.member)

namespace SiteEntry

variable {classes : List LoadedClass} {s t : Realm} {name : String} {e : SiteEntry}

/-- An entry that was just found is sound. -/
theorem Found.sound {c : LoadedClass} (h : e.Found s name c) (hc : c ∈ classes) :
    e.Sound classes s name :=
  ⟨c, hc, h.receiver, Nat.le_of_eq h.stamp, fun _ _ => h.member⟩

/-- An entry stays sound as long as its class keeps its members. -/
theorem Sound.ages (h : e.Sound classes s name) (hst : s.Ages t) {classes' : List LoadedClass}
    (hclasses : ∀ c ∈ classes, c ∈ classes') : e.Sound classes' t name := by
  obtain ⟨c, hc, hreceiver, hstamp, hmember⟩ := h
  refine ⟨c, hclasses c hc, hreceiver, Nat.le_trans hstamp hst.changes, ?_⟩
  intro hcurrent hloaded
  -- the stamp is neither older nor newer than both counts, so no change was counted
  have hchanges : t.cache.changes = s.cache.changes :=
    Nat.le_antisymm (hcurrent ▸ hstamp) hst.changes
  rw [hst.added hchanges c.no hloaded]
  exact hmember (hcurrent.trans hchanges) (hst.isLoaded c.no hloaded)

end SiteEntry

namespace Session

variable {α : Type} {s : Session α}

/-! ## Entries of loaded classes -/

/-- All entries of all sites are sound. -/
structure Sound (s : Session α) : Prop extends Orderly s where
  entries : ∀ site ∈ s.sites, ∀ e ∈ site.entries, e.Sound s.classes s.realm site.name

theorem start_sound (backend : ValueBackend) (permits : AccessPolicy) :
    (start backend permits : Session α).Sound where
  toOrderly := start_orderly backend permits
  entries _ hsite := absurd hsite List.not_mem_nil

/-- What every action does to a session keeps it sound. -/
theorem Sound.advances (hs : s.Sound) {t : Session α} (hadvances : s.Advances t) : t.Sound := by
  refine ⟨hadvances.orderly, ?_⟩
  intro after hafter e he
  have hsound : e.Sound s.classes s.realm after.name := by
    rcases hadvances.entries after hafter e he with ⟨before, hbefore, hname, hold⟩ | ⟨c, hc, hnew⟩
    · rw [← hname]
      exact hs.entries before hbefore e hold
    · exact hnew.sound hc
  exact hsound.ages hadvances.ages hadvances.known

theorem Sound.step (hs : s.Sound) (action : Action) : (s.step action).Sound :=
  hs.advances (step_advances hs.toOrderly action)

theorem Sound.run (hs : s.Sound) (actions : List Action) : (s.run actions).Sound := by
  induction actions generalizing s with
  | nil => exact hs
  | cons action actions ih => exact ih (hs.step action)

/-- A site gives the outcome that the class says by itself. So does a site that remembers
nothing. -/
theorem Sound.resolve_outcome (hs : s.Sound) {site : CallSite} (hsite : site ∈ s.sites)
    {c : LoadedClass} (hc : c ∈ s.classes) (hfamily : s.realm.space.HasFamily c) (arity : Nat) :
    (site.resolve s.realm c arity).1 = site.outcome (s.realm.addedTo c.no) c arity := by
  refine CallSite.resolve_outcome hs.population site arity hs.coherent hc hfamily ?_
  intro e he hreceiver hstamp
  obtain ⟨d, hd, hno, -, hmember⟩ := hs.entries site hsite e he
  have hdc : d = c := hs.population.unique d hd c hc (hno.symm.trans hreceiver)
  subst hdc
  exact hmember hstamp hfamily.self

/-! ## Entries of unloaded classes -/

/-- A class is unloaded, and what sites remember about it is older than the last change. -/
structure Outdated (s : Session α) (no : ClassNo) : Prop where
  unloaded : s.realm.space.isLoaded no = false
  entries : ∀ site ∈ s.sites, ∀ e ∈ site.entries, e.receiver = no → e.stamp < s.realm.cache.changes

/-- An outdated class stays outdated. -/
theorem Outdated.step {no : ClassNo} (h : s.Outdated no) (hs : s.Orderly) (action : Action) :
    (s.step action).Outdated no := by
  have hadvances := step_advances hs action
  refine ⟨?_, ?_⟩
  · refine Bool.eq_false_iff.mpr fun hloaded => ?_
    have hbefore := hadvances.ages.isLoaded no hloaded
    rw [h.unloaded] at hbefore
    cases hbefore
  · intro after hafter e he hreceiver
    rcases hadvances.entries after hafter e he with ⟨before, hbefore, _, hold⟩ | ⟨c, _, hnew⟩
    · exact Nat.lt_of_lt_of_le (h.entries before hbefore e hold hreceiver) hadvances.ages.changes
    · -- nothing new is found for an unloaded class
      have hloaded := hnew.loaded
      rw [← hnew.receiver, hreceiver, h.unloaded] at hloaded
      cases hloaded

/-- So it does through any number of actions. -/
theorem Outdated.run {no : ClassNo} (h : s.Outdated no) (hs : s.Orderly) (actions : List Action) :
    (s.run actions).Outdated no := by
  induction actions generalizing s with
  | nil => exact h
  | cons action actions ih => exact ih (h.step hs action) (step_advances hs action).orderly

/-- Forgetting an unloaded class counts a change. -/
theorem Sound.outdated_forget (hs : s.Sound) {no : ClassNo}
    (h : s.realm.space.isLoaded no = false) : (s.step (.forget no)).Outdated no := by
  have hchanges : (s.step (.forget no)).realm.cache.changes = s.realm.cache.changes + 1 := by
    show ((s.world.setCache 0 (s.cache.forget no)).cache 0).changes = _
    rw [World.cache_setCache hs.cached]
    rfl
  refine ⟨h, ?_⟩
  intro site hsite e he _
  obtain ⟨_, _, _, hstamp, _⟩ := hs.entries site hsite e he
  rw [hchanges]
  exact Nat.lt_succ_of_le hstamp

theorem run_append (s : Session α) (before after : List Action) :
    s.run (before ++ after) = (s.run before).run after := List.foldl_append

/-! ## Calls -/

/-- In every state that a session reaches, a call on a class that is loaded with all its ancestors
has, at every site, the outcome that it has at a new site of the same name: the same member, or the
failure to find one. A call on a class that was unloaded, and that the cache was told to forget
afterwards, fails for that reason, whatever the site remembers. -/
theorem resolve_coherent (backend : ValueBackend) (permits : AccessPolicy) (actions : List Action)
    (site : CallSite) (hsite : site ∈ ((start backend permits : Session α).run actions).sites)
    (receiver : LoadedClass) (arity : Nat) :
    let s : Session α := (start backend permits).run actions
    (receiver ∈ s.classes → s.realm.space.HasFamily receiver →
      (∀ index, (site.resolve s.realm receiver arity).1 =
        (CallSite.resolve { index, name := site.name } s.realm receiver arity).1) ∧
      ((∃ member, (site.resolve s.realm receiver arity).1 = .ok member) ∨
        (site.resolve s.realm receiver arity).1 = .error (site.missing receiver arity))) ∧
    (∀ before after, actions = before ++ .forget receiver.no :: after →
      ((start backend permits : Session α).run before).realm.space.isLoaded receiver.no = false →
      (site.resolve s.realm receiver arity).1 =
        .error (.reflection (.classUnloaded receiver.name))) := by
  intro s
  have hsound : s.Sound := (start_sound backend permits).run actions
  constructor
  · intro hreceiver hfamily
    have houtcome := hsound.resolve_outcome hsite hreceiver hfamily arity
    constructor
    · intro index
      -- a new site has no entry that could be wrong
      have hnew :=
        CallSite.resolve_outcome hsound.population { index, name := site.name } arity
        hsound.coherent
        hreceiver hfamily fun e he => absurd he List.not_mem_nil
      rw [houtcome]
      exact hnew.symm
    · rw [houtcome, CallSite.outcome]
      cases receiver.meaning (s.realm.addedTo receiver.no) site.name arity with
      | some member => exact .inl ⟨member, rfl⟩
      | none => exact .inr rfl
  · intro before after hactions hunloaded
    have hbefore : ((start backend permits : Session α).run before).Sound :=
      (start_sound backend permits).run before
    have houtdated : s.Outdated receiver.no := by
      have hforgotten := hbefore.outdated_forget hunloaded
      show ((start backend permits : Session α).run actions).Outdated receiver.no
      rw [hactions, run_append]
      exact hforgotten.run (hbefore.step _).toOrderly after
    refine CallSite.resolve_unloaded site arity houtdated.unloaded ?_
    intro e he hreceiver
    exact Nat.ne_of_lt (houtdated.entries site hsite e he hreceiver)

/-- The method of a class is called and then replaced. -/
def jobActions : List Action := [
  .addLoader,
  .addSite 0 "run",
  .define 0 { name := "Job", methods := [⟨"run", [], "void", .publicOnly⟩] },
  .resolve 0 1 0,
  .addMethod 0 ⟨"run", [], "int", .publicOnly⟩]

/-- A session in which a job is called, with more to come. -/
def jobSession (more : List Action) : Session Unit :=
  (start .slot fun _ _ => true).run (jobActions ++ more)

/-- The site remembers the replaced method, both while the class is loaded and when it is gone. -/
theorem resolve_coherent_job :
    (∃ site ∈ (jobSession []).sites, ∃ job ∈ (jobSession []).classes, site.entries.length = 1 ∧
      job.no = 1 ∧
      (site.resolve (jobSession []).realm job 0).1 =
        (CallSite.resolve { index := 0, name := site.name } (jobSession []).realm job 0).1) ∧
    (∃ site ∈ (jobSession [.unload 0 "Job", .forget 1]).sites,
      ∃ job ∈ (jobSession [.unload 0 "Job", .forget 1]).classes, site.entries.length = 1 ∧
        job.no = 1 ∧
        (site.resolve (jobSession [.unload 0 "Job", .forget 1]).realm job 0).1 =
          .error (.reflection (.classUnloaded job.name))) := by
  constructor
  · have hsites : (jobSession []).sites.any (·.entries.length == 1) = true := by decide +kernel
    have hclasses : (jobSession []).classes.any (·.no == 1) = true := by decide +kernel
    have hunloaded : (jobSession []).realm.space.unloaded = [] := by decide +kernel
    obtain ⟨site, hsite, hentries⟩ := List.any_eq_true.mp hsites
    obtain ⟨job, hjob, hno⟩ := List.any_eq_true.mp hclasses
    have hfamily : (jobSession []).realm.space.HasFamily job := by
      intro no _
      rw [ClassSpace.isLoaded, hunloaded]
      rfl
    refine ⟨site, hsite, job, hjob, beq_iff_eq.mp hentries, beq_iff_eq.mp hno, ?_⟩
    exact ((resolve_coherent .slot _ _ site hsite job 0).1 hjob hfamily).1 0
  · have hsites : (jobSession [.unload 0 "Job", .forget 1]).sites.any (·.entries.length == 1) =
      true := by
      decide +kernel
    have hclasses : (jobSession [.unload 0 "Job", .forget 1]).classes.any (·.no == 1) = true := by
      decide +kernel
    have hunloaded : (jobSession [.unload 0 "Job"]).realm.space.isLoaded 1 = false := by
      decide +kernel
    obtain ⟨site, hsite, hentries⟩ := List.any_eq_true.mp hsites
    obtain ⟨job, hjob, hno⟩ := List.any_eq_true.mp hclasses
    have hno : job.no = 1 := beq_iff_eq.mp hno
    refine ⟨site, hsite, job, hjob, beq_iff_eq.mp hentries, hno, ?_⟩
    refine (resolve_coherent .slot _ _ site hsite job 0).2 (jobActions ++ [.unload 0 "Job"]) []
      (by rw [hno]; rfl) ?_
    rw [hno]
    exact hunloaded

end Session

end Metaobject
