import Metaobject.Proofs.Reflection.Views
import Metaobject.Reflection.CallSite

/-!
# Remembered calls

What a call site returns and remembers, for a call on a known class in a coherent cache. A call that
is looked up has the outcome that the class says by itself, given the methods added to it
(`CallSite.outcome`). A remembered call has the same outcome as long as its entry is right; an entry
is made only for a loaded receiver, with the stamp of the moment (`SiteEntry.Found`).
-/

namespace Metaobject

open Viewing

/-- An entry that a site may remember now: it was found for the class `c`, which is loaded. -/
structure SiteEntry.Found (s : Realm) (name : String) (c : LoadedClass) (e : SiteEntry) : Prop where
  receiver : e.receiver = c.no
  loaded : s.space.isLoaded c.no = true
  stamp : e.stamp = s.cache.changes
  member : c.meaning (s.addedTo c.no) name e.arity = some e.member

namespace CallSite

variable {classes : List LoadedClass} {s : Realm} {c : LoadedClass}

/-- What a call comes to, given the methods that were added to the receiver class. -/
def outcome (site : CallSite) (added : List MethodHandle) (receiver : LoadedClass) (arity : Nat) :
    Except DispatchError MemberHandle :=
  match receiver.meaning added site.name arity with
  | some member => .ok member
  | none => .error (site.missing receiver arity)

/-- A member is looked up only for a loaded class, and it is the one that the class says by
itself. -/
theorem lookup_yields {live : Prop} (hpop : Population classes) (site : CallSite) (arity : Nat)
    (h : s.cache.Coherent classes) (hc : c ∈ classes) (hlive : live → s.space.HasFamily c) :
    Yields classes (site.lookup c arity) s live fun _ v =>
      s.space.isLoaded c.no = true ∧ v = c.meaning (s.addedTo c.no) site.name arity := by
  unfold lookup
  refine .bind (recordOf_yields hpop h hc fun hl => (hlive hl).self) ?_
  rintro r t ht hst ⟨⟨d, hd, rfl⟩, hfind⟩
  have hloaded : s.space.isLoaded d.cls.no = true := by
    rw [← hst.isLoaded]
    exact ClassValue.isLoaded_of_find? hfind
  -- the record may be new, but it knows of the same added methods
  have hadded : d.added = s.addedTo d.cls.no := by
    rw [← hst.added _ hloaded, Realm.addedTo, hfind]
    exact congrArg ClassRecord.added (ReflectionCache.record_of_getElem? hd).symm
  have hlive_t : live → t.space.HasFamily d.cls := fun hl => hst.hasFamily (hlive hl)
  unfold LoadedClass.meaning isConstructor
  split
  · refine (Resolution.constructor_yields arity ht ⟨d, hd, rfl⟩ hlive_t).imp ?_
    intro v _ _ _ hv
    exact ⟨hloaded, hv⟩
  · refine (Resolution.member_yields hpop site.name arity ht hd hlive_t).imp ?_
    intro v _ _ _ hv
    rw [hadded] at hv
    exact ⟨hloaded, hv⟩

/-! ## Calls that are looked up -/

/-- After a call on the class `c` the cache is still coherent, and the site remembers nothing new
but what it found. -/
structure Learns (classes : List LoadedClass) (site : CallSite) (s : Realm) (c : LoadedClass)
    (after : CallSite × Realm) : Prop where
  coherent : after.2.cache.Coherent classes
  grows : s.Grows after.2
  name : after.1.name = site.name
  entries : ∀ e ∈ after.1.entries, e ∈ site.entries ∨ e.Found s site.name c

theorem miss_eq (site : CallSite) (s : Realm) (c : LoadedClass) (arity : Nat) :
    site.miss s c arity =
      match (site.lookup c arity).run.run s with
      | (.error e, t) => (.error (.reflection e), { site with misses := site.misses + 1 }, t)
      | (.ok none, t) => (.error (site.missing c arity), { site with misses := site.misses + 1 }, t)
      | (.ok (some m), t) =>
        (.ok m, { site with misses := site.misses + 1 }.remember ⟨c.no, arity, m, s.cache.changes⟩,
          t) :=
  rfl

/-- A miss gives the member that is looked up, or reports that it is missing. -/
theorem miss_outcome (hpop : Population classes) (site : CallSite) (arity : Nat)
    (h : s.cache.Coherent classes) (hc : c ∈ classes) (hfamily : s.space.HasFamily c) :
    (site.miss s c arity).1 = site.outcome (s.addedTo c.no) c arity := by
  have hlookup := lookup_yields hpop site arity h hc fun _ : True => hfamily
  unfold Yields at hlookup
  rw [miss_eq, outcome]
  cases hrun : (site.lookup c arity).run.run s with
  | mk found t =>
    rw [hrun] at hlookup
    rcases found with e | _ | m
    · exact absurd trivial hlookup.2.2
    · rw [← hlookup.2.2.2]
    · rw [← hlookup.2.2.2]

/-- After a miss the site has learned the member. -/
theorem miss_learns (hpop : Population classes) (site : CallSite) (arity : Nat)
    (h : s.cache.Coherent classes) (hc : c ∈ classes) :
    site.Learns classes s c (site.miss s c arity).2 := by
  have hlookup := lookup_yields hpop site arity h hc False.elim
  unfold Yields at hlookup
  rw [miss_eq]
  cases hrun : (site.lookup c arity).run.run s with
  | mk found t =>
    rw [hrun] at hlookup
    rcases found with e | _ | m
    · exact ⟨hlookup.1, hlookup.2.1, rfl, fun e he => .inl he⟩
    · exact ⟨hlookup.1, hlookup.2.1, rfl, fun e he => .inl he⟩
    · obtain ⟨ht, hst, hloaded, hm⟩ := hlookup
      refine ⟨ht, hst, rfl, ?_⟩
      intro e he
      rcases List.mem_append.mp he with he | he
      · exact .inl (List.mem_of_mem_filter he)
      · rw [List.mem_singleton.mp he]
        exact .inr ⟨rfl, hloaded, rfl, hm.symm⟩

/-- A miss on an unloaded class fails. -/
theorem miss_unloaded (site : CallSite) (arity : Nat) (hc : s.space.isLoaded c.no = false) :
    (site.miss s c arity).1 = .error (.reflection (.classUnloaded c.name)) := by
  have hrun : (site.lookup c arity).run.run s = (.error (.classUnloaded c.name), s) := by
    unfold lookup
    rw [run_bind, run_recordOf_unloaded hc]
  rw [miss_eq, hrun]

/-! ## Calls that may be remembered -/

theorem entry?_eq_some {site : CallSite} {no : ClassNo} {arity : Nat} {e : SiteEntry}
    (h : site.entry? no arity = some e) : e ∈ site.entries ∧ e.receiver = no ∧ e.arity = arity := by
  have hmatch := List.find?_some h
  rw [Bool.and_eq_true, beq_iff_eq, beq_iff_eq] at hmatch
  exact ⟨List.mem_of_find?_eq_some h, hmatch⟩

/-- A site whose entries of the moment are right gives the outcome of a call that is looked up. -/
theorem resolve_outcome (hpop : Population classes) (site : CallSite) (arity : Nat)
    (h : s.cache.Coherent classes) (hc : c ∈ classes) (hfamily : s.space.HasFamily c)
    (hentries : ∀ e ∈ site.entries, e.receiver = c.no → e.stamp = s.cache.changes →
      c.meaning (s.addedTo c.no) site.name e.arity = some e.member) :
    (site.resolve s c arity).1 = site.outcome (s.addedTo c.no) c arity := by
  unfold resolve
  cases he : site.entry? c.no arity with
  | none => exact miss_outcome hpop site arity h hc hfamily
  | some e =>
    obtain ⟨hmem, hreceiver, rfl⟩ := entry?_eq_some he
    dsimp only
    split
    · rename_i hstamp
      rw [outcome, hentries e hmem hreceiver hstamp]
    · exact miss_outcome hpop { site with invalidations := site.invalidations + 1 }
        e.arity h hc hfamily

/-- A call leaves the site with what it has learned. -/
theorem resolve_learns (hpop : Population classes) (site : CallSite) (arity : Nat)
    (h : s.cache.Coherent classes) (hc : c ∈ classes) :
    site.Learns classes s c (site.resolve s c arity).2 := by
  unfold resolve
  cases site.entry? c.no arity with
  | none => exact miss_learns hpop site arity h hc
  | some e =>
    dsimp only
    split
    · exact ⟨h, .refl s, rfl, fun e he => .inl he⟩
    · have hlearns :=
        miss_learns hpop { site with invalidations := site.invalidations + 1 } arity h hc
      exact ⟨hlearns.coherent, hlearns.grows, hlearns.name, hlearns.entries⟩

/-- An unloaded receiver fails if no entry for it is of the moment. -/
theorem resolve_unloaded (site : CallSite) (arity : Nat) (hc : s.space.isLoaded c.no = false)
    (hentries : ∀ e ∈ site.entries, e.receiver = c.no → e.stamp ≠ s.cache.changes) :
    (site.resolve s c arity).1 = .error (.reflection (.classUnloaded c.name)) := by
  unfold resolve
  cases he : site.entry? c.no arity with
  | none => exact miss_unloaded site arity hc
  | some e =>
    obtain ⟨hmem, hreceiver, -⟩ := entry?_eq_some he
    dsimp only
    rw [if_neg (hentries e hmem hreceiver)]
    exact miss_unloaded { site with invalidations := site.invalidations + 1 } arity hc

end CallSite

end Metaobject
