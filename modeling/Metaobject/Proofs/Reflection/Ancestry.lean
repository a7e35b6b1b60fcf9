import Mathlib.Data.List.Induction
import Metaobject.Proofs.Reflection.Session

/-!
# Ancestors and assignability

Two things are said about what a class derives from. Its hierarchy merges the hierarchies of its
parents and lists every class once; assignability searches the parents for a class. Both come to the
same classes, whatever diamonds the parents form, because every class has the root among its
ancestors: a class that is no interface has a superclass, and the hierarchy of an interface ends
with the root.

* `LoadedClass.parent_induction`: induction from the parents of a class to the class.
* `LoadedClass.mem_lineage_iff`: the lineage of a class holds the known classes that the class
  derives from.
* `Session.hierarchy_assignable`: what a session finds as the hierarchy of a class, whatever parts
  of records it keeps.
-/

namespace Metaobject

namespace LoadedClass

/-! ## Parents -/

/-- The superclass and the interfaces. -/
def parents (c : LoadedClass) : List LoadedClass := c.superclass.toList ++ c.interfaces

theorem mem_parents {c p : LoadedClass} : p ∈ c.parents ↔ p ∈ c.superclass ∨ p ∈ c.interfaces := by
  simp [parents]

/-- The parents of a known class are known. -/
theorem mem_classes_of_mem_parents {classes : List LoadedClass} (hpop : Population classes)
    {c p : LoadedClass} (hc : c ∈ classes) (hp : p ∈ c.parents) : p ∈ classes := by
  rcases mem_parents.mp hp with hp | hp
  · exact hpop.superclass c hc p hp
  · exact hpop.interface c hc p hp

theorem sizeOf_lt_of_mem_parents {c p : LoadedClass} (h : p ∈ c.parents) : sizeOf p < sizeOf c := by
  obtain ⟨_, _, _, superclass, interfaces, _, _, _⟩ := c
  rcases mem_parents.mp h with hp | hp
  · have hsuper : superclass = some p := hp
    subst hsuper
    simp only [LoadedClass.mk.sizeOf_spec, Option.some.sizeOf_spec]
    omega
  · have hmem := List.sizeOf_lt_of_mem (show p ∈ interfaces from hp)
    simp only [LoadedClass.mk.sizeOf_spec]
    omega

/-- What passes from the parents of a class to the class is true of all classes. -/
theorem parent_induction {motive : LoadedClass → Prop}
    (step : ∀ c, (∀ p ∈ c.parents, motive p) → motive c) (c : LoadedClass) : motive c :=
  step c fun p _ => parent_induction step p
termination_by sizeOf c
decreasing_by exact sizeOf_lt_of_mem_parents ‹_›

theorem anyDerivesFrom_eq_any (goal : ClassNo) (cs : List LoadedClass) :
    anyDerivesFrom goal cs = cs.any (derivesFrom goal) := by
  induction cs with
  | nil => rfl
  | cons c cs ih => rw [anyDerivesFrom, List.any_cons, ih]

/-- A class derives from the root, from itself, and from what its parents derive from. -/
theorem derivesFrom_iff {c : LoadedClass} {goal : ClassNo} :
    c.derivesFrom goal = true ↔ goal = 0 ∨ goal = c.no ∨ ∃ p ∈ c.parents,
      p.derivesFrom goal = true := by
  rw [derivesFrom_eq, anyDerivesFrom_eq_any]
  cases hp : c.superclass <;> simp [parents, hp, or_assoc]

/-! ## Distinct classes -/

/-- A class is added to the distinct ones unless it is there already or is the class itself. -/
theorem distinct_concat (c d : LoadedClass) (cs : List LoadedClass) :
    c.distinct (cs ++ [d]) =
      if d.no = c.no || (c.distinct cs).any (·.no == d.no) then c.distinct cs
        else c.distinct cs ++ [d] := by
  unfold distinct
  rw [List.foldl_append]
  rfl

/-- No number is lost but that of the class itself. -/
theorem mem_map_no_distinct {c : LoadedClass} {cs : List LoadedClass} {n : ClassNo} :
    n ∈ (c.distinct cs).map no ↔ n ∈ cs.map no ∧ n ≠ c.no := by
  induction cs using List.reverseRecOn with
  | nil => simp [distinct]
  | append_singleton cs d ih =>
    rw [distinct_concat]
    split
    · rename_i hleft
      rw [ih, List.map_append, List.mem_append, List.map_singleton, List.mem_singleton]
      -- the class was left out because its number is that of `c`, or was there already
      have hd : n = d.no → n ≠ c.no → n ∈ cs.map no := by
        rintro rfl hne
        rw [Bool.or_eq_true, decide_eq_true_eq, List.any_eq_true] at hleft
        obtain ⟨e, he, hno⟩ := hleft.resolve_left hne
        have hmem : d.no ∈ (c.distinct cs).map no := List.mem_map.mpr ⟨e, he, beq_iff_eq.mp hno⟩
        exact (ih.mp hmem).1
      constructor
      · rintro ⟨hn, hne⟩
        exact ⟨.inl hn, hne⟩
      · rintro ⟨hn | hn, hne⟩
        · exact ⟨hn, hne⟩
        · exact ⟨hd hn hne, hne⟩
    · rename_i hkept
      rw [List.map_append, List.mem_append, ih, List.map_append, List.mem_append,
        List.map_singleton, List.mem_singleton]
      have hd : d.no ≠ c.no := fun h => hkept (by simp [h])
      constructor
      · rintro (⟨hn, hne⟩ | rfl)
        · exact ⟨.inl hn, hne⟩
        · exact ⟨.inr rfl, hd⟩
      · rintro ⟨hn | hn, hne⟩
        · exact .inl ⟨hn, hne⟩
        · exact .inr hn

/-- The distinct classes have different numbers. -/
theorem nodup_map_no_distinct (c : LoadedClass) (cs : List LoadedClass) :
    ((c.distinct cs).map no).Nodup := by
  induction cs using List.reverseRecOn with
  | nil => simp [distinct]
  | append_singleton cs d ih =>
    rw [distinct_concat]
    split
    · exact ih
    · rename_i hkept
      have hnew : d.no ∉ (c.distinct cs).map no := by
        intro hmem
        obtain ⟨e, he, hno⟩ := List.mem_map.mp hmem
        have hany : (c.distinct cs).any (·.no == d.no) = true :=
          List.any_eq_true.mpr ⟨e, he, beq_iff_eq.mpr hno⟩
        exact hkept (by rw [hany, Bool.or_true])
      rw [List.map_append, List.map_singleton, List.nodup_append]
      refine ⟨ih, by simp, ?_⟩
      intro a ha b hb
      rw [List.mem_singleton.mp hb]
      rintro rfl
      exact hnew ha

/-! ## The lineage -/

theorem lineageOfAll_eq_flatMap (cs : List LoadedClass) : lineageOfAll cs = cs.flatMap lineage := by
  induction cs with
  | nil => rfl
  | cons c cs ih => rw [lineageOfAll, List.flatMap_cons, ih]

/-- What the ancestors are chosen from: the lineages of the parents, and for an interface the
root. -/
theorem mem_candidates {c d : LoadedClass} :
    d ∈ lineageOfAll c.interfaces ++ lineageOf c.superclass
      ++ (if c.isInterface then [root] else []) ↔
      (∃ p ∈ c.parents, d ∈ p.lineage) ∨ c.isInterface = true ∧ d = root := by
  rw [List.mem_append, List.mem_append, lineageOfAll_eq_flatMap, List.mem_flatMap]
  cases hp : c.superclass <;> cases c.isInterface <;> simp [parents, hp, lineageOf, or_comm]

/-- Among classes that are told apart by number, only the class itself is left out. -/
theorem mem_ancestors {classes : List LoadedClass} (hpop : Population classes) {c d : LoadedClass}
    (hparents : ∀ p ∈ c.parents, ∀ e ∈ p.lineage, e ∈ classes) (hne : d.no ≠ c.no)
    (hd : (∃ p ∈ c.parents, d ∈ p.lineage) ∨ c.isInterface = true ∧ d = root) :
    d ∈ c.ancestors := by
  have hknown : ∀ e, ((∃ p ∈ c.parents, e ∈ p.lineage) ∨ c.isInterface = true ∧ e = root) →
    e ∈ classes := by
    rintro e (⟨p, hp, he⟩ | ⟨-, rfl⟩)
    · exact hparents p hp e he
    · exact hpop.root
  have hno : d.no ∈ c.ancestors.map no :=
    mem_map_no_distinct.mpr ⟨List.mem_map.mpr ⟨d, mem_candidates.mpr hd, rfl⟩, hne⟩
  obtain ⟨e, he, hed⟩ := List.mem_map.mp hno
  have hcandidate := mem_candidates.mp (mem_of_mem_distinct he)
  rw [← hpop.unique e (hknown e hcandidate) d (hknown d hd) hed]
  exact he

/-- The lineage of a class is what it derives from. -/
theorem mem_lineage_iff {classes : List LoadedClass} (hpop : Population classes) (c : LoadedClass) :
    c ∈ classes → ∀ d, d ∈ c.lineage ↔ d ∈ classes ∧ c.derivesFrom d.no = true := by
  induction c using parent_induction with
  | step c ih =>
    intro hc d
    have hmem : ∀ p ∈ c.parents, p ∈ classes := fun p hp => mem_classes_of_mem_parents hpop hc hp
    have hparents : ∀ p ∈ c.parents, ∀ e ∈ p.lineage, e ∈ classes :=
      fun p hp e he => ((ih p hp (hmem p hp) e).mp he).1
    rw [lineage_eq, List.mem_cons]
    constructor
    · rintro (rfl | hd)
      · exact ⟨hc, derivesFrom_self d⟩
      · rcases mem_candidates.mp (mem_of_mem_distinct hd) with ⟨p, hp, hd⟩ | ⟨-, rfl⟩
        · obtain ⟨hknown, hderives⟩ := (ih p hp (hmem p hp) d).mp hd
          exact ⟨hknown, derivesFrom_iff.mpr (.inr (.inr ⟨p, hp, hderives⟩))⟩
        · exact ⟨hpop.root, derivesFrom_root c⟩
    · rintro ⟨hd, hderives⟩
      by_cases hno : d.no = c.no
      · exact .inl (hpop.unique d hd c hc hno)
      · refine .inr (mem_ancestors hpop hparents hno ?_)
        rcases derivesFrom_iff.mp hderives with hzero | hself | ⟨p, hp, hderives⟩
        · -- the root is above every parent, and an interface without parents names it itself
          obtain rfl : d = root := hpop.unique d hd root hpop.root hzero
          cases hsuper : c.superclass with
          | some p =>
            have hp : p ∈ c.parents := mem_parents.mpr (.inl hsuper)
            exact .inl ⟨p, hp, (ih p hp (hmem p hp) root).mpr ⟨hd, derivesFrom_root p⟩⟩
          | none =>
            rcases hpop.top c hc hsuper with hinterface | rfl
            · exact .inr ⟨hinterface, rfl⟩
            · exact absurd rfl hno
        · exact absurd hself hno
        · exact .inl ⟨p, hp, (ih p hp (hmem p hp) d).mpr ⟨hd, hderives⟩⟩

/-- A list of classes is the hierarchy of a class: the class stands first, nothing is listed twice,
and the list holds exactly the known classes that values of the class can be assigned to. -/
structure IsHierarchy (known : List LoadedClass) (c : LoadedClass) (cs : List LoadedClass) :
    Prop where
  head : cs.head? = some c
  nodup : (cs.map no).Nodup
  mem_iff : ∀ x, x ∈ cs ↔ x ∈ known ∧ x.isAssignableFrom c = true

/-- The lineage of a class is a hierarchy of it. -/
theorem isHierarchy_lineage {classes : List LoadedClass} (hpop : Population classes)
    {c : LoadedClass} (hc : c ∈ classes) : c.IsHierarchy classes c.lineage where
  head := by rw [lineage_eq, List.head?_cons]
  nodup := by
    rw [lineage_eq, List.map_cons, List.nodup_cons]
    exact ⟨fun hself => (mem_map_no_distinct.mp hself).2 rfl, nodup_map_no_distinct c _⟩
  mem_iff := mem_lineage_iff hpop c hc

end LoadedClass

/-! ## Records -/

/-- A computation succeeds, and the records that it finds describe these classes. -/
def Viewing.FindsClasses (x : Viewing (List RecordNo)) (s : Realm) (cs : List LoadedClass) : Prop :=
  ∃ rs t, x.run.run s = (.ok rs, t) ∧ rs.map (fun r => (t.cache.record r).cls) = cs

/-- A view that yields records of some classes finds these classes. -/
theorem Viewing.Yields.findsClasses {classes : List LoadedClass} {x : Viewing (List RecordNo)}
    {s : Realm} {cs : List LoadedClass}
    (h : Yields classes x s True fun t v => List.Forall₂ t.cache.Describes v cs) :
    x.FindsClasses s cs := by
  unfold Yields at h
  cases hrun : x.run.run s with
  | mk found t =>
    rw [hrun] at h
    cases found with
    | error e => exact absurd trivial h.2.2
    | ok rs => exact ⟨rs, t, hrun, ReflectionCache.map_cls_of_describes h.2.2⟩

namespace Session

variable {α : Type}

/-- In every state that a session reaches, the hierarchy of a class that is loaded with all its
ancestors is found, both through the current record of the class and through any other, and it
agrees with assignability. A kept hierarchy never lists the class of its record. -/
theorem hierarchy_assignable (backend : ValueBackend) (permits : AccessPolicy)
    (actions : List Action) (c : LoadedClass)
    (hc : c ∈ ((start backend permits : Session α).run actions).classes)
    (hfamily : ((start backend permits : Session α).run actions).realm.space.HasFamily c) :
    let s : Session α := (start backend permits).run actions
    (∃ cs, (Viewing.recordOf c >>= View.hierarchy c).FindsClasses s.realm cs ∧
      c.IsHierarchy s.classes cs) ∧
    (∀ r, s.cache.Describes r c →
      ∃ cs, (View.hierarchy c r).FindsClasses s.realm cs ∧ c.IsHierarchy s.classes cs) ∧
    ∀ (r : RecordNo) d v, s.cache.records[r]? = some d → d.hierarchy.value = some v →
      ∀ q ∈ v, (s.cache.record q).cls.no ≠ d.cls.no := by
  intro s
  have hs : s.Orderly := (start_orderly backend permits).run actions
  have hlineage := LoadedClass.isHierarchy_lineage hs.population hc
  refine ⟨⟨c.lineage, ?_, hlineage⟩, ?_, ?_⟩
  · have hyields : Viewing.Yields s.classes (Viewing.recordOf c >>= View.hierarchy c) s.realm True
      fun t v =>
        List.Forall₂ t.cache.Describes v c.lineage := by
      refine .bind (Viewing.recordOf_yields hs.population hs.coherent hc fun _ => hfamily.self) ?_
      intro r t ht hst hr
      exact View.hierarchy_yields hs.population c r t ht hr.1 fun _ => hst.hasFamily hfamily
    exact hyields.findsClasses
  · intro r hr
    exact ⟨c.lineage,
      (View.hierarchy_yields hs.population c r s.realm hs.coherent hr fun _ =>
      hfamily).findsClasses, hlineage⟩
  · intro r d v hd hv q hq
    have hkept := (hs.coherent.faithful r d hd).hierarchy v hv
    obtain ⟨e, he, hqe⟩ := hkept.flip.exists_of_mem_right hq
    have hdescribes : s.cache.Describes q e := hqe
    rw [hdescribes.record_cls]
    exact (LoadedClass.mem_map_no_distinct.mp (List.mem_map.mpr ⟨e, he, rfl⟩)).2

/-- Two ways lead from `Child` to `Top`; one hierarchy is kept, the other ones were taken back. -/
def diamondActions : List Action := [
  .addLoader,
  .define 0 { name := "Top", modifiers := ClassDefinition.interfaceModifiers },
  .define 0
    { name := "Left", modifiers := ClassDefinition.interfaceModifiers, interfaces := ["Top"] },
  .define 0
    { name := "Right", modifiers := ClassDefinition.interfaceModifiers, interfaces := ["Top"] },
  .define 0 { name := "Parent", interfaces := ["Left"] },
  .define 0 { name := "Child", superclass := some "Parent", interfaces := ["Right"] },
  .describe 5,
  .look 0 .hierarchy,
  .reclaim [] .low,
  .describe 4,
  .look 1 .hierarchy]

/-- A hierarchy of `Child` is found along both ways. -/
theorem hierarchy_assignable_diamond :
    let s : Session Unit := (start .slot fun _ _ => true).run diamondActions
    ∃ child ∈ s.classes, child.no = 5 ∧ s.realm.space.HasFamily child ∧
      ∃ cs, (Viewing.recordOf child >>= View.hierarchy child).FindsClasses s.realm cs ∧
        child.IsHierarchy s.classes cs := by
  intro s
  have hclasses : s.classes.any (·.no == 5) = true := by decide +kernel
  have hunloaded : s.realm.space.unloaded = [] := by decide +kernel
  obtain ⟨child, hchild, hno⟩ := List.any_eq_true.mp hclasses
  have hfamily : s.realm.space.HasFamily child := by
    intro no _
    rw [ClassSpace.isLoaded, hunloaded]
    rfl
  exact ⟨child, hchild, beq_iff_eq.mp hno, hfamily,
    (hierarchy_assignable .slot _ _ child hchild hfamily).1⟩

end Session

end Metaobject
