import Metaobject.Proofs.Reflection.Overriding

/-!
# The interfaces in a hierarchy

A cache keeps the interfaces of a class apart from its hierarchy, and computes each of the two lists
from the lists of the parents. A class stands in its own hierarchy but among its interfaces only if
it is one, and the root is added to the hierarchy of an interface. All the same, the interfaces of a
class are the interfaces in its hierarchy, in the same order.

The reason is that the choice of the first of each class commutes with the choice of interfaces
(`LoadedClass.filter_distinct`): a class is told by its number, so that all of its occurrences go or
none.

* `LoadedClass.allInterfaces_eq_filter`: by induction from the parents to the class.
* `Session.interfaces_filter_hierarchy`: the two lists that a session finds, whatever parts of
  records it keeps.
-/

namespace Metaobject

namespace LoadedClass

variable {classes : List LoadedClass} {c d p : LoadedClass}

/-- Choosing the distinct classes and choosing the interfaces can be done in either order. -/
theorem filter_distinct (c : LoadedClass) (keep : LoadedClass → Bool) {cs : List LoadedClass}
    (hunique : ∀ d ∈ cs, ∀ e ∈ cs, d.no = e.no → d = e) :
    (c.distinct cs).filter keep = c.distinct (cs.filter keep) := by
  induction cs using List.reverseRecOn with
  | nil => rfl
  | append_singleton cs d ih =>
    have hcs : ∀ e ∈ cs, e ∈ cs ++ [d] := fun e he => List.mem_append_left _ he
    have hd : d ∈ cs ++ [d] := by simp
    have ih := ih fun a ha b hb => hunique a (hcs a ha) b (hcs b hb)
    rw [distinct_concat_eq, List.filter_append, List.filter_append, ih]
    by_cases hkeep : keep d = true
    · -- an earlier occurrence is the same class, so it is kept as well
      have hseen : d.no ∈ (cs.filter keep).map no ↔ d.no ∈ cs.map no := by
        refine ⟨fun h => List.map_subset _ (List.filter_subset_self _) h, fun h => ?_⟩
        obtain ⟨e, he, hno⟩ := List.mem_map.mp h
        obtain rfl : e = d := hunique e (hcs e he) d hd hno
        exact List.mem_map_of_mem (List.mem_filter.mpr ⟨he, hkeep⟩)
      rw [List.filter_cons_of_pos hkeep, List.filter_nil, distinct_concat_eq]
      by_cases hleft : d.no = c.no ∨ d.no ∈ cs.map no
      · rw [if_pos hleft, if_pos (hleft.imp_right hseen.mpr), List.filter_nil]
      · rw [if_neg hleft, if_neg (mt (Or.imp_right hseen.mp) hleft), List.filter_cons_of_pos hkeep,
          List.filter_nil]
    · rw [List.filter_cons_of_neg hkeep, List.filter_nil, List.append_nil]
      split
      · simp
      · rw [List.filter_cons_of_neg hkeep, List.filter_nil, List.append_nil]

theorem interfacesOfAll_eq_flatMap (cs : List LoadedClass) :
    interfacesOfAll cs = cs.flatMap allInterfaces := by
  induction cs with
  | nil => rfl
  | cons c cs ih => rw [interfacesOfAll, List.flatMap_cons, ih]

/-- The inherited interfaces are those of the parents, each once. -/
theorem inheritedInterfaces_eq (c : LoadedClass) :
    c.inheritedInterfaces = c.distinct (c.listedParents.flatMap allInterfaces) := by
  have hsuper : interfacesOf c.superclass = c.superclass.toList.flatMap allInterfaces := by
    cases c.superclass with
    | none => rfl
    | some p => exact (List.flatMap_singleton ..).symm
  rw [inheritedInterfaces, listedParents, List.flatMap_append, interfacesOfAll_eq_flatMap, hsuper]

theorem allInterfaces_eq_filter (hpop : Population classes) (c : LoadedClass) :
    c ∈ classes → c.allInterfaces = c.lineage.filter isInterface := by
  induction c using parent_induction with
  | step c ih =>
    intro hc
    have hparents : ∀ p ∈ c.listedParents, p ∈ classes := fun p hp =>
      mem_classes_of_mem_parents hpop hc (mem_listedParents.mp hp)
    -- filtering commutes with dropping repetitions because the number tells known classes apart
    have hknown : ∀ d ∈ c.listedParents.flatMap lineage ++ (if c.isInterface then [root] else []),
      d ∈ classes := by
      intro d hd
      rcases List.mem_append.mp hd with hd | hd
      · obtain ⟨p, hp, hd⟩ := List.mem_flatMap.mp hd
        exact ((mem_lineage_iff hpop p (hparents p hp) d).mp hd).1
      · split at hd
        · rw [List.mem_singleton.mp hd]
          exact hpop.root
        · cases hd
    have hroot : (if c.isInterface then [root] else []).filter isInterface = [] := by
      split <;> rfl
    have hinherited : c.ancestors.filter isInterface = c.inheritedInterfaces := by
      rw [ancestors_eq, inheritedInterfaces_eq,
        filter_distinct c _ fun d hd e he => hpop.unique d (hknown d hd) e (hknown e he),
        List.filter_append, hroot, List.append_nil, List.filter_flatMap]
      exact congrArg c.distinct
        (List.flatMap_congr fun p hp => (ih p (mem_listedParents.mp hp) (hparents p hp)).symm)
    rw [allInterfaces_eq, lineage_eq, List.filter_cons, hinherited]

/-- A list of classes holds the interfaces of a hierarchy, thus no class twice, and the class of the
hierarchy just if it is an interface. -/
structure ListsInterfaces (c : LoadedClass) (hierarchy interfaces : List LoadedClass) : Prop where
  eq_filter : interfaces = hierarchy.filter isInterface
  nodup : (interfaces.map no).Nodup
  self : c ∈ interfaces ↔ c.isInterface = true

/-- The lineage and the interfaces of a class belong together. -/
theorem listsInterfaces_lineage (hpop : Population classes) (hc : c ∈ classes) :
    c.ListsInterfaces c.lineage c.allInterfaces := by
  have heq := allInterfaces_eq_filter hpop c hc
  refine ⟨heq, ?_, ?_⟩
  · rw [heq]
    exact (isHierarchy_lineage hpop hc).nodup.sublist (List.filter_sublist.map no)
  · rw [heq, lineage_eq, List.mem_filter, and_iff_right List.mem_cons_self]

end LoadedClass

namespace Session

variable {α : Type}

/-- In every state that a session reaches, the interfaces of a class that is loaded with all its
ancestors are the interfaces in its hierarchy, in the same order, through the current record of the
class and through any others. -/
theorem interfaces_filter_hierarchy (backend : ValueBackend) (permits : AccessPolicy)
    (actions : List Action) (c : LoadedClass)
    (hc : c ∈ ((start backend permits : Session α).run actions).classes)
    (hfamily : ((start backend permits : Session α).run actions).realm.space.HasFamily c) :
    let s : Session α := (start backend permits).run actions
    (∃ hierarchy interfaces,
      (Viewing.recordOf c >>= View.hierarchy c).FindsClasses s.realm hierarchy ∧
      (Viewing.recordOf c >>= View.allInterfaces c).FindsClasses s.realm interfaces ∧
      c.ListsInterfaces hierarchy interfaces) ∧
    ∀ r q, s.cache.Describes r c → s.cache.Describes q c →
      ∃ hierarchy interfaces, (View.hierarchy c r).FindsClasses s.realm hierarchy ∧
        (View.allInterfaces c q).FindsClasses s.realm interfaces ∧
          c.ListsInterfaces hierarchy interfaces := by
  intro s
  have hs : s.Orderly := (start_orderly backend permits).run actions
  have hlists := LoadedClass.listsInterfaces_lineage hs.population hc
  have hhierarchy (r : RecordNo) (t : Realm) (ht : t.cache.Coherent s.classes)
    (hr : t.cache.Describes r c)
      (hloaded : t.space.HasFamily c) :
      Viewing.Yields s.classes (View.hierarchy c r) t True fun u v =>
        List.Forall₂ u.cache.Describes v c.lineage :=
    View.hierarchy_yields hs.population c r t ht hr fun _ => hloaded
  have hinterfaces (r : RecordNo) (t : Realm) (ht : t.cache.Coherent s.classes)
    (hr : t.cache.Describes r c)
      (hloaded : t.space.HasFamily c) :
      Viewing.Yields s.classes (View.allInterfaces c r) t True fun u v =>
        List.Forall₂ u.cache.Describes v c.allInterfaces :=
    View.allInterfaces_yields hs.population c r t ht hr fun _ => hloaded
  refine ⟨⟨c.lineage, c.allInterfaces, (hs.current_yields hc hfamily hhierarchy).findsClasses,
    (hs.current_yields hc hfamily hinterfaces).findsClasses, hlists⟩, ?_⟩
  intro r q hr hq
  exact ⟨c.lineage, c.allInterfaces, (hhierarchy r s.realm hs.coherent hr hfamily).findsClasses,
    (hinterfaces q s.realm hs.coherent hq hfamily).findsClasses, hlists⟩

/-- An interface that extends a class, in a diamond. In the end the hierarchies are kept, and the
lists of interfaces were taken back. -/
def pluginActions : List Action := [
  .addLoader,
  .define 0 { name := "Named", modifiers := ClassDefinition.interfaceModifiers },
  .define 0 { name := "Model", interfaces := ["Named"] },
  .define 0
    { name := "Sized", modifiers := ClassDefinition.interfaceModifiers, interfaces := ["Named"] },
  .define 0
    { name := "Plugin"
      modifiers := ClassDefinition.interfaceModifiers
      superclass := some "Model"
      interfaces := ["Sized"] },
  .define 0 { name := "Tool", superclass := some "Model", interfaces := ["Plugin"] },
  .describe 5,
  .look 0 .hierarchy,
  .reclaim [0] .low,
  .look 0 .allInterfaces,
  .reclaim [0] .high,
  .look 0 .hierarchy]

/-- Of the six classes in the hierarchy, the three interfaces are found, in their order. -/
theorem interfaces_filter_hierarchy_tool :
    let s : Session Unit := (start .slot fun _ _ => true).run pluginActions
    ∃ tool ∈ s.classes, tool.no = 5 ∧ s.realm.space.HasFamily tool ∧ s.cache.Describes 0 tool ∧
      ∃ hierarchy interfaces, (View.hierarchy tool 0).FindsClasses s.realm hierarchy ∧
        (View.allInterfaces tool 0).FindsClasses s.realm interfaces ∧
        hierarchy.map (·.name) = ["Tool", "Plugin", "Sized", "Named", "Object", "Model"] ∧
        interfaces.map (·.name) = ["Plugin", "Sized", "Named"] := by
  intro s
  have hs : s.Orderly := (start_orderly _ _).run pluginActions
  have hrecord : (s.cache.records[0]?).any (fun d => d.cls.no == 5 &&
      d.cls.lineage.map (·.name) == ["Tool", "Plugin", "Sized", "Named", "Object", "Model"] &&
      (d.cls.lineage.filter (·.isInterface)).map (·.name) == ["Plugin", "Sized", "Named"]) =
        true := by
    decide +kernel
  obtain ⟨d, hd, htool⟩ := (Option.any_eq_true _ _).mp hrecord
  simp only [Bool.and_eq_true, beq_iff_eq] at htool
  obtain ⟨⟨hno, hlineage⟩, hinterfaces⟩ := htool
  have hdescribes : s.cache.Describes 0 d.cls := ⟨d, hd, rfl⟩
  have hmem : d.cls ∈ s.classes := hs.coherent.known 0 d.cls hdescribes
  have hfamily : s.realm.space.HasFamily d.cls := by
    intro no _
    have hunloaded : s.realm.space.unloaded = [] := by decide +kernel
    rw [ClassSpace.isLoaded, hunloaded]
    rfl
  obtain ⟨hierarchy, interfaces, hfound, hfound', hlists⟩ :=
    (interfaces_filter_hierarchy .slot _ pluginActions d.cls hmem hfamily).2
      0 0 hdescribes hdescribes
  obtain rfl := hfound.unique (hs.finds_hierarchy hdescribes hfamily)
  rw [← hlists.eq_filter] at hinterfaces
  exact ⟨d.cls, hmem, hno, hfamily, hdescribes, _, interfaces, hfound, hfound', hlineage,
    hinterfaces⟩

end Session

end Metaobject
