import Metaobject.Proofs.Completion.Passes
import Metaobject.Proofs.Dispatch.Remarking

/-!
# Completing a unit twice

A pass that finds its own work on a class leaves the class alone and reports nothing. After a run
every pass finds its work on every class it visits, so a second run changes nothing, reports nothing
and collects the same site tables.

* `enumStep_done`, `validateClass_done`, `checkDefinition_done`, `constructorStep_done`: a step does
  nothing to a class that shows its work.
* `complete_idempotent`: the second run returns what the first one did.
-/

namespace Metaobject

namespace CompilationUnit

/-! ## Steps with nothing to do -/

section Done

variable {t : ClassTable} {log : ProblemLog} {id : ClassId} {c : ClassDecl}
  (hget : t.get? id = some c)

include hget

/-- An enum that has its members is left alone. -/
theorem enumStep_done (henum : c.IsSourceEnum) (h : c.HasEnumMembers) :
    enumStep ⟨t, log⟩ id = .ok ⟨t, log⟩ := by
  have hrun : t.addEnumMembers id = .ok (t, []) := by
    rw [ClassTable.addEnumMembers, ClassTable.get_eq_ok_iff.mpr hget]
    show (if !c.isEnum || c.builtin then _ else _) = _
    rw [henum.1, henum.2]
    show (if c.isUnscopedBody then _ else _) = _
    rw [ClassDecl.HasEnumMembers] at h
    split
    · rename_i hscope
      rw [if_pos hscope] at h
      rw [Enumeration.addInit_of_has h, ClassTable.set_get? hget]
      rfl
    · rename_i hscope
      rw [if_neg hscope] at h
      rw [if_pos h]
      rfl
  exact enumStep_of hrun log

/-- A class whose usages are checked is left alone. -/
theorem validateClass_done {inline : Bool} (h : c.Checked) :
    validateClass inline ⟨t, log⟩ id = .ok ⟨t, log⟩ := by
  -- usages that were checked before report nothing and stay as they are
  have hproblems : ∀ as : List AnnotationUse, (∀ a ∈ as, a.validated = true) →
      as.mapM (·.problems t inline) = .ok (as.map fun _ => []) := by
    intro as has
    induction as with
    | nil => rfl
    | cons a as ih =>
      rw [List.mapM_cons, AnnotationUse.problems_of_validated (has a List.mem_cons_self),
        ih fun b hb => has b (List.mem_cons_of_mem _ hb)]
      rfl
  have hnothing : (c.annotationUses.map fun _ => ([] : List Problem)).flatten = [] := by simp
  have hsame : c.mapAnnotationUses (·.normalized t inline) = c :=
    ClassDecl.mapAnnotationUses_id fun a ha => AnnotationUse.normalized_of_validated (h a ha)
  show (t.get id >>= _) = _
  rw [ClassTable.get_eq_ok_iff.mpr hget]
  show (c.annotationUses.mapM (·.problems t inline) >>= _) = _
  rw [hproblems _ h]
  show Except.ok
    (⟨t.set id (c.mapAnnotationUses (·.normalized t inline)), log.addAll (List.flatten _)⟩
    : CompilationUnit) = _
  rw [hsame, hnothing, ClassTable.set_get? hget]
  rfl

/-- An annotation type whose defaults are checked is left alone. -/
theorem checkDefinition_done (h : c.DefinitionChecked) :
    checkDefinition ⟨t, log⟩ id = .ok ⟨t, log⟩ := by
  have hdone : ¬(c.isAnnotationType && !c.definitionChecked) := by
    intro hdo
    obtain ⟨hkind, hunchecked⟩ := Bool.and_eq_true_iff.mp hdo
    rw [h hkind] at hunchecked
    cases hunchecked
  show (t.get id >>= _) = _
  rw [ClassTable.get_eq_ok_iff.mpr hget]
  show (if c.isAnnotationType && !c.definitionChecked then _ else _) = _
  rw [if_neg hdone]
  rfl

/-- A class that has its constructors is left alone. -/
theorem constructorStep_done (h : c.HasConstructors) :
    constructorStep ⟨t, log⟩ id = .ok ⟨t, log⟩ := by
  have hrun : t.completeConstructors id = .ok t := by
    rw [ClassTable.completeConstructors, ClassTable.get_eq_ok_iff.mpr hget]
    show (if !c.isEnum || c.builtin then _ else _) = _
    rw [Enumeration.completeConstructors_of_has h, ClassTable.set_get? hget]
    split <;> rfl
  show (t.completeConstructors id >>= _) = _
  rw [hrun]
  rfl

end Done

/-- A pass that leaves every class alone leaves the unit alone. -/
theorem foldlM_done {step : CompilationUnit → ClassId → Except Fault CompilationUnit}
    {u : CompilationUnit} :
    {ids : List ClassId} → (∀ id ∈ ids, step u id = .ok u) → ids.foldlM step u = .ok u
  | [], _ => rfl
  | id :: ids, h => by
    rw [List.foldlM_cons, h id List.mem_cons_self]
    exact foldlM_done fun j hj => h j (List.mem_cons_of_mem _ hj)

/-- So does the pass over the usages, if the log does not stop it. -/
theorem validateClasses_done {inline : Bool} {u : CompilationUnit} (hfull : u.log.isFull = false) :
    {ids : List ClassId} → (∀ id ∈ ids, validateClass inline u id = .ok u) →
      validateClasses inline ids u = .ok u
  | [], _ => rfl
  | id :: ids, h => by
    rw [validateClasses, h id List.mem_cons_self]
    show (if u.log.isFull then _ else _) = _
    rw [hfull]
    exact validateClasses_done hfull fun j hj => h j (List.mem_cons_of_mem _ hj)

/-! ## A unit that shows the work of every pass -/

/-- Every class that a pass visits shows the work of the pass, and marking yields these site
tables. -/
structure Finished (caching : Bool) (u : CompilationUnit) (sites : List (ClassId × SiteTable)) :
    Prop where
  enums : ∀ id ∈ u.table.enumOrder, ∃ c, u.table.get? id = some c ∧ c.IsSourceEnum ∧
    c.HasEnumMembers ∧ c.HasConstructors
  sources : ∀ id ∈ u.table.sourceIds, ∃ c, u.table.get? id = some c ∧ c.Checked ∧
    c.DefinitionChecked
  marked : u.markClasses caching u.table.sourceIds = .ok (u, sites)

/-- A run over a finished unit does nothing. -/
theorem Finished.complete {settings : CompilerSettings} {u : CompilationUnit}
    {sites : List (ClassId × SiteTable)} (h : u.Finished settings.callSiteCaching sites)
    (hfull : u.log.isFull = false) : u.complete settings = .ok (u, sites) := by
  -- each of the four passes gives back the unit it is given, and then the log is still open for the
  -- next one
  have hmembers : u.addEnumMembers u.table.enumOrder = .ok u := by
    rw [addEnumMembers_eq_foldlM]
    refine foldlM_done fun id hid => ?_
    obtain ⟨c, hget, henum, hmembers, -⟩ := h.enums id hid
    exact enumStep_done hget henum hmembers
  have hannotations : validateClasses settings.inlineConstants u.table.sourceIds u = .ok u :=
    validateClasses_done hfull fun id hid => by
      obtain ⟨c, hget, hchecked, -⟩ := h.sources id hid
      exact validateClass_done hget hchecked
  have hdefinitions : u.table.sourceIds.foldlM checkDefinition u = .ok u :=
    foldlM_done fun id hid => by
    obtain ⟨c, hget, -, hdefinition⟩ := h.sources id hid
    exact checkDefinition_done hget hdefinition
  have hconstructors : u.completeConstructors u.table.enumOrder = .ok u := by
    rw [completeConstructors_eq_foldlM]
    refine foldlM_done fun id hid => ?_
    obtain ⟨c, hget, -, -, hconstructors⟩ := h.enums id hid
    exact constructorStep_done hget hconstructors
  have hopen : ¬u.log.isFull := by simp [hfull]
  rw [complete_eq hmembers, if_neg hopen, hannotations]
  show (if u.log.isFull then _ else _) = _
  rw [if_neg hopen, hdefinitions]
  show (if u.log.isFull then _ else _) = _
  rw [if_neg hopen, hconstructors]
  exact h.marked

/-! ## The second run -/

/-- The seeded classes carry no annotations. -/
theorem seeded_checked {c : ClassDecl} (h : c ∈ ClassTable.seeded.classes) : c.Checked := by
  have hnone : ∀ c ∈ ClassTable.seeded.classes, c.annotationUses.isEmpty := by decide
  intro a ha
  rw [List.isEmpty_iff.mp (hnone c h)] at ha
  cases ha

/-- Before the constructors are completed, all annotations are checked, those of the built-in
classes included. -/
theorem Preparation.all_checked {settings : CompilerSettings} {t : ClassTable}
    (P : Preparation settings t) (hn : t.Numbered)
    (hbuiltin : t.classes.filter (·.builtin) = ClassTable.seeded.classes) :
    ∀ c ∈ P.defined.classes, c.Checked := by
  intro c' hc'
  obtain ⟨id, hget'⟩ := ClassTable.mem_classes_iff.mp hc'
  obtain ⟨c, hget, hrel⟩ := P.related.exists_get? hget'
  cases hb : c.builtin with
  | true =>
    have hseeded : c ∈ ClassTable.seeded.classes := by
      rw [← hbuiltin, List.mem_filter]
      exact ⟨ClassTable.mem_classes_iff.mpr ⟨id, hget⟩, hb⟩
    exact hrel.advances.checked (seeded_checked hseeded)
  | false =>
    obtain ⟨d, hd, hchecked⟩ := P.checked id ((ClassTable.mem_sourceIds hn).mpr ⟨c, hget, hb⟩)
    obtain rfl : d = c' := Option.some.inj (hd.symm.trans hget')
    exact hchecked

/-- Running all passes a second time changes nothing, finds nothing and collects the same site
tables. -/
theorem complete_idempotent (settings : CompilerSettings) (u : CompilationUnit)
    (ht : u.table.WellFormed)
    (hbuiltin : u.table.classes.filter (·.builtin) = ClassTable.seeded.classes)
    (hlog : u.log.tolerance = 0) :
    ∃ u' sites, u.complete settings = .ok (u', sites) ∧ u'.complete settings = .ok (u', sites) := by
  obtain ⟨P⟩ := exists_preparation settings ht
  have hopen (ps : List Problem) : (u.log.addAll ps).isFull = false :=
    ProblemLog.isFull_of_unlimited (by simp [hlog])
  have henums := P.isSourceEnum ht.numbered
  obtain ⟨t₄, found, hrun₄, hrel₄, hconstructors⟩ :=
    constructorStep_spec.foldlM u.table.enumOrder P.defined
    (P.all_checked ht.numbered hbuiltin) henums
  have hrel : u.table.Related ClassDecl.Advances t₄ :=
    (P.related.mono (·.advances)).trans .trans hrel₄
  have hsource : t₄.sourceIds = u.table.sourceIds := (hrel.mono (·.header)).sourceIds
  have hpresent : ∀ id ∈ u.table.sourceIds, ∃ c, t₄.get? id = some c := by
    intro id hid
    obtain ⟨c, hget, -⟩ := (ClassTable.mem_sourceIds ht.numbered).mp hid
    obtain ⟨c', hget', -⟩ := hrel.exists_get?' hget
    exact ⟨c', hget'⟩
  obtain ⟨t₅, sites, hmark, hunmarked, hsettled, -, hagain⟩ :=
    markClasses_settles settings.callSiteCaching
    u.table.sourceIds t₄ ((hrel.mono (·.header)).finiteChains ht.chains) hpresent
  -- markers take away none of the evidence, so it all reaches the last table
  have hmarked : t₄.Related ClassDecl.Advances t₅ :=
    (ClassTable.related_of_unmarked hunmarked).mono ClassDecl.advances_of_unmarked
  have hall : P.defined.Related ClassDecl.Advances t₅ := hrel₄.trans .trans hmarked
  have hheader : u.table.Related ClassDecl.SameHeader t₅ :=
    (hrel.trans .trans hmarked).mono (·.header)
  have hfinished : Finished settings.callSiteCaching ⟨t₅, u.log.addAll P.problems⟩ sites := by
    refine ⟨?_, ?_, ?_⟩
    · show ∀ id ∈ t₅.enumOrder, ∃ c, t₅.get? id = some c ∧ _
      rw [hheader.enumOrder]
      intro id hid
      have henum := hall.keeps (.congr ·.header) (henums id hid)
      have hmembers := hall.keeps (·.members) (P.hasMembers id hid)
      have hcomplete := hmarked.keeps (·.constructors) (hconstructors id hid)
      exact ClassTable.exists_get?_and henum (ClassTable.exists_get?_and hmembers hcomplete)
    · show ∀ id ∈ t₅.sourceIds, ∃ c, t₅.get? id = some c ∧ _
      rw [hheader.sourceIds]
      intro id hid
      have hchecked := hall.keeps (·.checked) (P.checked id hid)
      exact ClassTable.exists_get?_and hchecked
        (hall.keeps (·.definition) (P.definitionChecked id hid))
    · show markClasses _ t₅.sourceIds _ = _
      rw [hheader.sourceIds]
      exact hagain t₅ _ hunmarked hsettled
  refine ⟨_, sites, ?_, hfinished.complete (hopen _)⟩
  rw [P.complete_eq (hopen _), hrun₄.completeConstructors]
  show markClasses _ t₄.sourceIds _ = _
  rw [hsource, hmark]

/-- An enum with one constant, and a usage of a class that is no annotation type. -/
def markedEnumUnit : CompilationUnit := {
  table := ClassTable.seeded.add
    { ClassDecl.empty "Color" .enum with
      superclass := some (.resolved 23 "Enum")
      fields := [⟨"RED", { isStatic := true, isFinal := true, isEnum := true },
        .resolved 25 "Color", none, [], .synthetic⟩]
      annotations := [⟨.resolved 0 "Object", [], false, .synthetic⟩] }
  log := {} }

/-- A second run finds the members and the mark of the first one. -/
theorem complete_idempotent_enum :
    ∃ u' sites, markedEnumUnit.complete {} = .ok (u', sites) ∧ u'.complete {} = .ok (u', sites) :=
  complete_idempotent {} _ ⟨⟨by decide, by decide⟩,
    by decide, ClassTable.finiteChains_of_lt (by decide)⟩ rfl rfl

end CompilationUnit

end Metaobject
