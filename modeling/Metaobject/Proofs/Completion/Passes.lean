import Metaobject.Proofs.Annotation.Totality
import Metaobject.Proofs.Enumeration.Evidence

/-!
# Runs of the passes

No pass looks at the log: from the same table it makes the same table and finds the same problems,
whatever the log holds. A pass goes through the classes one after the other, so what one step does
to one class carries over to the whole pass.

* `StepSpec` says what one step does; `StepSpec.foldlM` is what a pass of such steps does.
* `StepSpec.validateClasses` is the pass over the annotations, which stops once the log is full.
* `Preparation` collects what the passes before the constructors do to a table; `exists_preparation`
  says that they end without a fault on every well-formed table.
-/

namespace Metaobject

/-- An enum of the source. -/
def ClassDecl.IsSourceEnum (c : ClassDecl) : Prop := c.isEnum = true ∧ c.builtin = false

instance : DecidablePred ClassDecl.IsSourceEnum := fun c =>
  inferInstanceAs (Decidable (c.isEnum = true ∧ c.builtin = false))

/-- Being an enum of the source is part of the header. -/
theorem ClassDecl.IsSourceEnum.congr {c c' : ClassDecl} (h : c.SameHeader c')
    (hc : c.IsSourceEnum) :
    c'.IsSourceEnum := ⟨h.isEnum.trans hc.1, h.builtin.trans hc.2⟩

/-! ## Usages refer to classes of the table -/

theorem AnnotationUse.classIds_subset_all {a : AnnotationUse} : {as : List AnnotationUse} → a ∈ as →
    a.classIds ⊆ AnnotationUse.classIdsAll as
  | b :: as, ha => by
    rcases List.mem_cons.mp ha with rfl | ha
    · exact fun _ h => List.mem_append_left _ h
    · exact fun _ h => List.mem_append_right _ (AnnotationUse.classIds_subset_all ha h)

theorem Param.annotationIds_subset (p : Param) :
    AnnotationUse.classIdsAll p.annotations ⊆ p.classIds := by
  obtain ⟨name, type, default, annotations, span⟩ := p
  cases default <;> exact fun _ h => List.mem_append_right _ h

theorem Param.classIds_subset_all {p : Param} :
    {ps : List Param} → p ∈ ps → p.classIds ⊆ Param.classIdsAll ps
  | q :: ps, hp => by
    rcases List.mem_cons.mp hp with rfl | hp
    · exact fun _ h => List.mem_append_left _ h
    · exact fun _ h => List.mem_append_right _ (Param.classIds_subset_all hp h)

/-- The class numbers in the annotations of parameters. -/
theorem Param.usesIds_subset {ps : List Param} {a : AnnotationUse}
    (ha : a ∈ ps.flatMap (·.annotations)) : a.classIds ⊆ Param.classIdsAll ps := by
  obtain ⟨p, hp, ha⟩ := List.mem_flatMap.mp ha
  exact fun _ h => Param.classIds_subset_all hp
    (p.annotationIds_subset (AnnotationUse.classIds_subset_all ha h))

/-- A class names what its usages name. -/
theorem ClassDecl.useIds_subset {c : ClassDecl} {a : AnnotationUse} (ha : a ∈ c.annotationUses) :
    a.classIds ⊆ c.classIds := by
  intro id hid
  simp only [annotationUses, List.mem_append, List.mem_flatMap] at ha
  simp only [classIds, List.mem_append, List.mem_flatMap]
  rcases ha with ((ha | ⟨f, hf, ha⟩) | ⟨m, hm, ha⟩) | ⟨k, hk, ha⟩
  · exact .inr (AnnotationUse.classIds_subset_all ha hid)
  · have hfield : id ∈ f.classIds :=
      List.mem_append_right _ (AnnotationUse.classIds_subset_all ha hid)
    exact .inl (.inl (.inl (.inl (.inr ⟨f, hf, hfield⟩))))
  · have hmethod : id ∈ m.classIds := by
      simp only [Method.classIds, List.mem_append]
      rcases ha with ha | ⟨p, hp, ha⟩
      · exact .inr (AnnotationUse.classIds_subset_all ha hid)
      · exact .inl (.inl (.inl (.inr (Param.usesIds_subset (List.mem_flatMap.mpr ⟨p, hp, ha⟩)
          hid))))
    exact .inl (.inl (.inl (.inr ⟨m, hm, hmethod⟩)))
  · have hconstructor : id ∈ k.classIds := by
      simp only [Constructor.classIds, List.mem_append]
      rcases ha with ha | ⟨p, hp, ha⟩
      · exact .inr (AnnotationUse.classIds_subset_all ha hid)
      · exact .inl (.inl (Param.usesIds_subset (List.mem_flatMap.mpr ⟨p, hp, ha⟩) hid))
    exact .inl (.inl (.inr ⟨k, hk, hconstructor⟩))

/-! ## The log -/

namespace ProblemLog

/-- A log keeps its tolerance. -/
@[simp]
theorem tolerance_addAll (log : ProblemLog) (ps : List Problem) :
    (log.addAll ps).tolerance = log.tolerance := by
  induction ps generalizing log with
  | nil => rfl
  | cons p ps ih => rw [addAll_cons, ih, tolerance_add]

/-- A full log stays full. -/
theorem isFull_addAll {log : ProblemLog} (h : log.isFull) (ps : List Problem) :
    (log.addAll ps).isFull := by
  induction ps generalizing log with
  | nil => exact h
  | cons p ps ih =>
    rw [addAll_cons, add, if_pos h]
    exact ih h

end ProblemLog

namespace CompilationUnit

/-- Whatever the log holds, the pass makes the table `t'` out of `t` and finds these problems. -/
def Reports (pass : CompilationUnit → Except Fault CompilationUnit) (t t' : ClassTable)
    (found : List Problem) : Prop :=
  ∀ log, pass ⟨t, log⟩ = .ok ⟨t', log.addAll found⟩

/-! ## Steps and passes -/

/-- What a step of a pass does. On a table that satisfies `inv` and a class that satisfies `input`,
it replaces the class by one that is related to it and satisfies `output`. -/
structure StepSpec (step : CompilationUnit → ClassId → Except Fault CompilationUnit)
    (rel : ClassDecl → ClassDecl → Prop) (inv : ClassTable → Prop) (input output : ClassDecl →
      Prop) : Prop where
  refl : ∀ c, rel c c
  trans : ∀ {c c' c''}, rel c c' → rel c' c'' → rel c c''
  inv_related : ∀ {t t'}, t.Related rel t' → inv t → inv t'
  input_rel : ∀ {c c'}, rel c c' → input c → input c'
  output_rel : ∀ {c c'}, rel c c' → output c → output c'
  step : ∀ {t id c}, inv t → t.get? id = some c → input c →
    ∃ c' found, Reports (step · id) t (t.set id c') found ∧ rel c c' ∧ output c'

namespace StepSpec

variable {step : CompilationUnit → ClassId → Except Fault CompilationUnit}
  {rel : ClassDecl → ClassDecl → Prop} {inv : ClassTable → Prop} {input output : ClassDecl → Prop}

/-- One step, seen from the table: what the rest of the pass needs holds again. -/
theorem step_table (spec : StepSpec step rel inv input output) {t : ClassTable} {id : ClassId}
    {ids : List ClassId} (hinv : inv t) (hids : ∀ j ∈ id :: ids, ∃ c, t.get? j = some c ∧ input c) :
    ∃ t' found, Reports (step · id) t t' found ∧ t.Related rel t' ∧ inv t' ∧
      (∃ c, t'.get? id = some c ∧ output c) ∧ ∀ j ∈ ids, ∃ c, t'.get? j = some c ∧ input c := by
  obtain ⟨c, hget, hinput⟩ := hids id List.mem_cons_self
  obtain ⟨c', found, hrun, hrel, houtput⟩ := spec.step hinv hget hinput
  have hrelated : t.Related rel (t.set id c') := .set spec.refl hget hrel
  refine ⟨_, found, hrun, hrelated, spec.inv_related hrelated hinv,
    ⟨c', ClassTable.get?_set_self hget c', houtput⟩, fun j hj => ?_⟩
  exact hrelated.keeps spec.input_rel (hids j (List.mem_cons_of_mem _ hj))

/-- A pass relates the tables and leaves every class it visits with its output. -/
theorem foldlM (spec : StepSpec step rel inv input output) :
    ∀ (ids : List ClassId) (t : ClassTable), inv t →
    (∀ id ∈ ids, ∃ c, t.get? id = some c ∧ input c) →
    ∃ t' found, Reports (fun u => ids.foldlM step u) t t' found ∧ t.Related rel t' ∧
      ∀ id ∈ ids, ∃ c, t'.get? id = some c ∧ output c := by
  intro ids
  induction ids with
  | nil => exact fun t _ _ => ⟨t, [], fun log => rfl, .refl spec.refl t, by simp⟩
  | cons id ids ih =>
    intro t hinv hids
    obtain ⟨t₁, found, hrun, hrelated, hinv₁, houtput, hids₁⟩ := spec.step_table hinv hids
    obtain ⟨t', rest, hrest, hrelated', hall⟩ := ih t₁ hinv₁ hids₁
    refine ⟨t', found ++ rest, fun log => ?_, hrelated.trans spec.trans hrelated', fun j hj => ?_⟩
    · have hfirst : step ⟨t, log⟩ id = .ok ⟨t₁, log.addAll found⟩ := hrun log
      show (id :: ids).foldlM step ⟨t, log⟩ = _
      rw [List.foldlM_cons, hfirst, ProblemLog.addAll_append]
      exact hrest _
    · rcases List.mem_cons.mp hj with rfl | hj
      · exact hrelated'.keeps spec.output_rel houtput
      · exact hall j hj

/-- The pass that stops when the log is full finds the first problems of the full pass. Unless it is
stopped, it does what the full pass does. -/
theorem validateClasses {inline : Bool}
    (spec : StepSpec (validateClass inline) rel inv input output) :
    ∀ (ids : List ClassId) (t : ClassTable), inv t →
      (∀ id ∈ ids, ∃ c, t.get? id = some c ∧ input c) →
    ∃ t' found, t.Related rel t' ∧ (∀ id ∈ ids, ∃ c, t'.get? id = some c ∧ output c) ∧
      ∀ log : ProblemLog, ∃ t'' early,
        validateClasses inline ids ⟨t, log⟩ = .ok ⟨t'', log.addAll early⟩ ∧
        t.Related rel t'' ∧ early <+: found ∧
          ((log.addAll early).isFull ∨ t'' = t' ∧ early = found) := by
  intro ids
  induction ids with
  | nil =>
    exact fun t _ _ => ⟨t, [], .refl spec.refl t, by simp, fun log =>
      ⟨t, [], rfl, .refl spec.refl t, List.prefix_rfl, .inr ⟨rfl, rfl⟩⟩⟩
  | cons id ids ih =>
    intro t hinv hids
    obtain ⟨t₁, found, hrun, hrelated, hinv₁, houtput, hids₁⟩ := spec.step_table hinv hids
    obtain ⟨t', rest, hrelated', hall, hcut⟩ := ih t₁ hinv₁ hids₁
    refine ⟨t', found ++ rest, hrelated.trans spec.trans hrelated', fun j hj => ?_, fun log => ?_⟩
    · rcases List.mem_cons.mp hj with rfl | hj
      · exact hrelated'.keeps spec.output_rel houtput
      · exact hall j hj
    · have hfirst : validateClass inline ⟨t, log⟩ id = .ok ⟨t₁, log.addAll found⟩ := hrun log
      rw [CompilationUnit.validateClasses, hfirst]
      -- a full log stops the pass here, with a prefix of the problems; otherwise the rest decides
      by_cases hfull : (log.addAll found).isFull
      · refine ⟨t₁, found, ?_, hrelated, List.prefix_append .., .inl hfull⟩
        show (if (log.addAll found).isFull then _ else _) = _
        rw [if_pos hfull]
        rfl
      · obtain ⟨t'', early, hrest, hrelated'', hearly, hend⟩ := hcut (log.addAll found)
        refine ⟨t'', found ++ early, ?_, hrelated.trans spec.trans hrelated'',
          (List.prefix_append_right_inj _).mpr hearly, ?_⟩
        · show (if (log.addAll found).isFull then _ else _) = _
          rw [if_neg hfull, ProblemLog.addAll_append]
          exact hrest
        · rw [ProblemLog.addAll_append]
          exact hend.imp_right fun ⟨ht, heq⟩ => ⟨ht, by rw [heq]⟩

end StepSpec

/-! ## The steps of the passes -/

/-- Give one enum its members. -/
def enumStep (u : CompilationUnit) (id : ClassId) : Except Fault CompilationUnit := do
  let (table, found) ← u.table.addEnumMembers id
  return ⟨table, u.log.addAll found⟩

theorem addEnumMembers_eq_foldlM (ids : List ClassId) (u : CompilationUnit) :
    u.addEnumMembers ids = ids.foldlM enumStep u := rfl

/-- A visit of an enum reports what adding its members reports. -/
theorem enumStep_of {t t' : ClassTable} {id : ClassId} {found : List Problem}
    (h : t.addEnumMembers id = .ok (t', found)) : Reports (enumStep · id) t t' found := by
  intro log
  show (t.addEnumMembers id >>= _) = _
  rw [h]
  rfl

/-- A visit of an enum ends with its members, and prepares it for the rest. -/
theorem enumStep_spec :
    StepSpec enumStep ClassDecl.Prepares
      (fun _ => True) ClassDecl.IsSourceEnum ClassDecl.HasEnumMembers where
  refl := .refl
  trans := .trans
  inv_related _ _ := trivial
  input_rel h := .congr h.header
  output_rel h := h.members
  step {t id c} _ hget hinput := by
    have hrun : t.addEnumMembers id = (if c.isUnscopedBody then
        .ok (t.set id (Enumeration.addInit (t.typeRef id) true c), [])
      else if (c.field? Enumeration.valuesField).isSome then .ok (t, [])
      else .ok (t.set id (Enumeration.complete t id c), t.constantProblems c)) := by
      rw [ClassTable.addEnumMembers, ClassTable.get_eq_ok_iff.mpr hget]
      show (if !c.isEnum || c.builtin then _ else _) = _
      rw [hinput.1, hinput.2]
      rfl
    -- a body without scope, an enum that has its members, and one that gets them
    split_ifs at hrun with hscope hvalues
    · refine ⟨_, [], enumStep_of hrun, Enumeration.addInit_prepares .., ?_⟩
      rw [ClassDecl.HasEnumMembers, (Enumeration.addInit_prepares _ _ c).header.isUnscopedBody,
        if_pos hscope]
      exact Enumeration.hasMethod_addInit ..
    · refine ⟨c, [], ?_, .refl c, ?_⟩
      · rw [ClassTable.set_get? hget]
        exact enumStep_of hrun
      · rw [ClassDecl.HasEnumMembers, if_neg hscope]
        exact hvalues
    · obtain ⟨hprepares, hmembers⟩ :=
        Enumeration.complete_prepares t id (Bool.not_eq_true _ ▸ hscope)
      exact ⟨_, _, enumStep_of hrun, hprepares, hmembers⟩

/-- Every annotation usage that is still to be checked refers to classes of the table. -/
def UsesKnown (t : ClassTable) : Prop :=
  t.Based ∧ ∀ c ∈ t.classes, ∀ a ∈ c.annotationUses,
    a.validated = true ∨ ∀ id ∈ a.classIds, id < t.size

/-- Preparing classes keeps their usages known. -/
theorem UsesKnown.related {t t' : ClassTable} (h : t.Related ClassDecl.Prepares t')
    (ht : UsesKnown t) : UsesKnown t' := by
  refine ⟨(h.mono (·.header)).based ht.1, fun c' hc' a ha => ?_⟩
  obtain ⟨id, hget'⟩ := ClassTable.mem_classes_iff.mp hc'
  obtain ⟨c, hget, hrel⟩ := h.exists_get? hget'
  rw [h.size_eq]
  exact (hrel.uses a ha).elim .inl fun ha => ht.2 c (ClassTable.mem_classes_iff.mpr ⟨id, hget⟩) a ha

/-- A visit ends with all usages of a class checked. -/
theorem validateClass_spec (inline : Bool) :
    StepSpec (validateClass inline) ClassDecl.Prepares UsesKnown
      (fun _ => True) ClassDecl.Checked where
  refl := .refl
  trans := .trans
  inv_related := UsesKnown.related
  input_rel _ _ := trivial
  output_rel h := h.advances.checked
  step {t id c} ht hget _ := by
    have hmem : c ∈ t.classes := ClassTable.mem_classes_iff.mpr ⟨id, hget⟩
    have hproblems : Completes (c.annotationUses.mapM (·.problems t inline)) := by
      refine .mapM fun a ha => ?_
      rcases ht.2 c hmem a ha with hvalidated | hknown
      · exact ⟨[], AnnotationUse.problems_of_validated hvalidated⟩
      · exact a.problems_completes ht.1 hknown
    obtain ⟨found, hfound⟩ := hproblems
    obtain ⟨hprepares, hchecked⟩ :=
      ClassDecl.mapAnnotationUses_prepares (AnnotationUse.validated_normalized t inline) c
    refine ⟨_, found.flatten, fun log => ?_, hprepares, hchecked⟩
    show (t.get id >>= fun c => c.annotationUses.mapM (·.problems t inline) >>= _) = _
    rw [ClassTable.get_eq_ok_iff.mpr hget]
    show (c.annotationUses.mapM (·.problems t inline) >>= _) = _
    rw [hfound]
    rfl

/-- A visit ends with the defaults of an annotation type checked. -/
theorem checkDefinition_spec :
    StepSpec checkDefinition ClassDecl.Prepares (fun _ => True) (fun _ => True)
    ClassDecl.DefinitionChecked where
  refl := .refl
  trans := .trans
  inv_related _ _ := trivial
  input_rel _ _ := trivial
  output_rel h := h.definition
  step {t id c} _ hget _ := by
    obtain ⟨found, hfound⟩ := t.definitionProblems_completes id
    obtain ⟨hprepares, hchecked⟩ := c.definitionChecked_prepares
    -- only an annotation type whose defaults are unchecked is touched; on any other class the step
    -- writes back what it read
    by_cases hdo : c.isAnnotationType && !c.definitionChecked
    · refine ⟨_, found, fun log => ?_, hprepares, hchecked⟩
      show (t.get id >>= _) = _
      rw [ClassTable.get_eq_ok_iff.mpr hget]
      show (if c.isAnnotationType && !c.definitionChecked then _ else _) = _
      rw [if_pos hdo]
      show (t.definitionProblems id >>= _) = _
      rw [hfound]
      rfl
    · refine ⟨c, [], fun log => ?_, .refl c, ?_⟩
      · show (t.get id >>= _) = _
        rw [ClassTable.get_eq_ok_iff.mpr hget, ClassTable.set_get? hget]
        show (if c.isAnnotationType && !c.definitionChecked then _ else _) = _
        rw [if_neg hdo]
        rfl
      · intro hkind
        by_contra hunchecked
        exact hdo (by simp [hkind, hunchecked])

/-- Complete the constructors of one enum. -/
def constructorStep (u : CompilationUnit) (id : ClassId) : Except Fault CompilationUnit := do
  return { u with table := ← u.table.completeConstructors id }

/-- The pass over the constructors is a fold of its steps. -/
theorem completeConstructors_eq_foldlM (ids : List ClassId) (u : CompilationUnit) :
    u.completeConstructors ids = ids.foldlM constructorStep u := by
  induction ids generalizing u with
  | nil => rfl
  | cons id ids ih =>
    rw [List.foldlM_cons, completeConstructors, List.foldlM_cons, constructorStep]
    cases hstep : u.table.completeConstructors id with
    | error e => rfl
    | ok t => exact ih ⟨t, u.log⟩

/-- The pass over the constructors is the same whatever the log. -/
theorem Reports.completeConstructors {ids : List ClassId} {t t' : ClassTable} {found : List Problem}
    (h : Reports (fun u => ids.foldlM constructorStep u) t t' found) (log : ProblemLog) :
    CompilationUnit.completeConstructors ⟨t, log⟩ ids = .ok ⟨t', log⟩ := by
  have hrun : ids.foldlM constructorStep ⟨t, log⟩ = _ := h log
  rw [← completeConstructors_eq_foldlM, CompilationUnit.completeConstructors] at hrun
  rw [CompilationUnit.completeConstructors]
  cases hfold : ids.foldlM (fun t id => t.completeConstructors id) t with
  | error e =>
    rw [hfold] at hrun
    cases hrun
  | ok t'' =>
    rw [hfold] at hrun
    obtain rfl : t'' = t' := congrArg CompilationUnit.table (Except.ok.inj hrun)
    rfl

/-- A visit of an enum of the source completes its constructors and reports nothing. -/
theorem constructorStep_of {t : ClassTable} {id : ClassId} {c : ClassDecl}
    (hget : t.get? id = some c) (hc : c.IsSourceEnum) :
    Reports (constructorStep · id) t (t.set id (Enumeration.completeConstructors t c)) [] := by
  intro log
  show (t.completeConstructors id >>= _) = _
  rw [ClassTable.completeConstructors, ClassTable.get_eq_ok_iff.mpr hget]
  show ((if !c.isEnum || c.builtin then _ else _) >>= _) = _
  rw [hc.1, hc.2]
  rfl

/-- Whatever the annotations look like, the headers stay. -/
theorem constructorStep_header : StepSpec constructorStep ClassDecl.SameHeader (fun _ => True)
    ClassDecl.IsSourceEnum (fun _ => True) where
  refl := .refl
  trans := .trans
  inv_related _ _ := trivial
  input_rel := .congr
  output_rel _ _ := trivial
  step _ hget hinput :=
    ⟨_, [], constructorStep_of hget hinput, ⟨rfl, rfl, rfl, rfl, rfl, rfl, rfl, rfl⟩, trivial⟩

/-- A visit ends with complete constructors, and loses no finished work. -/
theorem constructorStep_spec :
    StepSpec constructorStep ClassDecl.Advances (fun t => ∀ c ∈ t.classes, c.Checked)
    ClassDecl.IsSourceEnum ClassDecl.HasConstructors where
  refl := .refl
  trans := .trans
  inv_related h ht c' hc' := by
    obtain ⟨id, hget'⟩ := ClassTable.mem_classes_iff.mp hc'
    obtain ⟨c, hget, hrel⟩ := h.exists_get? hget'
    exact hrel.checked (ht c (ClassTable.mem_classes_iff.mpr ⟨id, hget⟩))
  input_rel h := .congr h.header
  output_rel h := h.constructors
  step {t id c} ht hget hinput := by
    have hsuper : ∀ parent, c.superId?.bind t.get? = some parent → parent.Checked := by
      intro parent hparent
      obtain ⟨i, -, hi⟩ := Option.bind_eq_some_iff.mp hparent
      exact ht parent (ClassTable.mem_classes_iff.mpr ⟨i, hi⟩)
    obtain ⟨hadvances, hcomplete⟩ := Enumeration.completeConstructors_advances hsuper
    exact ⟨_, [], constructorStep_of hget hinput, hadvances, hcomplete⟩

/-! ## The passes before the constructors -/

/-- The usages of a well-formed table only name classes of the table. -/
theorem UsesKnown.of_wellFormed {t : ClassTable} (ht : t.WellFormed) : UsesKnown t :=
  ⟨ht.toBased, fun c hc _ ha => .inr fun id hid =>
    ht.closed c hc id (ClassDecl.useIds_subset ha hid)⟩

/-- What the passes before the constructors make of a table: the tables between them, and what each
of them finds. -/
structure Preparation (settings : CompilerSettings) (t : ClassTable) where
  members : ClassTable
  annotated : ClassTable
  defined : ClassTable
  memberProblems : List Problem
  annotationProblems : List Problem
  definitionProblems : List Problem
  reports_members : Reports (·.addEnumMembers t.enumOrder) t members memberProblems
  related_members : t.Related ClassDecl.Prepares members
  cuts_annotations : ∀ log : ProblemLog, ∃ t' early,
    validateClasses settings.inlineConstants t.sourceIds ⟨members, log⟩ =
        .ok ⟨t', log.addAll early⟩ ∧
      members.Related ClassDecl.Prepares t' ∧ early <+: annotationProblems ∧
      ((log.addAll early).isFull ∨ t' = annotated ∧ early = annotationProblems)
  reports_definitions : Reports (fun u => t.sourceIds.foldlM checkDefinition u) annotated defined
    definitionProblems
  related : t.Related ClassDecl.Prepares defined
  hasMembers : ∀ id ∈ t.enumOrder, ∃ c, defined.get? id = some c ∧ c.HasEnumMembers
  checked : ∀ id ∈ t.sourceIds, ∃ c, defined.get? id = some c ∧ c.Checked
  definitionChecked : ∀ id ∈ t.sourceIds, ∃ c, defined.get? id = some c ∧ c.DefinitionChecked

/-- A well-formed table can be prepared. -/
theorem exists_preparation (settings : CompilerSettings) {t : ClassTable} (ht : t.WellFormed) :
    Nonempty (Preparation settings t) := by
  have hsource : ∀ id ∈ t.sourceIds, ∃ c, t.get? id = some c ∧ True := by
    intro id hid
    obtain ⟨c, hget, -⟩ := (ClassTable.mem_sourceIds ht.numbered).mp hid
    exact ⟨c, hget, trivial⟩
  have henums : ∀ id ∈ t.enumOrder, ∃ c, t.get? id = some c ∧ c.IsSourceEnum := by
    intro id hid
    obtain ⟨c, hget, hbuiltin, henum⟩ := (ClassTable.mem_enumOrder ht.numbered).mp hid
    exact ⟨c, hget, henum, hbuiltin⟩
  -- three passes in a row; each output outlives the passes that come after it
  obtain ⟨t₁, found₁, hrun₁, hrel₁, hmembers⟩ := enumStep_spec.foldlM t.enumOrder t trivial henums
  obtain ⟨t₂, found₂, hrel₂, hchecked, hcut⟩ :=
    (validateClass_spec settings.inlineConstants).validateClasses t.sourceIds
    t₁ ((UsesKnown.of_wellFormed ht).related hrel₁) fun id hid =>
      hrel₁.keeps (fun _ h => h) (hsource id hid)
  obtain ⟨t₃, found₃, hrun₃, hrel₃, hdefined⟩ := checkDefinition_spec.foldlM t.sourceIds t₂ trivial
    fun id hid => (hrel₁.trans .trans hrel₂).keeps (fun _ h => h) (hsource id hid)
  refine ⟨⟨t₁, t₂, t₃, found₁, found₂, found₃, hrun₁, hrel₁, hcut, hrun₃,
    (hrel₁.trans .trans hrel₂).trans .trans hrel₃, ?_, ?_, hdefined⟩⟩
  · exact fun id hid => (hrel₂.trans .trans hrel₃).keeps (·.members) (hmembers id hid)
  · exact fun id hid => hrel₃.keeps (·.advances.checked) (hchecked id hid)

/-! ## The whole run -/

/-- A run after the enums have their members. -/
theorem complete_eq {settings : CompilerSettings} {u u₁ : CompilationUnit}
    (h : u.addEnumMembers u.table.enumOrder = .ok u₁) : u.complete settings =
      if u₁.log.isFull then .ok (u₁, [])
      else validateClasses settings.inlineConstants u₁.table.sourceIds u₁ >>= fun u₂ =>
        if u₂.log.isFull then .ok (u₂, [])
        else u₂.table.sourceIds.foldlM checkDefinition u₂ >>= fun u₃ =>
          if u₃.log.isFull then .ok (u₃, [])
          else u₃.completeConstructors u.table.enumOrder >>= fun u₄ =>
            u₄.markClasses settings.callSiteCaching u₄.table.sourceIds := by
  rw [complete, h]
  rfl

namespace Preparation

variable {settings : CompilerSettings} {t : ClassTable} (P : Preparation settings t)

/-- The enums of the source are still there. -/
theorem isSourceEnum (hn : t.Numbered) :
    ∀ id ∈ t.enumOrder, ∃ c, P.defined.get? id = some c ∧ c.IsSourceEnum := by
  intro id hid
  obtain ⟨c, hget, hbuiltin, henum⟩ := (ClassTable.mem_enumOrder hn).mp hid
  exact P.related.keeps (.congr ·.header) ⟨c, hget, henum, hbuiltin⟩

/-- All problems of the unit: the passes that follow find none. -/
def problems : List Problem := P.memberProblems ++ P.annotationProblems ++ P.definitionProblems

/-- A run is stopped by the first problems that fill the log, or it goes on to the constructors. -/
theorem complete_cases (log : ProblemLog) :
    ∃ t' found, t.Related ClassDecl.Prepares t' ∧ found <+: P.problems ∧
    ((log.addAll found).isFull ∧ complete settings ⟨t, log⟩ = .ok (⟨t', log.addAll found⟩, []) ∨
      ¬(log.addAll P.problems).isFull ∧ complete settings ⟨t, log⟩ =
        completeConstructors ⟨P.defined, log.addAll P.problems⟩ t.enumOrder >>= fun u₄ =>
          u₄.markClasses settings.callSiteCaching u₄.table.sourceIds) := by
  have hsource₁ : P.members.sourceIds = t.sourceIds := (P.related_members.mono (·.header)).sourceIds
  have hlog : log.addAll P.problems
      = ((log.addAll P.memberProblems).addAll P.annotationProblems).addAll
        P.definitionProblems := by
    rw [problems, ProblemLog.addAll_append, ProblemLog.addAll_append]
  rw [hlog, CompilationUnit.complete_eq (P.reports_members log)]
  -- the log is looked at after each of the three passes
  by_cases hfull₁ : (log.addAll P.memberProblems).isFull
  · refine ⟨P.members, P.memberProblems, P.related_members, ?_, .inl ⟨hfull₁, if_pos hfull₁⟩⟩
    rw [problems, List.append_assoc]
    exact List.prefix_append ..
  obtain ⟨t₂, early, hannotations, hrelated, hearly, hend⟩ :=
    P.cuts_annotations (log.addAll P.memberProblems)
  have hrelated₂ : t.Related ClassDecl.Prepares t₂ := P.related_members.trans .trans hrelated
  rw [if_neg hfull₁]
  show ∃ t' found, _ ∧ _ ∧
    (_ ∧ (CompilationUnit.validateClasses _ P.members.sourceIds _ >>= _) = _ ∨
    _ ∧ (CompilationUnit.validateClasses _ P.members.sourceIds _ >>= _) = _)
  rw [hsource₁, hannotations]
  by_cases hfull₂ : ((log.addAll P.memberProblems).addAll early).isFull
  · refine ⟨t₂, P.memberProblems ++ early, hrelated₂, ?_, .inl ?_⟩
    · rw [problems, List.append_assoc, List.prefix_append_right_inj]
      exact hearly.trans (List.prefix_append ..)
    · rw [ProblemLog.addAll_append]
      exact ⟨hfull₂, if_pos hfull₂⟩
  obtain ⟨rfl, rfl⟩ := hend.resolve_left hfull₂
  have hsource₂ : P.annotated.sourceIds = t.sourceIds := (hrelated₂.mono (·.header)).sourceIds
  have hdefinitions : t.sourceIds.foldlM checkDefinition ⟨P.annotated, _⟩ = _ :=
    P.reports_definitions
    ((log.addAll P.memberProblems).addAll P.annotationProblems)
  refine ⟨P.defined, P.problems, P.related, List.prefix_rfl, ?_⟩
  show _ ∧ (if ProblemLog.isFull _ then _ else _) = _ ∨ _ ∧
    (if ProblemLog.isFull _ then _ else _) = _
  rw [if_neg hfull₂]
  show _ ∧ (P.annotated.sourceIds.foldlM checkDefinition _ >>= _) = _ ∨
    _ ∧ (P.annotated.sourceIds.foldlM checkDefinition _ >>= _) = _
  rw [hsource₂, hdefinitions, hlog]
  by_cases hfull₃ :
    (((log.addAll P.memberProblems).addAll P.annotationProblems).addAll P.definitionProblems).isFull
  · exact .inl ⟨hfull₃, if_pos hfull₃⟩
  · exact .inr ⟨hfull₃, if_neg hfull₃⟩

/-- Unless the problems fill the log, a run goes on to the constructors. -/
theorem complete_eq {log : ProblemLog} (hfull : (log.addAll P.problems).isFull = false) :
    complete settings ⟨t, log⟩ =
      completeConstructors ⟨P.defined, log.addAll P.problems⟩ t.enumOrder >>= fun u₄ =>
      u₄.markClasses settings.callSiteCaching u₄.table.sourceIds := by
  obtain ⟨t', found, -, ⟨rest, hrest⟩, ⟨hstop, -⟩ | ⟨-, hrun⟩⟩ := P.complete_cases log
  · rw [← hrest, ProblemLog.addAll_append, ProblemLog.isFull_addAll hstop] at hfull
    cases hfull
  · exact hrun

end Preparation

end CompilationUnit

end Metaobject
