import Metaobject.Proofs.Completion.Progress

/-!
# What completing an enum leaves behind

The members of an enum are added to what the class has, and the code that is added carries no
marker; the arguments of a constant move from its initializer into the static initializer as they
are. Completed constructors are complete.

* `Enumeration.complete_prepares` and `Enumeration.addInit_prepares`: after its members are added,
  an enum has them, and no finished work is lost.
* `Enumeration.completeConstructors_advances`: the same for constructors, once the annotations are
  checked.
* `Enumeration.completeConstructors_of_has`: complete constructors are left alone.
-/

namespace Metaobject

namespace ClassDecl

/-! ## Added members -/

/-- Fields without initializer and annotations can be added. -/
theorem prepares_addFields (c : ClassDecl) (fs : List Field)
    (hfs : ∀ f ∈ fs, f.init = none ∧ f.annotations = []) :
    c.Prepares { c with fields := c.fields ++ fs } where
  header := ⟨rfl, rfl, rfl, rfl, rfl, rfl, rfl, rfl⟩
  members h := by
    refine h.mono ⟨rfl, rfl, rfl, rfl, rfl, rfl, rfl, rfl⟩ (fun _ _ h => h) fun name h => ?_
    rw [field?, List.find?_append, Option.isSome_or]
    exact Bool.or_eq_true_iff.mpr (.inl h)
  definition h := h
  uses a ha := by
    have hnone : fs.flatMap (·.annotations) = [] := List.flatMap_eq_nil_iff.mpr fun f hf =>
      (hfs f hf).2
    refine .inr ?_
    simpa [annotationUses, hnone] using ha
  bare := rfl
  marks := by
    have hnone : fs.flatMap Field.nodes = [] :=
      List.flatMap_eq_nil_iff.mpr fun f hf => by rw [Field.nodes, (hfs f hf).1]; rfl
    refine .of_subset fun v hv => ?_
    simpa [nodes, hnone] using hv

/-- Methods without annotations and markers can be added. -/
theorem prepares_addMethods (c : ClassDecl) {ms : List Method}
    (hms : ∀ m ∈ ms, m.annotations = [] ∧ (∀ p ∈ m.params, p.annotations = []) ∧
      m.nodes.all Visit.isUnmarked) :
    c.Prepares { c with methods := c.methods ++ ms } where
  header := ⟨rfl, rfl, rfl, rfl, rfl, rfl, rfl, rfl⟩
  members h := by
    refine h.mono ⟨rfl, rfl, rfl, rfl, rfl, rfl, rfl, rfl⟩ (fun name arity h => ?_) fun _ h => h
    rw [hasMethod, method?, List.find?_append, Option.isSome_or]
    exact Bool.or_eq_true_iff.mpr (.inl h)
  definition h := h
  uses a ha := by
    have hnone : (ms.flatMap fun m => m.annotations ++ m.params.flatMap (·.annotations)) = [] := by
      refine List.flatMap_eq_nil_iff.mpr fun m hm => ?_
      rw [(hms m hm).1, List.nil_append]
      exact List.flatMap_eq_nil_iff.mpr (hms m hm).2.1
    refine .inr ?_
    simpa [annotationUses, hnone] using ha
  bare := rfl
  marks := by
    have hadded : MarkedWithin (ms.flatMap Method.nodes) c.nodes := by
      refine .of_all (List.all_eq_true.mpr fun v hv => ?_)
      obtain ⟨m, hm, hv⟩ := List.mem_flatMap.mp hv
      exact List.all_eq_true.mp (hms m hm).2.2 v hv
    intro v hv
    -- the added methods stand among the nodes behind the methods of the class
    simp only [nodes, List.flatMap_append, List.mem_append] at hv
    rcases hv with ((hv | hv) | hv | hv) | hv
    · exact .inr (by simp [nodes, hv])
    · exact .inr (by simp [nodes, hv])
    · exact .inr (by simp [nodes, hv])
    · exact hadded v hv
    · exact .inr (by simp [nodes, hv])

end ClassDecl

namespace Enumeration

/-! ## Members -/

/-- Adding fields prepares a class. -/
theorem addFields_prepares (hasConstants : Bool) (self : TypeRef) (c : ClassDecl) :
    c.Prepares (addFields hasConstants self c) := by
  have hvalues :=
    c.prepares_addFields [⟨valuesField, { Modifiers.privateStaticFinal with isSynthetic := true },
    .array self, none, [], .synthetic⟩] (by simp)
  refine hvalues.trans (ClassDecl.prepares_addFields _ _ fun f hf => ?_)
  obtain ⟨name, -, rfl⟩ := List.mem_map.mp hf
  exact ⟨rfl, rfl⟩

/-- After the fields have been added, the array of constants is there. -/
theorem field?_addFields (hasConstants : Bool) (self : TypeRef) (c : ClassDecl) :
    ((addFields hasConstants self c).field? valuesField).isSome := by
  simp [addFields, ClassDecl.field?, ClassDecl.addField]

/-- Adding companion methods prepares a class. -/
theorem addCompanions_prepares (id : ClassId) (self : TypeRef) (c : ClassDecl) :
    c.Prepares (addCompanions id self c) := by
  refine c.prepares_addMethods fun m hm => ?_
  have hmem := List.mem_of_mem_filter hm
  have hall :
    ((companions id self).all fun m => m.annotations.isEmpty && m.params.all (·.annotations.isEmpty)
    && m.nodes.all Visit.isUnmarked) = true := rfl
  have := List.all_eq_true.mp hall m hmem
  simpa [and_assoc] using this

/-- Adding `$INIT` prepares a class. -/
theorem addInit_prepares (self : TypeRef) (isFinal : Bool) (c : ClassDecl) :
    c.Prepares (addInit self isFinal c) := by
  rw [addInit]
  split
  · exact .refl c
  · refine c.prepares_addMethods (List.forall_mem_singleton.mpr ⟨rfl, ?_, rfl⟩)
    simp [Param.plain]

theorem fields_addInit (self : TypeRef) (isFinal : Bool) (c : ClassDecl) :
    (addInit self isFinal c).fields = c.fields := by
  rw [addInit]
  split <;> rfl

/-- After `$INIT` has been added, it is there. -/
theorem hasMethod_addInit (self : TypeRef) (isFinal : Bool) (c : ClassDecl) :
    (addInit self isFinal c).hasMethod initMethod 1 := by
  rw [addInit]
  split
  · assumption
  · simp [ClassDecl.hasMethod, ClassDecl.method?, ClassDecl.addMethod, Method.arity]

/-- `$INIT` is not added twice. -/
theorem addInit_of_has {self : TypeRef} {isFinal : Bool} {c : ClassDecl}
    (h : c.hasMethod initMethod 1) : addInit self isFinal c = c := by
  rw [addInit, if_pos h]

/-! ## The static initializer -/

theorem visitsAll_eq_flatMap (es : List Expr) : Expr.visitsAll es = es.flatMap Expr.visits := by
  induction es with
  | nil => rfl
  | cons e es ih => rw [Expr.visitsAll, List.flatMap_cons, ih]

theorem stmtVisitsAll_append : (ss rest : List Stmt) →
    Stmt.visitsAll (ss ++ rest) = Stmt.visitsAll ss ++ Stmt.visitsAll rest
  | [], _ => rfl
  | s :: ss, rest => by
    rw [List.cons_append, Stmt.visitsAll, Stmt.visitsAll, stmtVisitsAll_append ss rest,
      List.append_assoc]

/-- The arguments of a constant stand in the initializer of its field. -/
theorem visitsAll_args_subset {t : ClassTable} {c d : ClassDecl} {p : PlannedConstant}
    (hp : p ∈ t.plannedConstants c) (hfields : c.fields ⊆ d.fields) :
    Expr.visitsAll p.args ⊆ d.nodes := by
  obtain ⟨⟨f, ordinal⟩, hf, hplan⟩ := List.mem_filterMap.mp hp
  have hfield : f ∈ c.fields := List.mem_of_mem_filter (List.fst_mem_of_mem_zipIdx hf)
  have hargs : p.args = t.callArgs c.id f := by
    dsimp only at hplan
    split at hplan
    · cases hplan
    · cases hplan
      rfl
  intro v hv
  rw [hargs, visitsAll_eq_flatMap] at hv
  obtain ⟨e, he, hv⟩ := List.mem_flatMap.mp hv
  -- an initializer is a list of arguments, or the only argument itself
  have harg : e ∈ f.constantArgs := List.mem_of_mem_filter he
  have hnode : v ∈ f.nodes := by
    rw [Field.nodes]
    unfold Field.constantArgs at harg
    split at harg
    · rename_i es span hinit
      rw [hinit]
      show v ∈ Visit.expr _ :: Expr.visitsAll es
      rw [visitsAll_eq_flatMap]
      exact List.mem_cons_of_mem _ (List.mem_flatMap.mpr ⟨e, harg, hv⟩)
    · rename_i e' _ hinit
      obtain rfl : e = e' := List.mem_singleton.mp harg
      rw [hinit]
      exact hv
    · cases harg
  rw [ClassDecl.nodes]
  simp only [List.mem_append, List.mem_flatMap]
  exact .inl (.inl (.inl ⟨f, hfields hfield, hnode⟩))

/-- The marked calls in the constructions stand in arguments of the constants. -/
theorem constructions_markedWithin (t : ClassTable) (id : ClassId) {ws : List Visit} :
    (planned : List PlannedConstant) → (∀ p ∈ planned, Expr.visitsAll p.args ⊆ ws) →
      MarkedWithin (Stmt.visitsAll (constructions t id planned)) ws
  | [], _ => .of_all rfl
  | p :: planned, h => by
    refine .append ?_
      (constructions_markedWithin t id planned fun q hq => h q (List.mem_cons_of_mem _ hq))
    -- one assignment: its own nodes are new, and below them stand the arguments
    show MarkedWithin ([Visit.stmt _, .expr _, .expr _, .expr _, .expr _, .expr _]
      ++ Expr.visitsAll p.args) ws
    exact .append (.of_all rfl) (.of_subset (h p List.mem_cons_self))

/-- The marker stores hold no marked calls. -/
theorem markerStores_unmarked (id : ClassId) (planned : List PlannedConstant) :
    (Stmt.visitsAll (markerStores id planned)).all Visit.isUnmarked := by
  unfold markerStores
  split <;> rfl

/-- The array of constants holds no marked calls. -/
theorem arrayStore_unmarked (id : ClassId) (self : TypeRef) (planned : List PlannedConstant) :
    (arrayStore id self planned).visits.all Visit.isUnmarked := by
  have helements : (Expr.visitsAll (planned.map fun p => Expr.fieldOf id p.name)).all
    Visit.isUnmarked := by
    rw [visitsAll_eq_flatMap, List.all_eq_true]
    intro v hv
    simp only [List.mem_flatMap, List.mem_map] at hv
    obtain ⟨_, ⟨p, -, rfl⟩, hv⟩ := hv
    rw [List.mem_singleton.mp hv]
    rfl
  exact helements

/-- The new static initializer prepares a class. -/
theorem addStaticInit_prepares (t : ClassTable) (id : ClassId) (self : TypeRef)
    {planned : List PlannedConstant} {c : ClassDecl}
    (h : ∀ p ∈ planned, Expr.visitsAll p.args ⊆ c.nodes) :
    c.Prepares (addStaticInit t id self planned c) where
  header := ⟨rfl, rfl, rfl, rfl, rfl, rfl, rfl, rfl⟩
  members h := h
  definition h := h
  uses _ ha := .inr ha
  bare := rfl
  marks := by
    have hstatic : MarkedWithin (Stmt.visitsAll (addStaticInit t id self planned c).staticInit)
      c.nodes := by
      rw [addStaticInit, stmtVisitsAll_append, stmtVisitsAll_append]
      refine .append
        (.append (constructions_markedWithin t id planned h) (.of_all (markerStores_unmarked ..)))
        ?_
      refine .append (.of_all (arrayStore_unmarked ..)) (.of_subset fun v hv => ?_)
      exact List.mem_append_right _ hv
    exact .append (.of_subset fun v hv => List.mem_append_left _ hv) hstatic

/-- Dropping initializers prepares a class. -/
theorem dropInitializers_prepares (c : ClassDecl) : c.Prepares (dropInitializers c) where
  header := ⟨rfl, rfl, rfl, rfl, rfl, rfl, rfl, rfl⟩
  members h := by
    refine h.mono ⟨rfl, rfl, rfl, rfl, rfl, rfl, rfl, rfl⟩ (fun _ _ h => h) fun name h => ?_
    have hname (f : Field) :
        (if f.isEnumConstant then { f with init := none } else f).name = f.name := by
      split <;> rfl
    simpa [ClassDecl.field?, dropInitializers, List.find?_map, Function.comp_def, hname] using h
  definition h := h
  uses a ha := by
    have hannotations (f : Field) :
        (if f.isEnumConstant then { f with init := none } else f).annotations = f.annotations := by
      split <;> rfl
    refine .inr ?_
    simpa [ClassDecl.annotationUses, dropInitializers, List.flatMap_map, hannotations] using ha
  bare := rfl
  -- dropping an initializer takes nodes away and adds none
  marks := by
    refine .of_subset fun v hv => ?_
    simp only [ClassDecl.nodes, List.mem_append, List.mem_flatMap] at hv ⊢
    refine Or.imp_left (Or.imp_left (Or.imp_left ?_)) hv
    rintro ⟨f', hf', hv⟩
    obtain ⟨f, hf, rfl⟩ := List.mem_map.mp hf'
    refine ⟨f, hf, ?_⟩
    split at hv
    · cases hv
    · exact hv

/-- After its members are added, an enum has them, and no finished work is lost. -/
theorem complete_prepares (t : ClassTable) (id : ClassId) {c : ClassDecl}
    (hscope : c.isUnscopedBody = false) :
    c.Prepares (complete t id c) ∧ (complete t id c).HasEnumMembers := by
  let self := t.typeRef id
  let planned := t.plannedConstants c
  let c₁ := addFields (!planned.isEmpty) self c
  let c₂ := addInit self (!t.hasConstantBodies c) (addCompanions id self c₁)
  let c₃ := addStaticInit t id self planned c₂
  let c₄ := { c₃ with
    modifiers :=
      openModifiers (t.hasConstantBodies c) (c.methods.any (·.isAbstract)) c₃.modifiers }
  -- each stage prepares the next one; the arguments of the constants are still in the fields when
  -- they are copied
  have h₁ : c.Prepares c₁ := addFields_prepares ..
  have h₁₂ : c₁.Prepares c₂ := (addCompanions_prepares id self c₁).trans (addInit_prepares ..)
  have hfields : c.fields ⊆ c₂.fields := by
    rw [fields_addInit]
    exact fun f hf => List.mem_append_left _ (List.mem_append_left _ hf)
  have h₂₃ : c₂.Prepares c₃ := addStaticInit_prepares t id self fun p hp =>
    visitsAll_args_subset hp hfields
  have h₃₄ : c₃.Prepares c₄ :=
    ⟨⟨rfl, rfl, rfl, rfl, rfl, rfl, rfl, rfl⟩, fun h => h, fun h => h, fun _ => .inr, rfl,
    .of_subset fun _ h => h⟩
  have h₄ : c₁.Prepares (dropInitializers c₄) :=
    ((h₁₂.trans h₂₃).trans h₃₄).trans (dropInitializers_prepares c₄)
  have hmembers : c₁.HasEnumMembers := by
    rw [ClassDecl.HasEnumMembers, h₁.header.isUnscopedBody, hscope]
    exact field?_addFields ..
  exact ⟨h₁.trans h₄, h₄.members hmembers⟩

/-! ## Constructors -/

/-- A constructor with hidden parameters is complete. -/
theorem isComplete_addHidden (forward : Bool) (k : Constructor) :
    (addHidden forward k).isComplete := by
  rw [addHidden]
  split
  · assumption
  · rfl

/-- A complete constructor gets no hidden parameters. -/
theorem addHidden_of_isComplete {forward : Bool} {k : Constructor} (h : k.isComplete) :
    addHidden forward k = k := by
  rw [addHidden]
  exact if_pos h

/-- The annotation usages of a constructor. -/
def constructorUses (k : Constructor) : List AnnotationUse :=
  k.annotations ++ k.params.flatMap (·.annotations)

/-- Hidden parameters carry no annotations. -/
theorem constructorUses_addHidden (forward : Bool) (k : Constructor) :
    constructorUses (addHidden forward k) = constructorUses k := by
  rw [addHidden]
  split
  · rfl
  · simp [constructorUses, Param.plain]

theorem constructorUses_subset {c : ClassDecl} {k : Constructor} (hk : k ∈ c.constructors) :
    constructorUses k ⊆ c.annotationUses :=
  fun _ ha => List.mem_append_right _ (List.mem_flatMap.mpr ⟨k, hk, ha⟩)

/-- A repeated constructor has no usages of its own. -/
theorem constructorUses_repeated (k : Constructor) :
    constructorUses (repeated k) ⊆ constructorUses k := by
  intro a ha
  have hparams : (repeated k).params ⊆ k.params := by
    show (if k.hiddenParams then k.params.drop 2 else k.params) ⊆ k.params
    split
    · exact List.drop_subset ..
    · exact fun _ h => h
  obtain ⟨p, hp, ha⟩ :=
    List.mem_flatMap.mp (show a ∈ [] ++ (repeated k).params.flatMap (·.annotations) from ha)
  exact List.mem_append_right _ (List.mem_flatMap.mpr ⟨p, hparams hp, ha⟩)

/-- The constructors that a class gets by default carry only usages of its superclass. -/
theorem validated_of_mem_defaultConstructors {t : ClassTable} {c : ClassDecl}
    (hsuper : ∀ parent, c.superId?.bind t.get? = some parent → parent.Checked) {k : Constructor}
    (hk : k ∈ defaultConstructors t c) {a : AnnotationUse} (ha : a ∈ constructorUses k) :
    a.validated = true := by
  have hplain (ks : List Constructor) (hks : (ks.all fun k => (constructorUses k).isEmpty) = true)
    (hk : k ∈ ks) :
      a.validated = true := by
    rw [List.isEmpty_iff.mp (List.all_eq_true.mp hks k hk)] at ha
    cases ha
  unfold defaultConstructors at hk
  split at hk
  · cases hparent : c.superId?.bind t.get? with
    | none =>
      rw [hparent] at hk
      exact hplain bodyConstructors rfl hk
    | some parent =>
      rw [hparent, Option.map_some] at hk
      split at hk
      · exact hplain bodyConstructors rfl hk
      · exact hplain bodyConstructors rfl hk
      · rename_i ks _ hks
        obtain ⟨k', hk', rfl⟩ := List.mem_map.mp hk
        rw [← Option.some.inj hks] at hk'
        exact hsuper parent hparent a (constructorUses_subset hk' (constructorUses_repeated k' ha))
  · exact hplain (enumConstructors c.name) rfl hk

/-- There always is a default constructor. -/
theorem defaultConstructors_ne_nil (t : ClassTable) (c : ClassDecl) :
    defaultConstructors t c ≠ [] := by
  unfold defaultConstructors
  split
  · split
    · exact List.cons_ne_nil _ _
    · exact List.cons_ne_nil _ _
    · rename_i ks hne _
      exact fun hnil => hne (List.map_eq_nil_iff.mp hnil)
  · exact List.cons_ne_nil _ _

/-- After completing, a class has complete constructors. -/
theorem hasConstructors_completeConstructors (t : ClassTable) (c : ClassDecl) :
    (completeConstructors t c).HasConstructors := by
  have hne : (if c.constructors.isEmpty then defaultConstructors t c else c.constructors) ≠ [] := by
    split
    · exact defaultConstructors_ne_nil t c
    · rename_i hempty
      simpa using hempty
  refine ⟨by simpa [completeConstructors] using hne, fun k hk => ?_⟩
  obtain ⟨k', -, rfl⟩ := List.mem_map.mp hk
  exact isComplete_addHidden ..

/-- Completing constructors makes them complete, and no finished work is lost. -/
theorem completeConstructors_advances {t : ClassTable} {c : ClassDecl}
    (hsuper : ∀ parent, c.superId?.bind t.get? = some parent → parent.Checked) :
    c.Advances (completeConstructors t c) ∧ (completeConstructors t c).HasConstructors := by
  let ks := if c.constructors.isEmpty then defaultConstructors t c else c.constructors
  have hcomplete := hasConstructors_completeConstructors t c
  -- constructors are new or copied from the superclass, and its usages have been checked too
  have hvalidated : c.Checked → ∀ k ∈ ks, ∀ a ∈ constructorUses k, a.validated = true := by
    intro hchecked k hk a ha
    by_cases hempty : c.constructors.isEmpty
    · simp only [ks, if_pos hempty] at hk
      exact validated_of_mem_defaultConstructors hsuper hk ha
    · simp only [ks, if_neg hempty] at hk
      exact hchecked a (constructorUses_subset hk ha)
  refine ⟨⟨⟨rfl, rfl, rfl, rfl, rfl, rfl, rfl, rfl⟩, fun h => h, fun hchecked a ha => ?_,
    fun h => h, fun _ => hcomplete⟩, hcomplete⟩
  rcases List.mem_append.mp ha with hold | hnew
  · exact hchecked a (List.mem_append_left _ hold)
  · obtain ⟨k, hk, ha⟩ := List.mem_flatMap.mp hnew
    obtain ⟨k', hk', rfl⟩ := List.mem_map.mp hk
    exact hvalidated hchecked k' hk' a (constructorUses_addHidden _ k' ▸ ha)

/-- Complete constructors are left alone. -/
theorem completeConstructors_of_has {t : ClassTable} {c : ClassDecl} (h : c.HasConstructors) :
    completeConstructors t c = c := by
  obtain ⟨hne, hall⟩ := h
  have hks : c.constructors.map (addHidden (c.kind = .constantBody)) = c.constructors :=
    (List.map_congr_left fun k hk => addHidden_of_isComplete (hall k hk)).trans (List.map_id' _)
  rw [completeConstructors, if_neg (by simpa using hne), hks]

end Enumeration

end Metaobject
