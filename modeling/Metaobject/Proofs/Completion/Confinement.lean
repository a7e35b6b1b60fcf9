import Metaobject.Proofs.Completion.Steps
import Metaobject.Proofs.Dispatch.Confinement
import Metaobject.Proofs.Enumeration.Confinement

/-!
# Completion stays inside the table

A unit whose classes mention classes of the table only is completed without a fault: no absent class
is ever looked up. The classes that result mention classes of the table only, so the unit can be
completed again.

* `AnnotationUse.below_normalized`: a checked usage mentions nothing new.
* `ClassTable.Rewrites.below` and `ClassTable.Steps.confined`: one step, whatever the pass, and any
  number of them.
* `CompilationUnit.complete_confined`: a whole run.
-/

namespace Metaobject

variable {n : Nat} {calls : Bool} {t : ClassTable} {inline : Bool}

/-! ## Annotations -/

/-- A folded reference mentions no more than before. -/
theorem ClassTable.below_fold_of_ne_list {e : Expr} (he : ∀ es span, e ≠ .list es span)
    (h : Below n (e.mentions calls)) : Below n ((t.fold e).mentions calls) := by
  rw [fold]
  · -- either a literal, which mentions nothing, or the expression itself
    split
    · exact below_nil
    · exact h
  · exact he

mutual

/-- Folding mentions no more classes than before. -/
theorem ClassTable.below_fold :
    (e : Expr) → Below n (e.mentions calls) → Below n ((t.fold e).mentions calls)
  | .list es _, h => ClassTable.below_foldAll es h
  | .constant .., h | .var .., h | .property .., h | .field .., h | .classRef .., h | .closure .., h
  | .map .., h | .entry .., h | .annotationUse .., h | .call .., h | .staticCall .., h
  | .construct .., h | .binary .., h | .ternary .., h | .index .., h | .spread .., h | .array .., h
  | .assign .., h =>
    ClassTable.below_fold_of_ne_list (fun _ _ => Expr.noConfusion) h

theorem ClassTable.below_foldAll : (es : List Expr) → Below n (Expr.mentionsAll calls es) →
    Below n (Expr.mentionsAll calls (t.foldAll es))
  | [], h => h
  | e :: es, h => by
    rw [Expr.mentionsAll, below_append] at h
    exact below_append.mpr ⟨ClassTable.below_fold e h.1, ClassTable.below_foldAll es h.2⟩

end

/-- So does folding where constants need not be folded. -/
theorem ClassTable.below_foldIf {e : Expr} (h : Below n (e.mentions calls)) :
    Below n ((t.foldIf inline e).mentions calls) := by
  rw [foldIf]
  split
  · exact t.below_fold e h
  · exact h

/-- Wrapping a value into lists mentions nothing new. -/
theorem Expr.below_wrapped {e : Expr} (h : Below n (e.mentions calls)) (type : TypeRef) :
    Below n ((e.wrapped type).mentions calls) := by
  induction type with
  | array c ih => simpa [Expr.wrapped, Expr.mentions] using ih
  | _ => exact h

mutual

/-- A settled value mentions no more classes than before. -/
theorem Expr.below_normalizedAt : (e : Expr) → (type : TypeRef) → Below n (e.mentions calls) →
    Below n ((e.normalizedAt t inline type).mentions calls)
  | .list es s, type, h => by
    cases type with
    | array c =>
      rw [Expr.normalizedAt]
      exact Expr.below_normalizedAllAt es c h
    | _ =>
      rw [Expr.normalizedAt]
      · exact ClassTable.below_foldIf h
      · rintro _ ⟨⟩
  | .closure ps body cs s, type, h => by
    rw [Expr.normalizedAt]
    exact h
  | .annotationUse a, type, h => by
    rw [Expr.normalizedAt]
    split
    · refine Expr.below_wrapped ?_ type
      split
      · exact a.below_normalized h
      · exact h
    · exact Expr.below_wrapped h type
  | .constant .., type, h | .var .., type, h | .property .., type, h | .field .., type, h
  | .classRef .., type, h | .map .., type, h | .entry .., type, h | .call .., type, h
  | .staticCall .., type, h | .construct .., type, h | .binary .., type, h | .ternary .., type, h
  | .index .., type, h | .spread .., type, h | .array .., type, h | .assign .., type, h =>
    Expr.below_wrapped (ClassTable.below_foldIf h) type

theorem Expr.below_normalizedAllAt :
    (es : List Expr) → (type : TypeRef) → Below n (Expr.mentionsAll calls es) →
    Below n (Expr.mentionsAll calls (Expr.normalizedAllAt t inline type es))
  | [], _, h => h
  | e :: es, type, h => by
    rw [Expr.mentionsAll, below_append] at h
    exact below_append.mpr ⟨e.below_normalizedAt type h.1, Expr.below_normalizedAllAt es type h.2⟩

/-- A checked usage mentions nothing that it did not mention before. -/
theorem AnnotationUse.below_normalized : (a : AnnotationUse) → Below n (a.mentions calls) →
    Below n ((a.normalized t inline).mentions calls)
  | ⟨type, members, validated, span⟩, h => by
    rw [AnnotationUse.normalized]
    split
    · exact h
    · split
      · exact h
      · rename_i c _
        rw [AnnotationUse.mentions, below_append] at h
        exact below_append.mpr ⟨h.1, AnnotationUse.below_normalizedMembers c members h.2⟩

theorem AnnotationUse.below_normalizedMembers (c : ClassDecl) : (members : List (String × Expr)) →
    Below n (AnnotationUse.memberMentions calls members) →
    Below n
      (AnnotationUse.memberMentions calls (AnnotationUse.normalizedMembers t inline c members))
  | [], h => h
  | (name, value) :: rest, h => by
    rw [AnnotationUse.memberMentions, below_append] at h
    refine below_append.mpr ⟨?_, AnnotationUse.below_normalizedMembers c rest h.2⟩
    split
    · exact h.1
    · exact value.below_normalizedAt _ h.1

end

/-- What leaves every usage below the bound leaves the class below it. -/
theorem ClassDecl.below_mapAnnotationUses {f : AnnotationUse → AnnotationUse}
    (hf : ∀ a, Below n (a.mentions calls) → Below n ((f a).mentions calls)) {c : ClassDecl}
    (hc : Below n (c.mentions calls)) : Below n ((c.mapAnnotationUses f).mentions calls) := by
  have husages {as : List AnnotationUse} (h : ∀ a ∈ as, Below n (a.mentions calls)) :
      ∀ a ∈ as.map f, Below n (a.mentions calls) :=
        List.forall_mem_map.mpr fun a ha => hf a (h a ha)
  have hparams {ps : List Param} (h : ∀ p ∈ ps, Below n (p.mentions calls)) :
      ∀ p ∈ ps.map fun p => { p with annotations := p.annotations.map f },
        Below n (p.mentions calls) := by
    refine List.forall_mem_map.mpr fun p hp => ?_
    have hp := Param.below_mentions.mp (h p hp)
    exact Param.below_mentions.mpr ⟨hp.1, hp.2.1, husages hp.2.2⟩
  rw [ClassDecl.below_mentions] at hc ⊢
  obtain ⟨hheader, hfields, hmethods, hconstructors, hstatic, hannotations⟩ := hc
  refine ⟨hheader, List.forall_mem_map.mpr fun d hd => ?_, List.forall_mem_map.mpr fun m hm => ?_,
    List.forall_mem_map.mpr fun k hk => ?_, hstatic, husages hannotations⟩
  · have hd := hfields d hd
    simp only [Field.mentions, below_append, AnnotationUse.below_mentionsAll] at hd ⊢
    exact ⟨hd.1, husages hd.2⟩
  · have hm := hmethods m hm
    simp only [Method.mentions, below_append, AnnotationUse.below_mentionsAll,
      Param.below_mentionsAll] at hm ⊢
    exact ⟨⟨⟨⟨hm.1.1.1.1, hparams hm.1.1.1.2⟩, hm.1.1.2⟩, hm.1.2⟩, husages hm.2⟩
  · have hk := hconstructors k hk
    simp only [Constructor.mentions, below_append, AnnotationUse.below_mentionsAll,
      Param.below_mentionsAll] at hk ⊢
    exact ⟨⟨hparams hk.1.1, hk.1.2⟩, husages hk.2⟩

/-! ## Steps -/

/-- Whatever a pass makes of a class mentions classes of the table only. -/
theorem ClassTable.Rewrites.below {settings : CompilerSettings} {id : ClassId} {c c' : ClassDecl}
    (hchains : t.FiniteChains) (hb : t.Based) (ht : t.Confined calls) (hget : t.get? id = some c)
    (h : t.Rewrites settings id c c') : Below t.size (c'.mentions calls) := by
  have hc := ht.get? hget
  cases h with
  | init =>
    exact Enumeration.below_addInit hb.builtins true (below_typeRef (lt_size_of_get? hget)) hc
  | members => exact Enumeration.below_complete ht hb hget
  | annotations => exact ClassDecl.below_mapAnnotationUses (fun a => a.below_normalized) hc
  | definition => exact hc
  | constructors => exact Enumeration.below_completeConstructors hb ht hc
  | marks hrun => exact below_markMembers hchains hb ht hget hrun

/-- Steps leave every class mentioning classes of the table only, with or without the calls. -/
theorem ClassTable.Steps.confined {settings : CompilerSettings} {t' : ClassTable}
    (hchains : t.FiniteChains) (hb : t.Based) (ht : t.Confined calls) (h : Steps settings t t') :
    t'.Confined calls := by
  -- the next step needs chains and numbers as well, and they only depend on the headers
  have hall : t'.FiniteChains ∧ t'.Based ∧ t'.Confined calls := by
    refine h.keeps (P := fun t' => t'.FiniteChains ∧ t'.Based ∧ t'.Confined calls) ?_
      ⟨hchains, hb, ht⟩
    rintro t₁ t₂ ⟨hchains, hb, ht⟩ ⟨hget, -, hrewrites⟩
    have hheader := Related.set ClassDecl.SameHeader.refl hget (hrewrites.header hchains)
    exact ⟨hheader.finiteChains hchains, hheader.based hb,
      ht.set (hrewrites.below hchains hb ht hget)⟩
  exact hall.2.2

/-! ## Whole runs -/

/-- A well-formed unit is completed without a fault, whatever the settings and the log, and is well
formed again. If the calls mention classes of the table only, they still do. -/
theorem CompilationUnit.complete_confined (settings : CompilerSettings) (u : CompilationUnit)
    (ht : u.table.WellFormed) :
    ∃ u' sites, u.complete settings = .ok (u', sites) ∧ u'.table.WellFormed ∧
      u'.table.size = u.table.size ∧
      (u.table.Confined true → u'.table.Confined true) := by
  obtain ⟨u', sites, hrun⟩ := u.complete_ends settings ht
  have hsteps := complete_steps ht.numbered ht.chains hrun
  have hheader := hsteps.header ht.chains
  have hconfined (calls : Bool) (h : u.table.Confined calls) : u'.table.Confined calls :=
    hsteps.confined ht.chains ht.toBased h
  refine ⟨u', sites, hrun, ⟨hheader.based ht.toBased, ?_, hheader.finiteChains ht.chains⟩,
    hheader.size_eq, hconfined true⟩
  exact ClassTable.confined_false_iff.mp
    (hconfined false (ClassTable.confined_false_iff.mpr ht.closed))

/-- An enum whose constant has a class of its own, and a call on the enum in that class. -/
def confinedUnit : CompilationUnit := {
  table := [
    { ClassDecl.empty "Color" .enum with
      superclass := some (.resolved 23 "Enum")
      fields := [⟨"RED", { isStatic := true, isFinal := true, isEnum := true },
        .resolved 25 "Color", some (.classRef (.resolved 26 "Color$RED") .synthetic), [],
        .synthetic⟩]
      annotations := [⟨.resolved 0 "Object", [], false, .synthetic⟩] },
    { ClassDecl.empty "Color$RED" .constantBody with
      superclass := some (.resolved 25 "Color")
      outer := some 25
      staticInit :=
        [.expr (.staticCall 25 "Color" "values" [] none .synthetic)] }].foldl .add .seeded
  log := {} }

/-- The enum and the class of its constant only mention each other and built-in classes. -/
theorem CompilationUnit.complete_confined_body :
    confinedUnit.table.Confined true ∧
      ∃ u' sites, confinedUnit.complete {} = .ok (u', sites) ∧ u'.table.WellFormed ∧
        u'.table.size = confinedUnit.table.size ∧
        (confinedUnit.table.Confined true → u'.table.Confined true) :=
  ⟨by decide, complete_confined {} _ ⟨⟨by decide, by decide⟩,
    by decide, ClassTable.finiteChains_of_lt (by decide)⟩⟩

end Metaobject
