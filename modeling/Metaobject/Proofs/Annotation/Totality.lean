import Metaobject.Annotation.Cycle
import Metaobject.Proofs.ClassTable.WellFormed

/-!
# Annotations are checked without faults

Where every class number in a usage belongs to a class of the table, checking the usage finds
problems but never hits a fault. The search for cycles never does: it looks up only classes that it
has found to be annotation types.

* `AnnotationUse.problems_completes`: checking a usage comes to an end with a list of problems.
* `ClassTable.definitionProblems_completes`: so does the check of the attribute defaults of an
  annotation type.
-/

namespace Metaobject

/-! ## Computations without faults -/

/-- The computation ends without a fault. -/
def Completes {α : Type} (x : Except Fault α) : Prop := ∃ a, x = .ok a

namespace Completes

variable {α β : Type}

theorem pure (a : α) : Completes (Pure.pure a) := ⟨a, rfl⟩

/-- A computation completes if both of its parts do. -/
theorem bind {x : Except Fault α} {f : α → Except Fault β} (hx : Completes x)
    (hf : ∀ a, Completes (f a)) : Completes (x >>= f) := by
  obtain ⟨a, rfl⟩ := hx
  exact hf a

/-- A pass over a list completes if it does at each element. -/
theorem mapM {f : α → Except Fault β} :
    ∀ {as : List α}, (∀ a ∈ as, Completes (f a)) → Completes (as.mapM f)
  | [], _ => pure []
  | a :: as, h => by
    rw [List.mapM_cons]
    refine (h a List.mem_cons_self).bind fun b => ?_
    exact (mapM fun a ha => h a (List.mem_cons_of_mem _ ha)).bind fun bs => pure (b :: bs)

end Completes

/-- The type that the sort of an attribute refers to. -/
def AttributeSort.type? : AttributeSort → Option ClassId
  | .simple id | .enum id | .annotationUse id => some id
  | .classLiteral | .unsupported => none

namespace ClassTable

variable {t : ClassTable}

/-- A class of the table can be read. -/
theorem get_completes {id : ClassId} (h : id < t.size) : Completes (t.get id) := by
  obtain ⟨c, hget⟩ := exists_get?_of_lt h
  exact ⟨c, get_eq_ok_iff.mpr hget⟩

/-! ## Class numbers that are found in the table -/

/-- A name stands for a class of the table. -/
theorem lookup_lt (hn : t.Numbered) {name : String} {id : ClassId} (h : t.lookup name = some id) :
    id < t.size := by
  obtain ⟨c, hfind, rfl⟩ := Option.map_eq_some_iff.mp h
  obtain ⟨i, hget⟩ := mem_classes_iff.mp (List.mem_reverse.mp (List.mem_of_find?_eq_some hfind))
  rw [hn i c hget]
  exact lt_size_of_get? hget

/-- A type resolves to a class of the table, if it only mentions such classes. -/
theorem resolve_lt (hn : t.Numbered) {type : TypeRef} (h : ∀ id ∈ type.classIds, id < t.size)
    {id : ClassId} (hid : (t.resolve type).classId? = some id) : id < t.size := by
  cases type with
  | resolved i name =>
    obtain rfl : i = id := Option.some.inj hid
    exact h i (by simp [TypeRef.classIds])
  | array c => cases hid
  | unresolved name =>
    simp only [resolve, typeNamed] at hid
    cases hlookup : t.lookup name with
    | none =>
      rw [hlookup] at hid
      cases hid
    | some i =>
      rw [hlookup] at hid
      obtain rfl : i = id := Option.some.inj hid
      exact lookup_lt hn hlookup

/-- What is known about a class says that it is in the table. -/
theorem lt_of_any_get? {p : ClassDecl → Bool} {id : ClassId} (h : (t.get? id).any p) :
    id < t.size := by
  cases hget : t.get? id with
  | none => simp [hget] at h
  | some c => exact lt_size_of_get? hget

/-- An absent class derives from itself only. -/
theorem lt_or_eq_of_isDerivedFrom {sub sup : ClassId} (h : t.isDerivedFrom sub sup) :
    sub < t.size ∨ sub = sup := by
  by_cases hlt : sub < t.size
  · exact .inl hlt
  · right
    have habsent : t.parentsOf sub = [] := by
      rw [parentsOf, t.get?_eq_none_iff.mpr (Nat.le_of_not_lt hlt)]
      rfl
    -- without parents the search ends at its start
    by_contra hne
    simp [isDerivedFrom, searchBound, search, hne, habsent] at h

variable (ht : t.Based)

include ht

/-- The built-in classes are in the table. -/
theorem builtin_lt {id : ClassId} (h : id < 25) : id < t.size := Nat.lt_of_lt_of_le h ht.builtins

/-- The wrapper of a class is in the table. -/
theorem wrapperOf_lt {id : ClassId} (h : id < t.size) : Builtin.wrapperOf id < t.size := by
  cases hlookup : Builtin.wrappers.lookup id with
  | none =>
    rw [Builtin.wrapperOf, hlookup]
    exact h
  | some wrapper =>
    have hmem : wrapper ∈ Builtin.wrappers.map (·.2) := by
      obtain ⟨l₁, l₂, hsplit, -⟩ := List.lookup_eq_some_iff.mp hlookup
      rw [hsplit]
      simp
    rw [Builtin.wrapperOf, hlookup]
    -- the wrappers are a fixed table, so the bound is read off its rows
    refine builtin_lt ht ?_
    revert hmem
    exact (by decide : ∀ w ∈ Builtin.wrappers.map (·.2), w < 25) wrapper

theorem constantClass_lt {v : Constant} {id : ClassId} (h : Builtin.constantClass v = some id) :
    id < t.size := by
  refine builtin_lt ht ?_
  cases v <;> cases h <;> decide

/-! ## Single values -/

theorem attributeSort_lt (type : TypeRef) {id : ClassId}
    (h : (t.attributeSort type).type? = some id) : id < t.size := by
  cases type with
  | resolved i name =>
    simp only [attributeSort] at h
    split_ifs at h with hsimple hclass henum hkind
    · obtain rfl : i = id := Option.some.inj h
      simp only [isSimple, Bool.or_eq_true, beq_iff_eq] at hsimple
      obtain (hprimitive | hwrapper) | rfl := hsimple
      · exact lt_of_any_get? hprimitive
      · refine builtin_lt ht ?_
        obtain ⟨p, hp, hi⟩ := List.any_eq_true.mp hwrapper
        rw [← beq_iff_eq.mp hi]
        exact (by decide : ∀ p ∈ Builtin.wrappers, p.2 < 25) p hp
      · exact builtin_lt ht (by decide)
    · cases h
    · obtain rfl : i = id := Option.some.inj h
      rcases Bool.or_eq_true_iff.mp henum with henum | hderived
      · exact lt_of_any_get? henum
      · rcases lt_or_eq_of_isDerivedFrom hderived with hlt | rfl
        · exact hlt
        · -- the base class of the enums itself
          exact builtin_lt ht (by decide)
    · obtain rfl : i = id := Option.some.inj h
      exact lt_of_any_get? hkind
    · cases h
  | array c => cases h
  | unresolved name => cases h

/-- The check of a value of a simple type completes. -/
theorem simpleCause_completes (site : AttributeSite) {type : ClassId} (htype : type < t.size)
    (value : Expr) : Completes (t.simpleCause site type value) := by
  have hget := get_completes htype
  have hexpected := get_completes (wrapperOf_lt ht htype)
  cases value with
  | constant v span =>
    rw [simpleCause]
    cases hclass : Builtin.constantClass v with
    | none => exact hexpected.bind fun c => .pure _
    | some found =>
      dsimp only
      split
      · exact .pure _
      · exact hexpected.bind fun c => (get_completes (constantClass_lt ht hclass)).bind fun c' =>
          .pure _
  | _ => exact hget.bind fun c => .pure _

omit ht in
/-- The check of a value of an enum type completes. -/
theorem enumCause_completes (hn : t.Numbered) (site : AttributeSite) {type : ClassId}
    (htype : type < t.size) {value : Expr} (hvalue : ∀ id ∈ value.classIds, id < t.size) :
    Completes (t.enumCause site type value) := by
  have hget := get_completes htype
  rw [enumCause]
  cases howner : t.enumOwner? value with
  | none => exact hget.bind fun c => .pure _
  | some owner =>
    have hlt : owner < t.size := by
      revert howner
      unfold enumOwner?
      split
      · exact fun howner => resolve_lt hn
          (fun id hid => hvalue id (by simpa [Expr.classIds] using hid)) howner
      · rintro ⟨⟩
        exact hvalue owner (by simp [Expr.classIds])
      · rintro ⟨⟩
    dsimp only
    split
    · exact .pure _
    · exact hget.bind fun c => (get_completes hlt).bind fun c' => .pure _

/-- The check of a single value completes, whatever its type. -/
theorem scalarProblems_completes (site : AttributeSite) (type : TypeRef) {value : Expr}
    (hvalue : ∀ id ∈ value.classIds, id < t.size) :
    Completes (t.scalarProblems site type value) := by
  rw [scalarProblems, scalarCause]
  refine Completes.bind ?_ fun cause => .pure _
  cases hsort : t.attributeSort type with
  | simple id =>
    exact simpleCause_completes ht site (attributeSort_lt ht type (by rw [hsort]; rfl)) value
  | classLiteral => exact .pure _
  | enum id =>
    exact enumCause_completes ht.numbered site (attributeSort_lt ht type (by rw [hsort]; rfl))
      hvalue
  | annotationUse id =>
    exact (get_completes (attributeSort_lt ht type (by rw [hsort]; rfl))).bind fun c => .pure _
  | unsupported => exact .pure _

omit ht in
/-- Folding a value brings in no class number. -/
theorem mem_classIds_foldIf {inline : Bool} {e : Expr} (he : ∀ es span, e ≠ .list es span)
    {id : ClassId} (h : id ∈ (t.foldIf inline e).classIds) : id ∈ e.classIds := by
  rw [foldIf] at h
  split at h
  · rw [fold] at h
    · cases hconstant : t.referredConstant? e with
      | none =>
        rw [hconstant] at h
        exact h
      | some v => simp [hconstant, Expr.classIds] at h
    · exact he
  · exact h

omit ht in
/-- The search for missing constants completes for what is no list. -/
theorem unknownConstants_completes_of_ne_list (hn : t.Numbered) {e : Expr}
    (he : ∀ es span, e ≠ .list es span) (h : ∀ id ∈ e.classIds, id < t.size) :
    Completes (t.unknownConstants e) := by
  unfold unknownConstants
  split
  · exact absurd rfl (he _ _)
  · rename_i type _ name span
    cases hid : (t.resolve type).classId? with
    | none => exact .pure _
    | some id =>
      refine (get_completes (resolve_lt hn h hid)).bind fun c => ?_
      split <;> exact .pure _
  · exact .pure _

omit ht in
mutual

/-- The search for missing constants completes. -/
theorem unknownConstants_completes (hn : t.Numbered) :
    (e : Expr) → (∀ id ∈ e.classIds, id < t.size) →
    Completes (t.unknownConstants e)
  | .list es _, h => unknownConstantsAll_completes hn es h
  | .constant .., h | .var .., h | .property .., h | .field .., h | .classRef .., h | .closure .., h
  | .map .., h | .entry .., h | .annotationUse .., h | .call .., h | .staticCall .., h
  | .construct .., h | .binary .., h | .ternary .., h | .index .., h | .spread .., h | .array .., h
  | .assign .., h =>
    unknownConstants_completes_of_ne_list hn (fun _ _ => Expr.noConfusion) h

/-- The search completes for all elements of a list. -/
theorem unknownConstantsAll_completes (hn : t.Numbered) : (es : List Expr) →
    (∀ id ∈ Expr.classIdsAll es, id < t.size) → Completes (t.unknownConstantsAll es)
  | [], _ => .pure []
  | e :: es, h => by
    rw [unknownConstantsAll]
    refine (unknownConstants_completes hn e fun id hid => h id (List.mem_append_left _ hid)).bind
      fun _ => ?_
    exact (unknownConstantsAll_completes hn es fun id hid =>
      h id (List.mem_append_right _ hid)).bind fun _ => .pure _

end

end ClassTable

/-! ## Usages -/

/-- The values of members mention what the members mention. -/
theorem AnnotationUse.classIdsAll_map_snd (members : List (String × Expr)) :
    Expr.classIdsAll (members.map (·.2)) = AnnotationUse.memberIds members := by
  induction members with
  | nil => rfl
  | cons m rest ih => exact congrArg (m.2.classIds ++ ·) ih

section

variable {t : ClassTable} {inline : Bool}

/-- A usage that has been checked is not checked again. -/
theorem AnnotationUse.problems_of_validated {a : AnnotationUse} (h : a.validated = true) :
    a.problems t inline = .ok [] := by
  obtain ⟨type, members, validated, span⟩ := a
  rw [AnnotationUse.problems, if_pos h]
  rfl

mutual

/-- The check of a value of an attribute completes. -/
theorem Expr.attributeProblems_completes (ht : t.Based)
    (site : AttributeSite) : (e : Expr) → (type : TypeRef) →
    (∀ id ∈ e.classIds, id < t.size) → Completes (e.attributeProblems t inline site type)
  | .list es s, type, h => by
    cases type with
    | array c =>
      rw [Expr.attributeProblems]
      exact Expr.attributeProblemsAll_completes ht site es c h
    | _ =>
      rw [Expr.attributeProblems]
      · exact ClassTable.scalarProblems_completes ht site _ h
      · rintro _ ⟨⟩
  | .closure ps body cs s, type, h => by
    rw [Expr.attributeProblems]
    split
    · exact .pure _
    · exact ClassTable.scalarProblems_completes ht site _ h
  | .annotationUse a, type, h => by
    have hscalar := ClassTable.scalarProblems_completes ht site type.base h
    rw [Expr.attributeProblems]
    split
    · split
      · exact a.problems_completes ht h
      · exact hscalar
    · exact hscalar
  | .constant .., type, h | .var .., type, h | .property .., type, h | .field .., type, h
  | .classRef .., type, h | .map .., type, h | .entry .., type, h | .call .., type, h
  | .staticCall .., type, h | .construct .., type, h | .binary .., type, h | .ternary .., type, h
  | .index .., type, h | .spread .., type, h | .array .., type, h | .assign .., type, h =>
    ClassTable.scalarProblems_completes ht site type.base fun id hid =>
      h id (ClassTable.mem_classIds_foldIf (fun _ _ => Expr.noConfusion) hid)

/-- The check of all elements of a list completes. -/
theorem Expr.attributeProblemsAll_completes (ht : t.Based) (site : AttributeSite) :
    (es : List Expr) → (type : TypeRef) →
    (∀ id ∈ Expr.classIdsAll es, id < t.size) →
      Completes (Expr.attributeProblemsAll t inline site type es)
  | [], _, _ => .pure []
  | e :: es, type, h => by
    rw [Expr.attributeProblemsAll]
    refine (e.attributeProblems_completes ht site type fun id hid =>
      h id (List.mem_append_left _ hid)).bind fun _ => ?_
    exact (Expr.attributeProblemsAll_completes ht site es type fun id hid =>
      h id (List.mem_append_right _ hid)).bind
      fun _ => .pure _

/-- Checking a usage finds problems but never hits a fault. -/
theorem AnnotationUse.problems_completes (ht : t.Based) :
    (a : AnnotationUse) → (∀ id ∈ a.classIds, id < t.size) →
    Completes (a.problems t inline)
  | ⟨type, members, validated, span⟩, h => by
    rw [AnnotationUse.problems]
    split
    · exact .pure _
    · cases hid : t.annotationId? type with
      | none => exact .pure _
      | some id =>
        obtain ⟨-, hkind⟩ := Option.filter_eq_some_iff.mp hid
        have hmembers : ∀ id ∈ AnnotationUse.memberIds members, id < t.size := fun id hid =>
          h id (List.mem_append_right _ hid)
        refine (ClassTable.get_completes (ClassTable.lt_of_any_get? hkind)).bind fun c => ?_
        refine (ClassTable.unknownConstantsAll_completes ht.numbered _ ?_).bind fun unknown => ?_
        · rwa [AnnotationUse.classIdsAll_map_snd]
        · exact (AnnotationUse.memberProblems_completes ht type.text c members hmembers).bind
            fun _ => .pure _

/-- The check of all members completes. -/
theorem AnnotationUse.memberProblems_completes (ht : t.Based)
    (owner : String) (c : ClassDecl) : (members : List (String × Expr)) →
    (∀ id ∈ AnnotationUse.memberIds members, id < t.size) →
    Completes (AnnotationUse.memberProblems t inline owner c members)
  | [], _ => .pure []
  | (name, value) :: rest, h => by
    have hrest := AnnotationUse.memberProblems_completes ht owner c rest fun id hid =>
      h id (List.mem_append_right _ hid)
    rw [AnnotationUse.memberProblems]
    split
    · exact hrest.bind fun _ => .pure _
    · refine Completes.bind ?_ fun found => hrest.bind fun _ => .pure _
      exact value.attributeProblems_completes ht ⟨owner, name⟩ _ fun id hid => h id
        (List.mem_append_left _ hid)

end

/-- A check that ends reports the problems of the usage and hands back its settled form. -/
theorem AnnotationUse.validate_eq_ok_iff {a a' : AnnotationUse} {log log' : ProblemLog} :
    a.validate t inline log = .ok (a', log') ↔
      ∃ found, a.problems t inline = .ok found ∧ a' = a.normalized t inline ∧
        log' = log.addAll found := by
  rw [AnnotationUse.validate]
  cases a.problems t inline with
  | error fault => exact iff_of_false (by rintro ⟨⟩) (by rintro ⟨_, ⟨⟩, _⟩)
  | ok found =>
    constructor
    · rintro ⟨⟩
      exact ⟨found, rfl, rfl, rfl⟩
    · rintro ⟨_, ⟨⟩, rfl, rfl⟩
      rfl

/-- A check of a usage ends without a fault. -/
theorem AnnotationUse.validate_completes (ht : t.Based) {a : AnnotationUse}
    (h : ∀ id ∈ a.classIds, id < t.size) (log : ProblemLog) :
    ∃ a' log', a.validate t inline log = .ok (a', log') := by
  obtain ⟨found, hfound⟩ := a.problems_completes ht h
  exact ⟨_, _, AnnotationUse.validate_eq_ok_iff.mpr ⟨found, hfound, rfl, rfl⟩⟩

end

/-! ## Cycles among defaults -/

namespace ClassTable

variable {t : ClassTable}

/-- An annotation type that is named is in the table. -/
theorem annotationId?_lt {type : TypeRef} {id : ClassId} (h : t.annotationId? type = some id) :
    id < t.size :=
  lt_of_any_get? (Option.filter_eq_some_iff.mp h).2

/-- The search enters a class only if it is the annotation type of the attribute. -/
theorem cyclesFrom_completes {goal : ClassId} (hgoal : goal < t.size) :
    ∀ (fuel : Nat) (path : List ClassId)
    (type : TypeRef) (start : Expr), Completes (t.cyclesFrom goal fuel path type start) := by
  intro fuel
  induction fuel with
  | zero => exact fun _ _ _ => .pure _
  | succ fuel ih =>
    intro path type start
    unfold cyclesFrom
    split
    · exact .pure _
    · rename_i expected usage hexpected
      split
      · exact .pure _
      · rename_i current _
        split_ifs with hback hstop
        · exact (get_completes hgoal).bind fun _ => .pure _
        · exact .pure _
        · -- the search goes on, so the usage is of the type that the attribute expects
          obtain rfl : current = expected := by
            by_contra hne
            exact hstop (.inl hne)
          refine (get_completes (annotationId?_lt hexpected)).bind fun c => ?_
          refine (Completes.mapM fun m _ => ?_).bind fun _ => .pure _
          split
          · exact .pure _
          · split
            · exact .pure _
            · exact ih _ _ _
    · exact .pure _

/-- The check of the attribute defaults of an annotation type never hits a fault. -/
theorem definitionProblems_completes (id : ClassId) : Completes (t.definitionProblems id) := by
  rw [definitionProblems]
  split
  · rename_i hkind
    have hlt : id < t.size := lt_of_any_get? hkind
    refine (get_completes hlt).bind fun c => ?_
    refine (Completes.mapM fun m _ => ?_).bind fun _ => .pure _
    split
    · exact .pure _
    · exact cyclesFrom_completes hlt _ _ _ _
  · exact .pure _

end ClassTable

end Metaobject
