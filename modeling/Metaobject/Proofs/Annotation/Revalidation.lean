import Metaobject.Proofs.Annotation.Conformity

/-!
# Checking a usage again

The check of a usage rewrites its values: references are folded, single values are put into lists,
and so on inside the usages that it holds. What it leaves is settled. Once the marks are taken away
again, a second check rewrites nothing and finds the same problems, at the same places and in the
same order.

* `ClassTable.fold_fold`, `ClassTable.unknownConstants_fold`: folding is done after one time, and
  hides no enum constant.
* `Expr.ChecksLike.wrapped`: a single value is checked like the list that it stands for.
* `AnnotationUse.checksLike_normalized`: a settled usage is checked like the usage that it came
  from.
* `AnnotationUse.validate_unchecked`: two checks, one after the other.
-/

namespace Metaobject

/-! ## Induction over values -/

/-- The cases of an induction over attribute values and usages. -/
structure ValueInduction (P : Expr → Prop) (Q : AnnotationUse → Prop) : Prop where
  single : ∀ e, e.isSingle = true → P e
  closure : ∀ ps body cs s, P (.closure ps body cs s)
  list : ∀ es s, (∀ e ∈ es, P e) → P (.list es s)
  usage : ∀ a, Q a → P (.annotationUse a)
  members : ∀ a, (∀ p ∈ a.members, P p.2) → Q a

namespace ValueInduction

variable {P : Expr → Prop} {Q : AnnotationUse → Prop}

mutual

theorem forValue (h : ValueInduction P Q) : (e : Expr) → P e
  | .list es s => h.list es s (forValues h es)
  | .closure ps body cs s => h.closure ps body cs s
  | .annotationUse a => h.usage a (forUsage h a)
  | .constant .. | .var .. | .property .. | .field .. | .classRef .. | .map .. | .entry .. | .call
      .. | .staticCall ..
  | .construct .. | .binary .. | .ternary .. | .index .. | .spread .. | .array .. | .assign .. =>
    h.single _ rfl

theorem forValues (h : ValueInduction P Q) : (es : List Expr) → ∀ e ∈ es, P e
  | [], _, he => absurd he List.not_mem_nil
  | e :: es, _, he => (List.mem_cons.mp he).elim (fun heq => heq ▸ forValue h e) (forValues h es _)

theorem forUsage (h : ValueInduction P Q) : (a : AnnotationUse) → Q a
  | ⟨type, members, validated, span⟩ =>
    h.members ⟨type, members, validated, span⟩ (forMembers h members)

theorem forMembers (h : ValueInduction P Q) :
    (members : List (String × Expr)) → ∀ p ∈ members, P p.2
  | [], _, hp => absurd hp List.not_mem_nil
  | (_, value) :: rest, _, hp =>
    (List.mem_cons.mp hp).elim (fun heq => heq ▸ forValue h value) (forMembers h rest _)

end

end ValueInduction

/-! ## Taking marks away -/

mutual

/-- The value with all its usages unmarked. Usages inside closures and other code are no part of the
value: no check looks at them. -/
def Expr.unchecked : Expr → Expr
  | .list es s => .list (Expr.uncheckedAll es) s
  | .annotationUse a => .annotationUse a.unchecked
  | e => e

/-- All elements of a list, with the marks of their usages taken away. -/
def Expr.uncheckedAll : List Expr → List Expr
  | [] => []
  | e :: es => e.unchecked :: Expr.uncheckedAll es

/-- The usage as if neither it nor a usage inside it had been checked. -/
def AnnotationUse.unchecked : AnnotationUse → AnnotationUse
  | ⟨type, members, _, span⟩ => ⟨type, AnnotationUse.uncheckedMembers members, false, span⟩

/-- All members, with the marks of the usages in their values taken away. -/
def AnnotationUse.uncheckedMembers : List (String × Expr) → List (String × Expr)
  | [] => []
  | (name, value) :: rest => (name, value.unchecked) :: AnnotationUse.uncheckedMembers rest

end

theorem Expr.uncheckedAll_eq_map (es : List Expr) :
    Expr.uncheckedAll es = es.map Expr.unchecked := by
  induction es with
  | nil => rfl
  | cons e es ih => rw [Expr.uncheckedAll, ih, List.map_cons]

theorem AnnotationUse.uncheckedMembers_eq_map (members : List (String × Expr)) :
    AnnotationUse.uncheckedMembers members = members.map fun p => (p.1, p.2.unchecked) := by
  induction members with
  | nil => rfl
  | cons p rest ih => rw [AnnotationUse.uncheckedMembers, ih, List.map_cons]

theorem Expr.usagesAll_eq_flatMap (es : List Expr) :
    Expr.usagesAll es = es.flatMap Expr.usages := by
  induction es with
  | nil => rfl
  | cons e es ih => rw [Expr.usagesAll, ih, List.flatMap_cons]

theorem AnnotationUse.memberUsages_eq_flatMap (members : List (String × Expr)) :
    AnnotationUse.memberUsages members = members.flatMap fun p => p.2.usages := by
  induction members with
  | nil => rfl
  | cons p rest ih => rw [AnnotationUse.memberUsages, ih, List.flatMap_cons]

/-- No usage in the value is marked as checked. -/
def Expr.IsUnchecked (e : Expr) : Prop := ∀ a ∈ e.usages, a.validated = false

/-- Neither the usage nor a usage inside it is marked as checked. -/
def AnnotationUse.IsUnchecked (a : AnnotationUse) : Prop :=
  a.validated = false ∧ ∀ b ∈ a.nested, b.validated = false

/-- A list is unchecked if its elements are. -/
theorem Expr.isUnchecked_list_iff {es : List Expr} {span : Span} :
    (Expr.list es span).IsUnchecked ↔ ∀ e ∈ es, e.IsUnchecked := by
  rw [Expr.IsUnchecked, Expr.usages, Expr.usagesAll_eq_flatMap, List.forall_mem_flatMap]
  exact Iff.rfl

/-- A usage as a value is unchecked if the usage is. -/
theorem Expr.isUnchecked_annotationUse_iff {a : AnnotationUse} :
    (Expr.annotationUse a).IsUnchecked ↔ a.IsUnchecked :=
  List.forall_mem_cons

/-- A usage is unchecked if it has no mark and the values of its members are unchecked. -/
theorem AnnotationUse.isUnchecked_iff {a : AnnotationUse} :
    a.IsUnchecked ↔ a.validated = false ∧ ∀ p ∈ a.members, p.2.IsUnchecked := by
  obtain ⟨type, members, validated, span⟩ := a
  rw [AnnotationUse.IsUnchecked, AnnotationUse.nested, AnnotationUse.memberUsages_eq_flatMap,
    List.forall_mem_flatMap]
  exact Iff.rfl

/-- A single value has no marks to take away. -/
theorem Expr.unchecked_of_isSingle {e : Expr} (he : e.isSingle = true) : e.unchecked = e := by
  cases e <;> first | rfl | cases he

theorem Expr.usages_of_isSingle {e : Expr} (he : e.isSingle = true) : e.usages = [] := by
  cases e <;> first | rfl | cases he

/-- To take marks away changes nothing where there are none. -/
theorem unchecked_induction :
    ValueInduction
      (fun e => e.IsUnchecked → e.unchecked = e) (fun a => a.IsUnchecked → a.unchecked = a) where
  single e he _ := Expr.unchecked_of_isSingle he
  closure _ _ _ _ _ := rfl
  list es s ih hes := by
    have hsame : ∀ e ∈ es, e.unchecked = e :=
      fun e he => ih e he (Expr.isUnchecked_list_iff.mp hes e he)
    rw [Expr.unchecked, Expr.uncheckedAll_eq_map, List.map_congr_left hsame, List.map_id']
  usage a ih ha := by rw [Expr.unchecked, ih (Expr.isUnchecked_annotationUse_iff.mp ha)]
  members a ih ha := by
    obtain ⟨type, members, validated, span⟩ := a
    obtain ⟨hmark, hvalues⟩ := AnnotationUse.isUnchecked_iff.mp ha
    have hsame : ∀ p ∈ members, (p.1, p.2.unchecked) = p :=
      fun p hp => by rw [ih p hp (hvalues p hp)]
    rw [AnnotationUse.unchecked, AnnotationUse.uncheckedMembers_eq_map, List.map_congr_left hsame,
      List.map_id']
    exact congrArg (AnnotationUse.mk type members · span) hmark.symm

/-! ## Folding -/

namespace ClassTable

variable {t : ClassTable} {inline : Bool}

/-- A list is folded element by element. -/
theorem fold_list (es : List Expr) (span : Span) :
    t.fold (.list es span) = .list (es.map t.fold) span := by
  rw [fold, foldAll_eq_map]

/-- Anything else is folded to the constant that it refers to, if there is one. -/
theorem fold_of_not_list {e : Expr} (he : e.isList = false) :
    t.fold e = (t.referredConstant? e).elim e (.constant · e.span) := by
  rw [fold]
  · cases t.referredConstant? e <;> rfl
  · rintro es span rfl
    cases he

/-- What is folded is a property, a field or a variable. -/
theorem isSingle_of_referredConstant? {e : Expr} {v : Constant}
    (h : t.referredConstant? e = some v) : e.isSingle = true := by
  cases e <;> first | rfl | simp [referredConstant?, fieldReference?] at h

/-- The cases of an induction over the elements of lists. -/
theorem list_induction {P : Expr → Prop} (other : ∀ e, e.isList = false → P e)
    (list : ∀ es s, (∀ e ∈ es, P e) → P (.list es s)) (e : Expr) : P e :=
  have h : ValueInduction P fun _ => True :=
    { single := fun e he => other e (Expr.isSingle_cases he).1
      closure := fun _ _ _ _ => other _ rfl
      list := list
      usage := fun _ _ => other _ rfl
      members := fun _ _ => trivial }
  h.forValue e

/-- Folding twice is folding once. -/
theorem fold_fold (e : Expr) : t.fold (t.fold e) = t.fold e := by
  induction e using list_induction with
  | other e he =>
    rw [fold_of_not_list he]
    cases hconstant : t.referredConstant? e with
    | none =>
      show t.fold e = e
      rw [fold_of_not_list he, hconstant]
      rfl
    | some v => rfl
  | list es s ih =>
    rw [fold_list, fold_list, List.map_map]
    exact congrArg (Expr.list · s) (List.map_congr_left ih)

/-- Folding leaves the usages alone. -/
theorem usages_fold (e : Expr) : (t.fold e).usages = e.usages := by
  induction e using list_induction with
  | other e he =>
    rw [fold_of_not_list he]
    cases hconstant : t.referredConstant? e with
    | none => rfl
    | some v => exact (Expr.usages_of_isSingle (isSingle_of_referredConstant? hconstant)).symm
  | list es s ih =>
    rw [fold_list, Expr.usages, Expr.usages, Expr.usagesAll_eq_flatMap, Expr.usagesAll_eq_flatMap,
      List.flatMap_map]
    exact List.flatMap_congr ih

/-- An absent class has no fields. -/
theorem findField_of_absent {id : ClassId} (h : t.get? id = none) (name : String) :
    t.findField id name = none := by
  have hchain : t.superChain id = [] := by
    rw [superChain]
    cases t.size with
    | zero => rfl
    | succ n => simp [chainFrom, h]
  rw [findField, hchain]
  rfl

/-- The class whose field stands for a literal is known and no enum. -/
theorem get?_of_fieldConstant? {fuel : Nat} {visiting : List (ClassId × String)} {owner : ClassId}
    {name : String} {v : Constant} (h : t.fieldConstant? fuel visiting (owner, name) = some v) :
    ∃ c, t.get? owner = some c ∧ c.isEnum = false := by
  cases fuel with
  | zero => cases h
  | succ fuel =>
    rw [fieldConstant?] at h
    split at h
    · cases h
    · rename_i henum
      cases hget : t.get? owner with
      | none =>
        rw [findField_of_absent hget] at h
        cases h
      | some c =>
        refine ⟨c, rfl, ?_⟩
        simpa [isEnum, hget] using henum

/-- What is folded names no constant of an enum. -/
theorem unknownConstants_of_referredConstant? {e : Expr} {v : Constant}
    (h : t.referredConstant? e = some v) : t.unknownConstants e = pure [] := by
  obtain ⟨⟨owner, name⟩, hreference, hvalue⟩ := Option.bind_eq_some_iff.mp h
  obtain ⟨c, hget, henum⟩ := get?_of_fieldConstant? hvalue
  unfold unknownConstants
  split
  · cases hreference
  · rename_i type _ name' span
    obtain ⟨id, hid, heq⟩ := Option.map_eq_some_iff.mp hreference
    cases heq
    simp only [hid]
    show (t.get owner >>= _) = _
    rw [get_eq_ok_iff.mpr hget]
    show (if _ then _ else _) = _
    rw [henum]
    rfl
  · rfl

/-- What keeps the missing constants of each element keeps those of the list. -/
theorem unknownConstantsAll_map {f : Expr → Expr} {es : List Expr}
    (h : ∀ e ∈ es, t.unknownConstants (f e) = t.unknownConstants e) :
    t.unknownConstantsAll (es.map f) = t.unknownConstantsAll es := by
  induction es with
  | nil => rfl
  | cons e es ih =>
    rw [List.map_cons, unknownConstantsAll, unknownConstantsAll, h e List.mem_cons_self,
      ih fun e he => h e (List.mem_cons_of_mem _ he)]

/-- Folding hides no enum constant from the check. -/
theorem unknownConstants_fold (e : Expr) :
    t.unknownConstants (t.fold e) = t.unknownConstants e := by
  induction e using list_induction with
  | other e he =>
    rw [fold_of_not_list he]
    cases hconstant : t.referredConstant? e with
    | none => rfl
    | some v => exact (unknownConstants_of_referredConstant? hconstant).symm
  | list es s ih =>
    rw [fold_list, unknownConstants, unknownConstants]
    exact unknownConstantsAll_map ih

/-- Folding keeps the span. -/
theorem span_fold (e : Expr) : (t.fold e).span = e.span := by
  induction e using list_induction with
  | other e he =>
    rw [fold_of_not_list he]
    cases t.referredConstant? e <;> rfl
  | list es s ih => rfl

theorem foldIf_foldIf (e : Expr) : t.foldIf inline (t.foldIf inline e) = t.foldIf inline e := by
  cases inline with
  | false => rfl
  | true => exact fold_fold e

theorem usages_foldIf (e : Expr) : (t.foldIf inline e).usages = e.usages := by
  cases inline with
  | false => rfl
  | true => exact usages_fold e

/-- Folding keeps the constants that are missing. -/
theorem unknownConstants_foldIf (e : Expr) :
    t.unknownConstants (t.foldIf inline e) = t.unknownConstants e := by
  cases inline with
  | false => rfl
  | true => exact unknownConstants_fold e

theorem span_foldIf (e : Expr) : (t.foldIf inline e).span = e.span := by
  cases inline with
  | false => rfl
  | true => exact span_fold e

/-- A list where a single value is wanted is wrong whatever it holds. -/
theorem scalarProblems_list (site : AttributeSite) (type : TypeRef) (es es' : List Expr)
    (span : Span) :
    t.scalarProblems site type (.list es' span) = t.scalarProblems site type (.list es span) := by
  rw [scalarProblems, scalarProblems, scalarCause, scalarCause]
  cases t.attributeSort type <;> rfl

end ClassTable

/-! ## Values that are checked alike -/

section

variable {t : ClassTable} {inline : Bool} {type : TypeRef} {e e' : Expr}

/-- At an attribute of this type the first value is rewritten like the second one, and the same is
wrong with it. -/
structure Expr.ChecksLike (t : ClassTable) (inline : Bool) (type : TypeRef)
    (e' e : Expr) : Prop where
  normalized : e'.normalizedAt t inline type = e.normalizedAt t inline type
  problems : ∀ site, e'.attributeProblems t inline site type =
    e.attributeProblems t inline site type
  constants : t.unknownConstants e' = t.unknownConstants e

/-- A single value is settled by folding and wrapping it. -/
theorem Expr.normalizedAt_of_isSingle (he : e.isSingle = true) (type : TypeRef) :
    e.normalizedAt t inline type = (t.foldIf inline e).wrapped type := by
  cases e <;> first | rfl | cases he

theorem AnnotationUse.span_normalized (a : AnnotationUse) :
    (a.normalized t inline).span = a.span := by
  obtain ⟨type, members, validated, span⟩ := a
  rw [AnnotationUse.normalized]
  split
  · rfl
  · split <;> rfl

/-- A settled usage is of the same type. -/
theorem AnnotationUse.type_normalized (a : AnnotationUse) :
    (a.normalized t inline).type = a.type := by
  obtain ⟨type, members, validated, span⟩ := a
  rw [AnnotationUse.normalized]
  split
  · rfl
  · split <;> rfl

/-- A single value of an array type becomes the list of what it becomes at the type of the
elements. -/
theorem Expr.normalizedAt_array (hlist : e.isList = false) (hclosure : e.isClosure = false)
    (c : TypeRef) :
    e.normalizedAt t inline (.array c) = .list [e.normalizedAt t inline c] e.span := by
  by_cases hsingle : e.isSingle = true
  · rw [Expr.normalizedAt_of_isSingle hsingle, Expr.normalizedAt_of_isSingle hsingle, Expr.wrapped,
      ClassTable.span_foldIf]
  · cases e with
    | annotationUse a =>
      rw [Expr.normalizedAt, Expr.normalizedAt, TypeRef.base]
      cases hsort : t.attributeSort c.base with
      | annotationUse id =>
        dsimp only
        rw [Expr.wrapped]
        split
        · exact congrArg _ a.span_normalized
        · rfl
      | _ => rfl
    | list => cases hlist
    | closure => cases hclosure
    | _ => exact absurd rfl hsingle

/-- Array brackets do not matter for what is wrong with a single value. -/
theorem Expr.attributeProblems_array (hlist : e.isList = false) (hclosure : e.isClosure = false)
    (site : AttributeSite) (c : TypeRef) :
    e.attributeProblems t inline site (.array c) = e.attributeProblems t inline site c := by
  cases e with
  | list => cases hlist
  | closure => cases hclosure
  | _ => rfl

/-- A list for a type without brackets is only folded. -/
theorem Expr.normalizedAt_list (htype : type.isArray = false) (es : List Expr) (s : Span) :
    (Expr.list es s).normalizedAt t inline type = t.foldIf inline (.list es s) := by
  rw [Expr.normalizedAt]
  rintro c rfl
  cases htype

/-- A list for a type without brackets is checked as it stands. -/
theorem Expr.attributeProblems_list (htype : type.isArray = false) (site : AttributeSite)
    (es : List Expr) (s : Span) :
    (Expr.list es s).attributeProblems t inline site type = t.scalarProblems site type
      (.list es s) := by
  rw [Expr.attributeProblems]
  rintro c rfl
  cases htype

/-- The elements of a list are settled one by one. -/
theorem Expr.normalizedAllAt_eq_map (es : List Expr) :
    Expr.normalizedAllAt t inline type es = es.map fun e => e.normalizedAt t inline type := by
  induction es with
  | nil => rfl
  | cons e es ih => rw [Expr.normalizedAllAt, ih, List.map_cons]

/-- What keeps the problems of each element keeps those of the list. -/
theorem Expr.attributeProblemsAll_map {site : AttributeSite} {f : Expr → Expr} {es : List Expr}
    (h : ∀ e ∈ es, (f e).attributeProblems t inline site type =
      e.attributeProblems t inline site type) :
    Expr.attributeProblemsAll t inline site type
      (es.map f) = Expr.attributeProblemsAll t inline site type es := by
  induction es with
  | nil => rfl
  | cons e es ih =>
    rw [List.map_cons, Expr.attributeProblemsAll, Expr.attributeProblemsAll, h e List.mem_cons_self,
      ih fun e he => h e (List.mem_cons_of_mem _ he)]

namespace Expr.ChecksLike

theorem refl (e : Expr) : ChecksLike t inline type e e := ⟨rfl, fun _ => rfl, rfl⟩

theorem trans {e'' : Expr} (h : ChecksLike t inline type e'' e')
    (h' : ChecksLike t inline type e' e) :
    ChecksLike t inline type e'' e where
  normalized := h.normalized.trans h'.normalized
  problems site := (h.problems site).trans (h'.problems site)
  constants := h.constants.trans h'.constants

/-- The list that a single value stands for is checked like the value. -/
theorem wrapped (hlist : e.isList = false) (hclosure : e.isClosure = false) (type : TypeRef) :
    ChecksLike t inline type (e.wrapped type) e := by
  induction type with
  | resolved id name => exact refl e
  | unresolved name => exact refl e
  | array c ih =>
    refine ⟨?_, fun site => ?_, ?_⟩
    · rw [Expr.wrapped, Expr.normalizedAt, Expr.normalizedAllAt, Expr.normalizedAllAt,
        ih.normalized, Expr.normalizedAt_array hlist hclosure]
    · rw [Expr.wrapped, Expr.attributeProblems, Expr.attributeProblemsAll,
        Expr.attributeProblemsAll, ih.problems, Expr.attributeProblems_array hlist hclosure]
      cases e.attributeProblems t inline site c with
      | error fault => rfl
      | ok found => exact congrArg Except.ok (List.append_nil found)
    · rw [Expr.wrapped, ClassTable.unknownConstants, ClassTable.unknownConstantsAll,
        ClassTable.unknownConstantsAll, ih.constants]
      cases t.unknownConstants e with
      | error fault => rfl
      | ok found => exact congrArg Except.ok (List.append_nil found)

/-- A single value is checked like its folded form. -/
theorem folded (he : e.isSingle = true) (type : TypeRef) :
    ChecksLike t inline type (t.foldIf inline e) e := by
  have hfolded : (t.foldIf inline e).isSingle = true := ClassTable.foldIf_isSingle he
  refine ⟨?_, fun site => ?_, ClassTable.unknownConstants_foldIf e⟩
  · rw [Expr.normalizedAt_of_isSingle he, Expr.normalizedAt_of_isSingle hfolded,
      ClassTable.foldIf_foldIf]
  · rw [Expr.attributeProblems_of_isSingle he, Expr.attributeProblems_of_isSingle hfolded,
      ClassTable.foldIf_foldIf]

/-- Lists whose elements are checked alike are checked alike. -/
theorem elements {c : TypeRef} {f : Expr → Expr} {es : List Expr}
    (h : ∀ e ∈ es, ChecksLike t inline c (f e) e) (s : Span) :
    ChecksLike t inline (.array c) (.list (es.map f) s) (.list es s) where
  normalized := by
    have hsame : ∀ e ∈ es, (f e).normalizedAt t inline c = e.normalizedAt t inline c :=
      fun e he => (h e he).normalized
    rw [Expr.normalizedAt, Expr.normalizedAt, Expr.normalizedAllAt_eq_map,
      Expr.normalizedAllAt_eq_map, List.map_map]
    exact congrArg (Expr.list · s) (List.map_congr_left hsame)
  problems site := by
    rw [Expr.attributeProblems, Expr.attributeProblems]
    exact Expr.attributeProblemsAll_map fun e he => (h e he).problems site
  constants := by
    rw [ClassTable.unknownConstants, ClassTable.unknownConstants]
    exact ClassTable.unknownConstantsAll_map fun e he => (h e he).constants

/-- A list where a single value is wanted is checked alike once it is folded. -/
theorem folded_list (htype : type.isArray = false) (es : List Expr) (s : Span) :
    ChecksLike t inline type (t.foldIf inline (.list es s)) (.list es s) where
  normalized := by
    rw [Expr.normalizedAt_list htype, ClassTable.foldIf_list, Expr.normalizedAt_list htype,
      ← ClassTable.foldIf_list, ClassTable.foldIf_foldIf]
  problems site := by
    rw [ClassTable.foldIf_list, Expr.attributeProblems_list htype,
      Expr.attributeProblems_list htype]
    exact ClassTable.scalarProblems_list site type es _ s
  constants := ClassTable.unknownConstants_foldIf _

end Expr.ChecksLike

/-! ## Settled usages -/

/-- The first usage is rewritten like the second one, and the same is wrong with it. -/
structure AnnotationUse.ChecksLike (t : ClassTable) (inline : Bool) (a' a : AnnotationUse) :
    Prop where
  type : a'.type = a.type
  normalized : a'.normalized t inline = a.normalized t inline
  problems : a'.problems t inline = a.problems t inline

/-- Usages of the wanted type are checked alike as values if they are checked alike. -/
theorem AnnotationUse.ChecksLike.value {a' a : AnnotationUse} (h : a'.ChecksLike t inline a)
    {id : ClassId} (hsort : t.attributeSort type.base = .annotationUse id)
    (htype : (t.resolve a.type).classId? = some id) :
    Expr.ChecksLike t inline type (.annotationUse a') (.annotationUse a) where
  normalized := by
    rw [Expr.normalizedAt, Expr.normalizedAt, hsort]
    simp only [h.type, htype, if_true, h.normalized]
  problems site := by
    rw [Expr.attributeProblems, Expr.attributeProblems, hsort]
    simp only [h.type, htype, if_true, h.problems]
  constants := rfl

/-- A usage that is not of the wanted type is not looked into. -/
theorem Expr.normalizedAt_usage_of_ne {a : AnnotationUse}
    (h : ∀ id, t.attributeSort type.base = .annotationUse id →
      (t.resolve a.type).classId? ≠ some id) :
    (Expr.annotationUse a).normalizedAt t inline type = (Expr.annotationUse a).wrapped type := by
  rw [Expr.normalizedAt]
  split
  · rename_i id hsort
    rw [if_neg (h id hsort)]
  · rfl

/-- A usage of the wanted type is rewritten in turn. -/
theorem Expr.normalizedAt_usage {a : AnnotationUse} {id : ClassId}
    (hsort : t.attributeSort type.base = .annotationUse id)
    (htype : (t.resolve a.type).classId? = some id) :
    (Expr.annotationUse a).normalizedAt t inline type =
      (Expr.annotationUse (a.normalized t inline)).wrapped type := by
  rw [Expr.normalizedAt, hsort]
  simp only [htype, if_true]

/-- Wrapping and taking marks away can be done in either order. -/
theorem Expr.unchecked_wrapped (hlist : e.isList = false) (type : TypeRef) :
    (e.wrapped type).unchecked = e.unchecked.wrapped type := by
  have hspan : e.unchecked.span = e.span := by
    cases e with
    | annotationUse a =>
      obtain ⟨_, _, _, _⟩ := a
      rfl
    | list => cases hlist
    | _ => rfl
  induction type with
  | array c ih =>
    rw [Expr.wrapped, Expr.wrapped, Expr.unchecked, Expr.uncheckedAll, Expr.uncheckedAll, ih, hspan]
  | _ => rfl

/-- What a member becomes. -/
def AnnotationUse.normalizedMember (t : ClassTable) (inline : Bool) (c : ClassDecl)
    (p : String × Expr) : Expr :=
  (t.attributeType? c p.1).elim p.2 fun type => p.2.normalizedAt t inline type

/-- The members are settled one by one. -/
theorem AnnotationUse.normalizedMembers_eq_map (c : ClassDecl) (members : List (String × Expr)) :
    AnnotationUse.normalizedMembers t inline c members =
      members.map fun p => (p.1, AnnotationUse.normalizedMember t inline c p) := by
  induction members with
  | nil => rfl
  | cons p rest ih =>
    rw [AnnotationUse.normalizedMembers, ih, List.map_cons, AnnotationUse.normalizedMember]
    cases t.attributeType? c p.1 <;> rfl

/-- What is wrong with a member. -/
def AnnotationUse.problemsOfMember (t : ClassTable) (inline : Bool) (owner : String) (c : ClassDecl)
    (p : String × Expr) : Except Fault (List Problem) :=
  (t.attributeType? c p.1).elim (pure [⟨.unknownAttribute ⟨owner, p.1⟩, p.2.span⟩])
    fun type => p.2.attributeProblems t inline ⟨owner, p.1⟩ type

/-- The problems of members are those of the first one and those of the rest. -/
theorem AnnotationUse.memberProblems_cons (owner : String) (c : ClassDecl) (p : String × Expr)
    (rest : List (String × Expr)) :
    AnnotationUse.memberProblems t inline owner c (p :: rest) = do
      let found ← AnnotationUse.problemsOfMember t inline owner c p
      return found ++ (← AnnotationUse.memberProblems t inline owner c rest) := by
  rw [AnnotationUse.memberProblems, AnnotationUse.problemsOfMember]
  cases t.attributeType? c p.1 <;> rfl

/-- The values of one member are checked alike: at the type of the attribute, or by being the same
where there is no such attribute. -/
def AnnotationUse.MemberChecksLike (t : ClassTable) (inline : Bool) (c : ClassDecl) (name : String)
    (e' e : Expr) : Prop :=
  (t.attributeType? c name).elim (e' = e) fun type => Expr.ChecksLike t inline type e' e

section Members

variable {c : ClassDecl} {f : String × Expr → Expr} {members : List (String × Expr)}

/-- Which attributes are missing depends on the names of the members only. -/
theorem ClassDecl.missingAttributes_map (c : ClassDecl) (f : String × Expr → Expr)
    (members : List (String × Expr)) :
    c.missingAttributes (members.map fun p => (p.1, f p)) = c.missingAttributes members := by
  simp only [ClassDecl.missingAttributes, List.any_map, Function.comp_def]

/-- Members that are checked alike miss the same constants. -/
theorem AnnotationUse.MemberChecksLike.constants {name : String}
    (h : AnnotationUse.MemberChecksLike t inline c name e' e) :
    t.unknownConstants e' = t.unknownConstants e := by
  rw [AnnotationUse.MemberChecksLike] at h
  cases hattribute : t.attributeType? c name with
  | none =>
    rw [hattribute] at h
    exact congrArg _ h
  | some type =>
    rw [hattribute] at h
    exact h.constants

variable (h : ∀ p ∈ members, AnnotationUse.MemberChecksLike t inline c p.1 (f p) p.2)

include h

theorem AnnotationUse.memberConstants_map :
    t.unknownConstantsAll
      ((members.map fun p => (p.1, f p)).map (·.2)) = t.unknownConstantsAll
      (members.map (·.2)) := by
  induction members with
  | nil => rfl
  | cons p rest ih =>
    simp only [List.map_cons, ClassTable.unknownConstantsAll]
    rw [(h p List.mem_cons_self).constants, ih fun p hp => h p (List.mem_cons_of_mem _ hp)]

/-- Members that are checked alike have the same problems. -/
theorem AnnotationUse.memberProblems_map (owner : String) :
    AnnotationUse.memberProblems t inline owner c (members.map fun p => (p.1, f p)) =
      AnnotationUse.memberProblems t inline owner c members := by
  induction members with
  | nil => rfl
  | cons p rest ih =>
    have hfirst : AnnotationUse.problemsOfMember t inline owner c (p.1, f p) =
        AnnotationUse.problemsOfMember t inline owner c p := by
      have hmember := h p List.mem_cons_self
      rw [AnnotationUse.MemberChecksLike] at hmember
      rw [AnnotationUse.problemsOfMember, AnnotationUse.problemsOfMember]
      cases hattribute : t.attributeType? c p.1 with
      | none =>
        rw [hattribute] at hmember
        rw [show f p = p.2 from hmember]
      | some type =>
        rw [hattribute] at hmember
        exact hmember.problems _
    rw [List.map_cons, AnnotationUse.memberProblems_cons, AnnotationUse.memberProblems_cons, hfirst,
      ih fun p hp => h p (List.mem_cons_of_mem _ hp)]

/-- Members that are checked alike are settled alike. -/
theorem AnnotationUse.normalizedMembers_map :
    AnnotationUse.normalizedMembers t inline c (members.map fun p => (p.1, f p)) =
      AnnotationUse.normalizedMembers t inline c members := by
  rw [AnnotationUse.normalizedMembers_eq_map, AnnotationUse.normalizedMembers_eq_map, List.map_map]
  refine List.map_congr_left fun p hp => congrArg (Prod.mk p.1) ?_
  have hmember := h p hp
  rw [AnnotationUse.MemberChecksLike] at hmember
  show AnnotationUse.normalizedMember t inline c (p.1, f p) = _
  rw [AnnotationUse.normalizedMember, AnnotationUse.normalizedMember]
  cases hattribute : t.attributeType? c p.1 with
  | none =>
    rw [hattribute] at hmember
    exact hmember
  | some type =>
    rw [hattribute] at hmember
    exact hmember.normalized

end Members

/-- A usage with members that are checked alike is checked alike. -/
theorem AnnotationUse.checksLike_of_members {type : TypeRef} {members : List (String × Expr)}
    {span : Span} {id : ClassId} {c : ClassDecl} {f : String × Expr → Expr}
    (hid : t.annotationId? type = some id) (hget : t.get? id = some c)
    (h : ∀ p ∈ members, AnnotationUse.MemberChecksLike t inline c p.1 (f p) p.2) :
    AnnotationUse.ChecksLike t inline ⟨type, members.map fun p => (p.1, f p), false, span⟩
      ⟨type, members, false, span⟩ where
  type := rfl
  normalized := by
    rw [AnnotationUse.normalized, AnnotationUse.normalized, hid, Option.bind_some, hget]
    exact congrArg (AnnotationUse.mk type · true span) (AnnotationUse.normalizedMembers_map h)
  problems := by
    have hparts (ms : List (String × Expr)) :
      AnnotationUse.problems t inline ⟨type, ms, false, span⟩ = do
        let unknown ← t.unknownConstantsAll (ms.map (·.2))
        let found ← AnnotationUse.memberProblems t inline type.text c ms
        return (c.missingAttributes ms).map
          (fun site => ⟨.missingAttribute site, span⟩) ++ unknown ++ found := by
      rw [AnnotationUse.problems, hid]
      show (t.get id >>= _) = _
      rw [ClassTable.get_eq_ok_iff.mpr hget]
      rfl
    rw [hparts, hparts, c.missingAttributes_map, AnnotationUse.memberConstants_map h,
      AnnotationUse.memberProblems_map h]

/-- What the check leaves, once it is unmarked, is checked like what there was before. -/
theorem normalized_induction (t : ClassTable) (inline : Bool) :
    ValueInduction
      (fun e => e.IsUnchecked →
        ∀ type, Expr.ChecksLike t inline type (e.normalizedAt t inline type).unchecked e)
      (fun a => a.IsUnchecked →
        AnnotationUse.ChecksLike t inline (a.normalized t inline).unchecked a) where
  single e he _ type := by
    have hfolded : (t.foldIf inline e).isSingle = true := ClassTable.foldIf_isSingle he
    obtain ⟨hlist, hclosure, -⟩ := Expr.isSingle_cases hfolded
    rw [Expr.normalizedAt_of_isSingle he, Expr.unchecked_wrapped hlist,
      Expr.unchecked_of_isSingle hfolded]
    exact (Expr.ChecksLike.wrapped hlist hclosure type).trans (.folded he type)
  closure ps body cs s _ type := .refl _
  list es s ih hes type := by
    have helements := Expr.isUnchecked_list_iff.mp hes
    cases type with
    | array c =>
      rw [Expr.normalizedAt, Expr.unchecked, Expr.normalizedAllAt_eq_map, Expr.uncheckedAll_eq_map,
        List.map_map]
      exact .elements (fun e he => ih e he (helements e he) c) s
    | _ =>
      have hfolded : (t.foldIf inline (.list es s)).IsUnchecked := by
        rw [Expr.IsUnchecked, ClassTable.usages_foldIf]
        exact hes
      rw [Expr.normalizedAt_list rfl, unchecked_induction.forValue _ hfolded]
      exact .folded_list rfl es s
  usage a ih ha type := by
    have hunchecked := Expr.isUnchecked_annotationUse_iff.mp ha
    by_cases hwanted : ∃ id, t.attributeSort type.base = .annotationUse id ∧
      (t.resolve a.type).classId? = some id
    · obtain ⟨id, hsort, htype⟩ := hwanted
      rw [Expr.normalizedAt_usage hsort htype, Expr.unchecked_wrapped rfl, Expr.unchecked]
      exact (Expr.ChecksLike.wrapped rfl rfl type).trans ((ih hunchecked).value hsort htype)
    · rw [Expr.normalizedAt_usage_of_ne fun id hsort htype => hwanted ⟨id, hsort, htype⟩,
        Expr.unchecked_wrapped rfl, unchecked_induction.forValue _ ha]
      exact .wrapped rfl rfl type
  members a ih ha := by
    obtain ⟨type, members, validated, span⟩ := a
    obtain ⟨hmark, hvalues⟩ := AnnotationUse.isUnchecked_iff.mp ha
    obtain rfl : validated = false := hmark
    rw [AnnotationUse.normalized, if_neg Bool.false_ne_true]
    cases hid : t.annotationId? type with
    | none =>
      -- nothing is looked at, and the usage is what it was
      have hsame := unchecked_induction.forUsage _ ha
      rw [AnnotationUse.unchecked] at hsame
      rw [Option.bind_none, AnnotationUse.unchecked, hsame]
      exact ⟨rfl, rfl, rfl⟩
    | some id =>
      obtain ⟨c, hget⟩ := ClassTable.exists_get?_of_lt (ClassTable.annotationId?_lt hid)
      rw [Option.bind_some, hget, AnnotationUse.unchecked, AnnotationUse.normalizedMembers_eq_map,
        AnnotationUse.uncheckedMembers_eq_map, List.map_map]
      refine AnnotationUse.checksLike_of_members hid hget fun p hp => ?_
      show AnnotationUse.MemberChecksLike t inline c p.1
        (AnnotationUse.normalizedMember t inline c p).unchecked p.2
      rw [AnnotationUse.MemberChecksLike, AnnotationUse.normalizedMember]
      cases t.attributeType? c p.1 with
      | none => exact unchecked_induction.forValue p.2 (hvalues p hp)
      | some type => exact ih p hp (hvalues p hp) type

/-- A settled usage is checked like the usage that it came from. -/
theorem AnnotationUse.checksLike_normalized {a : AnnotationUse} (h : a.IsUnchecked) :
    (a.normalized t inline).unchecked.ChecksLike t inline a :=
  (normalized_induction t inline).forUsage a h

/-- Let a usage be checked that holds no mark. The check comes to an end where all class numbers
belong to classes. Whenever it does, a second check, with all marks taken away, leaves the usage as
the first one did and finds the same problems. -/
theorem AnnotationUse.validate_unchecked (t : ClassTable) (inline : Bool) {a : AnnotationUse}
    (hnew : a.validated = false) (hnested : ∀ b ∈ a.nested, b.validated = false)
    {log again : ProblemLog} (hlog : log.tolerance = 0) (hagain : again.tolerance = 0) :
    (t.Based → (∀ id ∈ a.classIds, id < t.size) →
      ∃ a₁ log₁, a.validate t inline log = .ok (a₁, log₁)) ∧
    ∀ a₁ log₁, a.validate t inline log = .ok (a₁, log₁) → ∃ found again₁,
      log₁.recorded = log.recorded ++ found ∧
        a₁.unchecked.validate t inline again = .ok (a₁, again₁) ∧
        again₁.recorded = again.recorded ++ found := by
  have hlike : (a.normalized t inline).unchecked.ChecksLike t inline a :=
    AnnotationUse.checksLike_normalized ⟨hnew, hnested⟩
  refine ⟨fun ht hids => AnnotationUse.validate_completes ht hids log, fun a₁ log₁ hrun => ?_⟩
  obtain ⟨found, hfound, rfl, rfl⟩ := AnnotationUse.validate_eq_ok_iff.mp hrun
  refine ⟨found, again.addAll found, ?_, ?_, ?_⟩
  · rw [ProblemLog.addAll_of_unlimited hlog]
  · exact AnnotationUse.validate_eq_ok_iff.mpr
      ⟨found, hlike.problems.trans hfound, hlike.normalized.symm, rfl⟩
  · rw [ProblemLog.addAll_of_unlimited hagain]

/-- A class with a constant, and an annotation type with an array of arrays and another annotation
type as attributes. -/
def foldedTable : ClassTable := [
  { ClassDecl.empty "Config" .ordinary with
    fields := [⟨"MAX", { isStatic := true, isFinal := true }, Builtin.intType, some (.int 10), [],
      .synthetic⟩] },
  { ClassDecl.empty "Inner" .annotationType with
    methods := [.ofAttribute "code" Builtin.intType none] },
  { ClassDecl.empty "Outer" .annotationType with
    methods := [.ofAttribute "names" (.array (.array Builtin.stringType)) none,
      .ofAttribute "first" (.resolved 26 "Inner") none] }].foldl .add .seeded

/-- A usage that refers to the constant. -/
def referringUse : AnnotationUse :=
  ⟨.resolved 26 "Inner", [("code", .prop (.literal (.resolved 25 "Config")) "MAX")], false,
    .synthetic⟩

/-- A usage with the other one inside, and with a member that is no attribute. -/
def surplusUse : AnnotationUse :=
  ⟨.resolved 27 "Outer",
    [("names", .string "x"), ("first", .annotationUse referringUse), ("other", .int 7)], false,
    .synthetic⟩

def surplusProblem : Problem := ⟨.unknownAttribute ⟨"Outer", "other"⟩, .synthetic⟩

/-- A single string for an array of arrays, a reference that is folded in a usage inside the usage,
and a member that is no attribute. -/
theorem AnnotationUse.validate_unchecked_nested :
    surplusUse.validated = false ∧ (∀ b ∈ surplusUse.nested, b.validated = false) ∧
      ∃ a₁ log₁ again₁, surplusUse.validate foldedTable true {} = .ok (a₁, log₁) ∧
        log₁.recorded = [surplusProblem] ∧
        a₁.unchecked.validate foldedTable true {} = .ok (a₁, again₁) ∧
        again₁.recorded = [surplusProblem] := by
  have ht : foldedTable.Based := ⟨ClassTable.numbered_iff.mpr (by decide), by decide⟩
  have hids : ∀ id ∈ surplusUse.classIds, id < foldedTable.size := by decide
  have hnested : ∀ b ∈ surplusUse.nested, b.validated = false := by
    show ∀ b ∈ [referringUse], _
    exact List.forall_mem_singleton.mpr rfl
  have hlog : ({} : ProblemLog).tolerance = 0 := rfl
  obtain ⟨hends, hagain⟩ :=
    AnnotationUse.validate_unchecked foldedTable true (a := surplusUse) rfl hnested hlog hlog
  obtain ⟨a₁, log₁, hrun⟩ := hends ht hids
  obtain ⟨found, again₁, hrecorded, hrun₁, hrecorded₁⟩ := hagain a₁ log₁ hrun
  have hproblem :
      ∃ b, surplusUse.validate foldedTable true {} = .ok (b, ⟨[surplusProblem], 0, 0⟩) := ⟨_, rfl⟩
  obtain ⟨b, hrun'⟩ := hproblem
  cases hrun.symm.trans hrun'
  exact ⟨rfl, hnested, a₁, _, again₁, hrun, rfl, hrun₁, hrecorded₁.trans hrecorded.symm⟩

/-- A usage that is itself marked as checked is left alone at first, and looked at only when the
mark is taken away. -/
theorem AnnotationUse.validate_unchecked_not_of_marked :
    (∀ b ∈ checkedUse.nested, b.validated = false) ∧
      ∃ a₁ log₁ a₂ log₂, checkedUse.validate ClassTable.seeded true {} = .ok (a₁, log₁) ∧
        a₁.unchecked.validate ClassTable.seeded true {} = .ok (a₂, log₂) ∧ log₁.recorded = [] ∧
          log₂.recorded = [⟨.notAnAnnotationType "Object", .synthetic⟩] :=
  ⟨List.forall_mem_nil _, _, _, _, _, rfl, rfl, rfl, rfl⟩

end

end Metaobject
