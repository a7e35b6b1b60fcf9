import Metaobject.Proofs.Annotation.Revalidation

/-!
# Values of enum attributes

A usage that is accepted gives an attribute of an enum type only references into the enum or a class
below it. That such a reference names a constant is checked where it is a property of a class
literal of an enum. A field expression, or a property of another class below the enum, is accepted
whatever it names.

* `Expr.names_of_attributeProblems`: what is accepted at an enum type is a reference.
* `ClassTable.declaresConstant_of_unknownConstants`: which references are checked to name a
  constant.
* `AnnotationUse.validate_constants_iff`: which values of enum attributes denote constants.
-/

namespace Metaobject

/-! ## References to constants -/

/-- The expression is one of the single values that a value gives to an attribute of this type: the
value itself, or, at an array type, what the elements of the list give. A single value stands for
the list that holds it. -/
inductive Expr.Gives (x : Expr) : TypeRef → Expr → Prop
  | value {type : TypeRef} (htype : type.isArray = false) : Expr.Gives x type x
  | single {c : TypeRef} {e : Expr} (hlist : e.isList = false) (h : Expr.Gives x c e) :
      Expr.Gives x (.array c) e
  | element {c : TypeRef} {e : Expr} {es : List Expr} {span : Span} (he : e ∈ es)
      (h : Expr.Gives x c e) :
      Expr.Gives x (.array c) (.list es span)

def Expr.isField : Expr → Bool
  | .field .. => true
  | _ => false

namespace ClassTable

/-- The expression is a reference to a member of a class, written as a property of a class literal
or as a field. -/
inductive Refers (t : ClassTable) : Expr → ClassId → String → Prop
  | property {type : TypeRef} {typeSpan span : Span} {name : String} {owner : ClassId}
      (h : (t.resolve type).classId? = some owner) :
      Refers t (.property (.classRef type typeSpan) name span) owner name
  | field {owner : ClassId} {name : String} {span : Span} :
      Refers t (.field owner name span) owner name

def DeclaresConstant (t : ClassTable) (owner : ClassId) (name : String) : Prop :=
  ∃ c, t.get? owner = some c ∧ ∃ f ∈ c.enumConstants, f.name = name

/-- The expression refers to a declared constant of a class that is the enum `id` or derives from
it. -/
def DenotesConstant (t : ClassTable) (id : ClassId) (x : Expr) : Prop :=
  ∃ owner name, t.Refers x owner name ∧ t.Derives owner id ∧ t.DeclaresConstant owner name

end ClassTable

/-- The expression is a value of an attribute whose type is the enum `id`, or an array of it at any
depth. The string class, the wrappers and the class of class objects are no enums, even if a table
declares them so. -/
inductive AnnotationUse.GivesToEnum (t : ClassTable) (a : AnnotationUse) (id : ClassId)
    (x : Expr) : Prop
  | intro {typeId : ClassId} {c : ClassDecl} {p : String × Expr} {m : Method} {name : String}
      (htype : (t.resolve a.type).classId? = some typeId) (hget : t.get? typeId = some c)
      (hp : p ∈ a.members)
      (hm : c.method? p.1 0 = some m) (hbase : (t.resolve m.returnType).base = .resolved id name)
      (hsimple : t.isSimple id = false) (hclass : id ≠ Builtin.classObject)
      (henum : t.IsEnumType id)
      (hx : x.Gives (t.resolve m.returnType) p.2)

section

variable {t : ClassTable} {inline : Bool} {site : AttributeSite} {type c : TypeRef} {e x : Expr}
  {id owner : ClassId} {name : String}

/-- A value refers to something in a class exactly if it names something there. -/
theorem ClassTable.exists_refers_iff : (∃ name, t.Refers x owner name) ↔ t.NamesIn x owner := by
  constructor
  · rintro ⟨name, h | _⟩
    · exact .property h
    · exact .field
  · rintro (h | _)
    · exact ⟨_, .property h⟩
    · exact ⟨_, .field⟩

/-- A value refers to one name in one class. -/
theorem ClassTable.Refers.unique {owner' : ClassId} {name' : String} (h : t.Refers x owner name)
    (h' : t.Refers x owner' name') : owner = owner' ∧ name = name' := by
  cases h with
  | property h =>
    cases h' with
    | property h' => exact ⟨Option.some.inj (h.symm.trans h'), rfl⟩
  | field =>
    cases h' with
    | field => exact ⟨rfl, rfl⟩

/-- A reference denotes a constant of the enum exactly if its class declares the name as one. -/
theorem ClassTable.Refers.denotesConstant_iff (h : t.Refers x owner name)
    (hderives : t.Derives owner id) : t.DenotesConstant id x ↔ t.DeclaresConstant owner name := by
  constructor
  · rintro ⟨owner', name', h', -, hdeclares⟩
    obtain ⟨rfl, rfl⟩ := h.unique h'
    exact hdeclares
  · exact fun hdeclares => ⟨owner, name, h, hderives, hdeclares⟩

/-! ## The single values of a value -/

/-- What is no list gives an array what it gives the element type. -/
theorem Expr.gives_array_iff (hlist : e.isList = false) : x.Gives (.array c) e ↔ x.Gives c e := by
  constructor
  · intro h
    cases h with
    | value htype => cases htype
    | single _ h => exact h
    | element => cases hlist
  · exact .single hlist

/-- A list gives an array what its elements give. -/
theorem Expr.gives_array_list_iff {es : List Expr} {span : Span} :
    x.Gives (.array c) (.list es span) ↔ ∃ e ∈ es, x.Gives c e := by
  constructor
  · intro h
    cases h with
    | value htype => cases htype
    | single hlist => cases hlist
    | element he h => exact ⟨_, he, h⟩
  · rintro ⟨e, he, h⟩
    exact .element he h

/-- What is no list only gives itself. -/
theorem Expr.Gives.eq_of_not_list (h : x.Gives type e) (he : e.isList = false) : x = e := by
  induction h with
  | value => rfl
  | single _ _ ih => exact ih he
  | element => cases he

/-- Wrapping a value into lists changes nothing about what it gives. -/
theorem Expr.gives_wrapped_iff (hlist : e.isList = false) (type : TypeRef) :
    x.Gives type (e.wrapped type) ↔ x.Gives type e := by
  induction type with
  | array c ih =>
    rw [Expr.wrapped, Expr.gives_array_list_iff, Expr.gives_array_iff hlist, ← ih]
    simp
  | _ => rfl

/-! ## What is accepted at an enum type -/

/-- A type without array brackets is its own base. -/
theorem TypeRef.base_of_not_array (htype : type.isArray = false) : type.base = type := by
  cases type with
  | array c => cases htype
  | _ => rfl

/-- A check that goes through a list and finds nothing has found nothing with any element. -/
theorem ClassTable.forall_eq_nil {α : Type} {f : α → Except Fault (List Problem)}
    {checkAll : List α → Except Fault (List Problem)}
    (hcons : ∀ a as, checkAll (a :: as) = do
      let found ← f a
      return found ++ (← checkAll as))
    {as : List α} (h : checkAll as = .ok []) : ∀ a ∈ as, f a = .ok [] := by
  induction as with
  | nil => exact List.forall_mem_nil _
  | cons a as ih =>
    rw [hcons, ClassTable.bind_append_eq_nil_iff] at h
    exact List.forall_mem_cons.mpr ⟨h.1, ih h.2⟩

/-- If no constants of a list are missing, none of its elements are. -/
theorem ClassTable.forall_unknownConstants_eq_nil {es : List Expr}
    (h : t.unknownConstantsAll es = .ok []) : ∀ e ∈ es, t.unknownConstants e = .ok [] :=
  ClassTable.forall_eq_nil (fun _ _ => by rw [ClassTable.unknownConstantsAll]) h

/-- A reference into a class that is left after folding was there before. -/
theorem ClassTable.foldIf_eq_of_namesIn (hlist : e.isList = false)
    (h : t.NamesIn (t.foldIf inline e) owner) : t.foldIf inline e = e := by
  cases inline with
  | false => rfl
  | true =>
    have hfold : t.foldIf true e = _ := ClassTable.fold_of_not_list hlist
    rw [hfold] at h ⊢
    cases hconstant : t.referredConstant? e with
    | none => rfl
    | some v =>
      rw [hconstant] at h
      cases h

section Enum

variable (hsimple : t.isSimple id = false) (hclass : id ≠ Builtin.classObject)
  (henum : t.IsEnumType id)

include hsimple hclass henum

/-- An enum type is treated as one. -/
theorem ClassTable.attributeSort_of_enum (name : String) :
    t.attributeSort (.resolved id name) = .enum id := by
  rw [ClassTable.attributeSort, if_neg (Bool.eq_false_iff.mp hsimple), if_neg hclass,
    if_pos (ClassTable.isEnumType_iff.mpr henum)]

/-- A single value is accepted if it refers into the enum or a class below it. -/
theorem ClassTable.names_of_scalarProblems
    (h : t.scalarProblems site (.resolved id name) e = .ok []) :
    ∃ owner, t.NamesIn e owner ∧ t.Derives owner id := by
  have hsort := ClassTable.attributeSort_of_enum hsimple hclass henum name
  rw [ClassTable.scalarProblems_eq_nil_iff false rfl fun a id' _ hsort' => by
    rw [hsort] at hsort'
    cases hsort'] at h
  exact (Expr.conforms_enum_iff hsimple hclass henum).mp h

variable (hbase : type.base = .resolved id name)

include hbase

/-- What is accepted at an enum type, or at an array of it, is a reference and not folded. -/
theorem Expr.names_of_attributeProblems (hlist : e.isList = false)
    (h : e.attributeProblems t inline site type = .ok []) :
    (∃ owner, t.NamesIn e owner ∧ t.Derives owner id) ∧
      e.normalizedAt t inline type = e.wrapped type := by
  have hnames (e : Expr) (h : t.scalarProblems site type.base e = .ok []) :
      ∃ owner, t.NamesIn e owner ∧ t.Derives owner id := by
    rw [hbase] at h
    exact ClassTable.names_of_scalarProblems hsimple hclass henum h
  by_cases hsingle : e.isSingle = true
  · rw [Expr.attributeProblems_of_isSingle hsingle] at h
    obtain ⟨owner, howner, hderives⟩ := hnames _ h
    have hfold : t.foldIf inline e = e :=
      ClassTable.foldIf_eq_of_namesIn (Expr.isSingle_cases hsingle).1 howner
    rw [hfold] at howner
    refine ⟨⟨owner, howner, hderives⟩, ?_⟩
    rw [Expr.normalizedAt_of_isSingle hsingle, hfold]
  · -- closures and usages are no references
    exfalso
    cases e with
    | list => cases hlist
    | closure ps body cs s =>
      rw [Expr.attributeProblems] at h
      split at h
      · cases h
      · rename_i harray
        rw [← TypeRef.base_of_not_array (Bool.eq_false_iff.mpr harray)] at h
        obtain ⟨owner, howner, -⟩ := hnames _ h
        cases howner
    | annotationUse a =>
      have hsort := ClassTable.attributeSort_of_enum hsimple hclass henum name
      rw [Expr.attributeProblems, hbase, hsort, ← hbase] at h
      obtain ⟨owner, howner, -⟩ := hnames _ h
      cases howner
    | _ => exact hsingle rfl

/-- An accepted value refers into the enum with everything it gives, and the check changes nothing
about that. -/
theorem Expr.gives_of_attributeProblems (h : e.attributeProblems t inline site type = .ok [])
    (x : Expr) :
    (x.Gives type e → ∃ owner, t.NamesIn x owner ∧ t.Derives owner id) ∧
      (x.Gives type (e.normalizedAt t inline type) ↔ x.Gives type e) := by
  induction e using ClassTable.list_induction generalizing type with
  | other e hlist =>
    obtain ⟨hnames, hnormalized⟩ :=
      Expr.names_of_attributeProblems hsimple hclass henum hbase hlist h
    refine ⟨fun hx => ?_, ?_⟩
    · rwa [hx.eq_of_not_list hlist]
    · rw [hnormalized, Expr.gives_wrapped_iff hlist]
  | list es s ih =>
    by_cases htype : ∃ c, type = .array c
    · obtain ⟨c, rfl⟩ := htype
      have hbase : c.base = .resolved id name := hbase
      rw [Expr.attributeProblems] at h
      have hnone := ClassTable.forall_eq_nil (fun _ _ => by rw [Expr.attributeProblemsAll]) h
      have helements (e : Expr) (he : e ∈ es) := ih e he hbase (hnone e he)
      rw [Expr.gives_array_list_iff, Expr.normalizedAt, Expr.gives_array_list_iff,
        Expr.normalizedAllAt_eq_map]
      refine ⟨?_, ?_⟩
      · rintro ⟨e, he, hx⟩
        exact (helements e he).1 hx
      · simp only [List.mem_map, exists_exists_and_eq_and]
        exact exists_congr fun e => and_congr_right fun he => (helements e he).2
    · -- a list is no reference
      have htype : type.isArray = false := by
        cases type with
        | array c => exact absurd ⟨c, rfl⟩ htype
        | _ => rfl
      obtain rfl : type = .resolved id name := (TypeRef.base_of_not_array htype).symm.trans hbase
      rw [Expr.attributeProblems_list rfl] at h
      obtain ⟨owner, howner, -⟩ := ClassTable.names_of_scalarProblems hsimple hclass henum h
      cases howner

end Enum

/-! ## Which references are checked -/

/-- If no constants of a value are missing, none are missing in what it gives. -/
theorem Expr.Gives.unknownConstants (hx : x.Gives type e) (h : t.unknownConstants e = .ok []) :
    t.unknownConstants x = .ok [] := by
  induction hx with
  | value => exact h
  | single _ _ ih => exact ih h
  | element he _ ih =>
    rw [ClassTable.unknownConstants] at h
    exact ih (ClassTable.forall_unknownConstants_eq_nil h _ he)

/-- A property of a class literal of an enum is checked to name a constant. -/
theorem ClassTable.declaresConstant_of_unknownConstants (h : t.unknownConstants x = .ok [])
    (hrefers : t.Refers x owner name) (hfield : x.isField = false) (henum : t.isEnum owner = true) :
    t.DeclaresConstant owner name := by
  cases hrefers with
  | field => cases hfield
  | property hid =>
    obtain ⟨c, hget⟩ := ClassTable.exists_get?_of_lt (ClassTable.lt_of_any_get? henum)
    refine ⟨c, hget, ?_⟩
    have hkind : c.isEnum = true := by
      rw [ClassTable.isEnum, hget] at henum
      exact henum
    rw [ClassTable.unknownConstants] at h
    simp only [hid] at h
    change (t.get owner >>= _) = _ at h
    rw [ClassTable.get_eq_ok_iff.mpr hget] at h
    change (if _ then pure [_] else pure [] : Except Fault (List Problem)) = .ok [] at h
    split at h
    · cases h
    · rename_i hknown
      simpa [hkind] using hknown

/-! ## Accepted usages -/

/-- An accepted usage has no problems and comes back settled. -/
theorem AnnotationUse.problems_of_accepted {a a' : AnnotationUse} {log log' : ProblemLog}
    (hlog : log.tolerance = 0) (hrun : a.validate t inline log = .ok (a', log'))
    (hnone : log'.recorded = log.recorded) :
    a.problems t inline = .ok [] ∧ a' = a.normalized t inline := by
  obtain ⟨found, hfound, ha', rfl⟩ := AnnotationUse.validate_eq_ok_iff.mp hrun
  rw [ProblemLog.addAll_of_unlimited hlog] at hnone
  rw [List.append_right_eq_self.mp hnone] at hfound
  exact ⟨hfound, ha'⟩

/-- What a usage without problems shows of its members, whether or not it holds other usages. -/
theorem AnnotationUse.members_of_problems {a : AnnotationUse} (hnew : a.validated = false)
    (h : a.problems t inline = .ok []) :
    ∃ typeId c, (t.resolve a.type).classId? = some typeId ∧ t.get? typeId = some c ∧
      (a.normalized t inline).members =
        (a.members.map fun p => (p.1, AnnotationUse.normalizedMember t inline c p)) ∧
      ∀ p ∈ a.members, t.unknownConstants p.2 = .ok [] ∧
        AnnotationUse.problemsOfMember t inline a.type.text c p = .ok [] := by
  obtain ⟨type, members, validated, span⟩ := a
  obtain rfl : validated = false := hnew
  rw [AnnotationUse.problems, if_neg Bool.false_ne_true] at h
  cases hid : t.annotationId? type with
  | none =>
    rw [hid] at h
    cases h
  | some typeId =>
    obtain ⟨c, hget⟩ := ClassTable.exists_get?_of_lt (ClassTable.annotationId?_lt hid)
    rw [hid] at h
    change (t.get typeId >>= _) = _ at h
    rw [ClassTable.get_eq_ok_iff.mpr hget] at h
    obtain ⟨-, hconstants, hmembers⟩ := ClassTable.append_bind_eq_nil_iff.mp h
    refine ⟨typeId, c, (Option.filter_eq_some_iff.mp hid).1, hget, ?_, fun p hp => ⟨?_, ?_⟩⟩
    · rw [AnnotationUse.normalized, if_neg Bool.false_ne_true, hid, Option.bind_some, hget]
      exact AnnotationUse.normalizedMembers_eq_map c members
    · exact ClassTable.forall_unknownConstants_eq_nil hconstants p.2 (List.mem_map_of_mem hp)
    · exact ClassTable.forall_eq_nil (AnnotationUse.memberProblems_cons _ c) hmembers p hp

section Accepted

variable {a : AnnotationUse} (hnew : a.validated = false) (h : a.problems t inline = .ok [])

include hnew h

/-- Accepted values of enum attributes are references into the enum, and properties of class
literals of enums among them name constants. -/
theorem AnnotationUse.refers_of_problems (hx : a.GivesToEnum t id x) :
    ∃ owner name, t.Refers x owner name ∧ t.Derives owner id ∧
      (x.isField = false → t.isEnum owner = true → t.DeclaresConstant owner name) := by
  obtain ⟨typeId, c, htype, hget, -, hmembers⟩ := AnnotationUse.members_of_problems hnew h
  obtain ⟨htype', hget', hp, hm, hbase, hsimple, hclass, henum, hx⟩ := hx
  cases htype.symm.trans htype'
  cases hget.symm.trans hget'
  obtain ⟨hconstants, hproblems⟩ := hmembers _ hp
  rw [AnnotationUse.problemsOfMember, ClassTable.attributeType?, hm] at hproblems
  obtain ⟨owner, howner, hderives⟩ :=
    (Expr.gives_of_attributeProblems hsimple hclass henum hbase hproblems x).1 hx
  obtain ⟨name, hrefers⟩ := ClassTable.exists_refers_iff.mpr howner
  refine ⟨owner, name, hrefers, hderives, ?_⟩
  exact ClassTable.declaresConstant_of_unknownConstants (hx.unknownConstants hconstants) hrefers

/-- The check leaves the values of enum attributes as they are. -/
theorem AnnotationUse.givesToEnum_normalized_iff :
    (a.normalized t inline).GivesToEnum t id x ↔ a.GivesToEnum t id x := by
  obtain ⟨typeId, c, htype, hget, hnormalized, hmembers⟩ := AnnotationUse.members_of_problems hnew h
  -- the check replaces the members one by one, so it is enough to compare one member with its
  -- replacement
  have hmember {p : String × Expr} {m : Method} {name : String} (hp : p ∈ a.members)
    (hm : c.method? p.1 0 = some m)
      (hbase : (t.resolve m.returnType).base = .resolved id name) (hsimple : t.isSimple id = false)
      (hclass : id ≠ Builtin.classObject) (henum : t.IsEnumType id) :
      x.Gives (t.resolve m.returnType) (AnnotationUse.normalizedMember t inline c p) ↔
        x.Gives (t.resolve m.returnType) p.2 := by
    have hproblems := (hmembers p hp).2
    rw [AnnotationUse.problemsOfMember, ClassTable.attributeType?, hm] at hproblems
    rw [AnnotationUse.normalizedMember, ClassTable.attributeType?, hm]
    exact (Expr.gives_of_attributeProblems hsimple hclass henum hbase hproblems x).2
  constructor
  · rintro ⟨htype', hget', hp, hm, hbase, hsimple, hclass, henum, hx⟩
    rw [AnnotationUse.type_normalized] at htype'
    cases htype.symm.trans htype'
    cases hget.symm.trans hget'
    rw [hnormalized] at hp
    obtain ⟨p, hmem, rfl⟩ := List.mem_map.mp hp
    exact ⟨htype, hget, hmem, hm, hbase, hsimple, hclass, henum,
      (hmember hmem hm hbase hsimple hclass henum).mp hx⟩
  · rintro ⟨htype', hget', hp, hm, hbase, hsimple, hclass, henum, hx⟩
    cases htype.symm.trans htype'
    cases hget.symm.trans hget'
    have hp' :=
      List.mem_map_of_mem (f := fun p => (p.1, AnnotationUse.normalizedMember t inline c p)) hp
    rw [← hnormalized] at hp'
    refine ⟨?_, hget, hp', hm, hbase, hsimple, hclass, henum,
      (hmember hp hm hbase hsimple hclass henum).mpr hx⟩
    rw [AnnotationUse.type_normalized]
    exact htype

end Accepted

/-- Let a usage be accepted. It gives the same values to enum attributes before and after the check,
and all of them refer into the enum or a class below it. Such a value denotes a declared constant
unless it is one that no check looks at, a field expression or a property of a class that is no
enum, and names none. -/
theorem AnnotationUse.validate_constants_iff {a a' : AnnotationUse} {log log' : ProblemLog}
    (hnew : a.validated = false) (hlog : log.tolerance = 0)
    (hrun : a.validate t inline log = .ok (a', log')) (hnone : log'.recorded = log.recorded)
    (id : ClassId) (x : Expr) :
    (a'.GivesToEnum t id x ↔ a.GivesToEnum t id x) ∧
      (a.GivesToEnum t id x → ∃ owner name, t.Refers x owner name ∧ t.Derives owner id ∧
        (t.DenotesConstant id x ↔
          (x.isField = true ∨ t.isEnum owner = false → t.DeclaresConstant owner name))) := by
  obtain ⟨hproblems, rfl⟩ := AnnotationUse.problems_of_accepted hlog hrun hnone
  refine ⟨AnnotationUse.givesToEnum_normalized_iff hnew hproblems, fun hx => ?_⟩
  obtain ⟨owner, name, hrefers, hderives, hchecked⟩ :=
    AnnotationUse.refers_of_problems hnew hproblems hx
  refine ⟨owner, name, hrefers, hderives, ?_⟩
  rw [hrefers.denotesConstant_iff hderives]
  refine ⟨fun hdeclares _ => hdeclares, fun hrest => ?_⟩
  by_cases hunchecked : x.isField = true ∨ t.isEnum owner = false
  · exact hrest hunchecked
  · obtain ⟨hfield, henum⟩ := not_or.mp hunchecked
    exact hchecked (Bool.eq_false_iff.mpr hfield) (Bool.not_eq_false _ ▸ henum)

/-- An enum with one constant, and an annotation type with an attribute. -/
def paletteTable (name : String) (type : TypeRef) : ClassTable := [
  { ClassDecl.empty "Color" .enum with
    superclass := some (.resolved 23 "Enum")
    fields := [⟨"RED", { isStatic := true, isFinal := true, isEnum := true },
      .resolved 25 "Color", none, [], .synthetic⟩] },
  { ClassDecl.empty "Paint" .annotationType with
    methods := [.ofAttribute name type none] }].foldl .add .seeded

def colorsTable : ClassTable := paletteTable "colors" (.array (.resolved 25 "Color"))

/-- The constant, as a property of its enum. -/
def redProperty : Expr := .prop (.literal (.resolved 25 "Color")) "RED"

def colorsUse : AnnotationUse :=
  ⟨.resolved 26 "Paint", [("colors", .list [redProperty] .synthetic)], false, .synthetic⟩

/-- A list with a property of the enum, for an array of the enum. -/
theorem AnnotationUse.validate_constants_red :
    ∃ a' log', colorsUse.validate colorsTable true {} = .ok (a', log') ∧ log'.recorded = [] ∧
      colorsUse.GivesToEnum colorsTable 25 redProperty ∧
      colorsTable.DenotesConstant 25 redProperty := by
  have hrun : ∃ a', colorsUse.validate colorsTable true {} = .ok (a', {}) := ⟨_, rfl⟩
  obtain ⟨a', hrun⟩ := hrun
  have hgives : colorsUse.GivesToEnum colorsTable 25 redProperty := by
    have hx : redProperty.Gives (.array (.resolved 25 "Color")) (.list [redProperty] .synthetic) :=
      .element (List.mem_singleton_self redProperty) (.value rfl)
    exact .intro (c := colorsTable.classes[26]) rfl rfl (List.mem_singleton_self _) rfl rfl
      (by decide) (by decide) (.inl (by decide)) hx
  refine ⟨a', {}, hrun, rfl, hgives, ?_⟩
  obtain ⟨owner, name, hrefers, -, hdenotes⟩ :=
    (AnnotationUse.validate_constants_iff rfl rfl hrun rfl 25 redProperty).2 hgives
  -- a property of the enum is no reference that goes unchecked
  obtain ⟨rfl, rfl⟩ := hrefers.unique (ClassTable.Refers.property rfl)
  exact hdenotes.mpr fun hunchecked => (hunchecked.elim Bool.false_ne_true (by decide)).elim

def oneColorTable : ClassTable := paletteTable "color" (.resolved 25 "Color")

def missingUse : AnnotationUse :=
  ⟨.resolved 26 "Paint", [("color", .fieldOf 25 "NOPE")], false, .synthetic⟩

/-- A field expression is accepted though the enum has no such constant. -/
theorem AnnotationUse.validate_constants_missed :
    ∃ a' log', missingUse.validate oneColorTable true {} = .ok (a', log') ∧ log'.recorded = [] ∧
      missingUse.GivesToEnum oneColorTable 25 (.fieldOf 25 "NOPE") ∧
      ¬oneColorTable.DenotesConstant 25 (.fieldOf 25 "NOPE") := by
  have hx : (Expr.fieldOf 25 "NOPE").Gives (.resolved 25 "Color") (.fieldOf 25 "NOPE") := .value rfl
  refine ⟨_, _, rfl, rfl, ?_, ?_⟩
  · exact .intro (c := oneColorTable.classes[26]) rfl rfl (List.mem_singleton_self _) rfl rfl
      (by decide) (by decide) (.inl (by decide)) hx
  · rintro ⟨owner, name, hrefers, -, c, hget, f, hf, hname⟩
    obtain ⟨rfl, rfl⟩ := hrefers.unique ClassTable.Refers.field
    cases hget
    cases List.mem_singleton.mp hf
    exact absurd hname (by decide)

end

end Metaobject
