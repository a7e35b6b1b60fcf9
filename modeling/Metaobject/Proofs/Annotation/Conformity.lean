import Metaobject.Proofs.Annotation.Totality
import Metaobject.Proofs.ClassTable.Derivation
import Metaobject.Tree.Build

/-!
# Which usages are accepted

What an annotation usage has to be, said without the check: `AnnotationUse.Valid` for a usage, and
`Expr.Conforms` for a value and the type of its attribute. The check finds no problem exactly in the
usages that are valid. A usage that is marked as checked is not looked at again, whatever it holds.

* `ClassTable.scalarProblems_eq_nil_iff`: the check of a single value.
* `ClassTable.unknownConstants_eq_nil_iff`: the check of the enum constants that a value names.
* `AnnotationUse.problems_eq_nil_iff`: the check of a usage, with all values and usages inside it.
* `AnnotationUse.validate_accepts_iff`: what the log is given.
-/

namespace Metaobject

/-! ## Valid usages -/

/-- The expression is the value, or stands in it inside list literals. -/
inductive Expr.Listed (x : Expr) : Expr → Prop
  | self : Expr.Listed x x
  | element {e : Expr} {es : List Expr} {span : Span} (he : e ∈ es) (hx : Expr.Listed x e) :
      Expr.Listed x (.list es span)

/-- Whether a value stands for a class: a class literal, or a closure that is made into one. -/
def Expr.isClassValue : Expr → Bool
  | .classRef .. | .closure .. => true
  | _ => false

def Expr.isList : Expr → Bool
  | .list .. => true
  | _ => false

def Expr.isClosure : Expr → Bool
  | .closure .. => true
  | _ => false

namespace ClassTable

/-- Wherever a value names something in an enum, through a class literal, it is one of the constants
of the enum. -/
def NamesConstants (t : ClassTable) (value : Expr) : Prop :=
  ∀ type typeSpan name span id c,
    Expr.Listed (.property (.classRef type typeSpan) name span) value →
    (t.resolve type).classId? = some id → t.get? id = some c → c.isEnum = true →
    ∃ f ∈ c.enumConstants, f.name = name

/-- The class that a value names something in. -/
inductive NamesIn (t : ClassTable) : Expr → ClassId → Prop
  | property {type : TypeRef} {typeSpan span : Span} {name : String} {owner : ClassId}
      (h : (t.resolve type).classId? = some owner) :
      NamesIn t (.property (.classRef type typeSpan) name span) owner
  | field {owner : ClassId} {name : String} {span : Span} : NamesIn t (.field owner name span) owner

/-- Enums, the bodies of their constants, and all other classes below the base class of the
enums. -/
def IsEnumType (t : ClassTable) (id : ClassId) : Prop :=
  t.isEnum id = true ∨ t.Derives id Builtin.enumBase

end ClassTable

mutual

/-- A value fits a type. The first of the cases literal, class, constant and usage that the class of
the type belongs to decides. -/
inductive Expr.Conforms (t : ClassTable) (inline : Bool) : TypeRef → Expr → Prop
  | elements {c : TypeRef} {es : List Expr} {span : Span}
      (h : ∀ e ∈ es, Expr.Conforms t inline c e) :
      Expr.Conforms t inline (.array c) (.list es span)
  /-- A single value stands for the list that holds it. -/
  | single {c : TypeRef} {e : Expr} (hlist : e.isList = false) (hclosure : e.isClosure = false)
      (h : Expr.Conforms t inline c e) : Expr.Conforms t inline (.array c) e
  | literal {id found : ClassId} {name : String} {v : Constant} {span : Span}
      (hsimple : t.isSimple id = true)
      (hclass : Builtin.constantClass v = some found)
      (hfits : t.Derives found (Builtin.wrapperOf id)) :
      Expr.Conforms t inline (.resolved id name) (.constant v span)
  | classValue {id : ClassId} {name : String} {e : Expr} (hsimple : t.isSimple id = false)
      (hclass : id = Builtin.classObject) (he : e.isClassValue = true) :
      Expr.Conforms t inline (.resolved id name) e
  | constant {id owner : ClassId} {name : String} {e : Expr} (hsimple : t.isSimple id = false)
      (hclass : id ≠ Builtin.classObject) (henum : t.IsEnumType id) (hnames : t.NamesIn e owner)
      (hfits : t.Derives owner id) : Expr.Conforms t inline (.resolved id name) e
  | usage {id : ClassId} {name : String} {a : AnnotationUse} (hsimple : t.isSimple id = false)
      (hclass : id ≠ Builtin.classObject) (henum : ¬t.IsEnumType id)
      (hkind : t.isAnnotationType id = true)
      (htype : (t.resolve a.type).classId? = some id) (hvalid : AnnotationUse.Valid t inline a) :
      Expr.Conforms t inline (.resolved id name) (.annotationUse a)

/-- A usage is of an annotation type, gives a value to every attribute without a default, names
constants that exist, and gives values to attributes only, each of which fits after folding. -/
inductive AnnotationUse.Valid (t : ClassTable) (inline : Bool) : AnnotationUse → Prop
  | intro {a : AnnotationUse} {id : ClassId} {c : ClassDecl}
      (htype : (t.resolve a.type).classId? = some id)
      (hget : t.get? id = some c) (hkind : c.isAnnotationType = true)
      (hgiven : ∀ m ∈ c.methods, m.default = none → ∃ p ∈ a.members, p.1 = m.name)
      (hnames : ∀ p ∈ a.members, t.NamesConstants p.2)
      (hattributes : ∀ p ∈ a.members, ∃ m ∈ c.methods, m.name = p.1 ∧ m.arity = 0)
      (hfits : ∀ p ∈ a.members, ∀ m, c.method? p.1 0 = some m →
        Expr.Conforms t inline (t.resolve m.returnType) (t.foldIf inline p.2)) :
      AnnotationUse.Valid t inline a

end

/-! ## The cases of conformity -/

section Cases

variable {t : ClassTable} {inline : Bool} {id : ClassId} {name : String} {e : Expr} {type : TypeRef}

/-- A list fits an array if all its elements fit. -/
theorem Expr.conforms_array_list_iff {es : List Expr} {span : Span} :
    Expr.Conforms t inline (.array type) (.list es span) ↔
      ∀ e ∈ es, Expr.Conforms t inline type e := by
  constructor
  · intro h
    cases h with
    | elements h => exact h
    | single hlist => cases hlist
  · exact .elements

/-- Any other value fits an array if it fits the element type. -/
theorem Expr.conforms_array_iff (hlist : e.isList = false) (hclosure : e.isClosure = false) :
    Expr.Conforms t inline (.array type) e ↔ Expr.Conforms t inline type e := by
  constructor
  · intro h
    cases h with
    | elements => cases hlist
    | single _ _ h => exact h
  · exact .single hlist hclosure

/-- Array brackets do not matter for a single value. -/
theorem Expr.conforms_base_iff (hlist : e.isList = false) (hclosure : e.isClosure = false) :
    Expr.Conforms t inline type.base e ↔ Expr.Conforms t inline type e := by
  induction type with
  | array c ih => exact ih.trans (Expr.conforms_array_iff hlist hclosure).symm
  | _ => rfl

/-- A closure fits no array. -/
theorem Expr.not_conforms_array_closure (hclosure : e.isClosure = true) :
    ¬Expr.Conforms t inline (.array type) e := by
  intro h
  cases h with
  | elements => cases hclosure
  | single _ hno => exact Bool.noConfusion (hno.symm.trans hclosure)

theorem Expr.not_conforms_unresolved : ¬Expr.Conforms t inline (.unresolved name) e := nofun

/-- A simple type takes literals that box to its wrapper. -/
theorem Expr.conforms_simple_iff (hsimple : t.isSimple id = true) :
    Expr.Conforms t inline (.resolved id name) e ↔
    ∃ v span found, e = .constant v span ∧ Builtin.constantClass v = some found ∧
      t.Derives found (Builtin.wrapperOf id) := by
  constructor
  · intro h
    cases h with
    | literal _ hclass hfits => exact ⟨_, _, _, rfl, hclass, hfits⟩
    | classValue hno | constant hno | usage hno => exact Bool.noConfusion (hno.symm.trans hsimple)
  · rintro ⟨v, span, found, rfl, hclass, hfits⟩
    exact .literal hsimple hclass hfits

section Other

variable (hsimple : t.isSimple id = false)

include hsimple

/-- The class of class objects takes class values only. -/
theorem Expr.conforms_class_iff (hclass : id = Builtin.classObject) :
    Expr.Conforms t inline (.resolved id name) e ↔ e.isClassValue = true := by
  constructor
  · intro h
    cases h with
    | literal hyes => exact Bool.noConfusion (hyes.symm.trans hsimple)
    | classValue _ _ he => exact he
    | constant _ hno | usage _ hno => exact absurd hclass hno
  · exact .classValue hsimple hclass

variable (hclass : id ≠ Builtin.classObject)

include hclass

/-- An enum type takes what names something in a class that derives from it. -/
theorem Expr.conforms_enum_iff (henum : t.IsEnumType id) :
    Expr.Conforms t inline (.resolved id name) e ↔ ∃ owner, t.NamesIn e owner ∧
      t.Derives owner id := by
  constructor
  · intro h
    cases h with
    | literal hyes => exact Bool.noConfusion (hyes.symm.trans hsimple)
    | classValue _ hyes => exact absurd hyes hclass
    | constant _ _ _ hnames hfits => exact ⟨_, hnames, hfits⟩
    | usage _ _ hno => exact absurd henum hno
  · rintro ⟨owner, hnames, hfits⟩
    exact .constant hsimple hclass henum hnames hfits

variable (henum : ¬t.IsEnumType id)

include henum

/-- Another class takes usages of itself that are valid, if it is an annotation type. -/
theorem Expr.conforms_annotation_iff : Expr.Conforms t inline (.resolved id name) e ↔
    t.isAnnotationType id = true ∧ ∃ a, e = .annotationUse a ∧
      (t.resolve a.type).classId? = some id ∧ a.Valid t inline := by
  constructor
  · intro h
    cases h with
    | literal hyes => exact Bool.noConfusion (hyes.symm.trans hsimple)
    | classValue _ hyes => exact absurd hyes hclass
    | constant _ _ hyes => exact absurd hyes henum
    | usage _ _ _ hkind htype hvalid => exact ⟨hkind, _, rfl, htype, hvalid⟩
  · rintro ⟨hkind, a, rfl, htype, hvalid⟩
    exact .usage hsimple hclass henum hkind htype hvalid

end Other

end Cases

/-! ## Single values -/

/-- Whether a value is no list, no closure and no usage. -/
def Expr.isSingle : Expr → Bool
  | .list .. | .closure .. | .annotationUse _ => false
  | _ => true

/-- The check of a value finds a cause or hits a fault. -/
def Rejects (x : Except Fault (Option Cause)) : Prop := x ≠ .ok none

namespace Rejects

theorem some (cause : Cause) : Rejects (pure (some cause)) := fun h => nomatch h

/-- A check rejects if it ends in one that does, whatever comes before. -/
theorem bind {α : Type} {x : Except Fault α} {f : α → Except Fault (Option Cause)}
    (h : ∀ a, Rejects (f a)) : Rejects (x >>= f) := by
  cases x with
  | error fault => exact fun h => nomatch h
  | ok a => exact h a

/-- Not accepting agrees with any condition that fails. -/
theorem eq_none_iff {x : Except Fault (Option Cause)} {P : Prop} (h : Rejects x) (hP : ¬P) :
    x = .ok none ↔ P :=
  iff_of_false h hP

/-- A condition in front of a check that rejects is what decides. -/
theorem ite_eq_none_iff {x : Except Fault (Option Cause)} {P : Prop} [Decidable P] (h : Rejects x) :
    (if P then pure none else x) = .ok none ↔ P := by
  split
  · exact iff_of_true rfl ‹_›
  · exact h.eq_none_iff ‹_›

end Rejects

namespace ClassTable

variable {t : ClassTable} {inline : Bool} {site : AttributeSite} {id : ClassId} {e : Expr}
  {type : TypeRef}

/-- Nothing is wrong with a value of a simple type if it is a literal of the right class. -/
theorem simpleCause_eq_none_iff : t.simpleCause site id e = .ok none ↔
    ∃ v span found, e = .constant v span ∧ Builtin.constantClass v = some found ∧
      t.Derives found (Builtin.wrapperOf id) := by
  cases e with
  | constant v span =>
    rw [simpleCause]
    cases hclass : Builtin.constantClass v with
    | none => exact (Rejects.bind fun c => .some _).eq_none_iff (by simp [hclass])
    | some found =>
      dsimp only
      rw [(Rejects.bind fun c => .bind fun d => .some _).ite_eq_none_iff, isDerivedFrom_iff]
      simp [hclass]
  | _ => exact (Rejects.bind fun c => .some _).eq_none_iff (by simp)

/-- What a value names something in is read off by `enumOwner?`. -/
theorem enumOwner?_eq_some_iff {owner : ClassId} :
    t.enumOwner? e = some owner ↔ t.NamesIn e owner := by
  constructor
  · intro h
    unfold enumOwner? at h
    split at h
    · exact .property h
    · cases h
      exact .field
    · cases h
  · rintro (h | _)
    · exact h
    · rfl

/-- Nothing is wrong with a value of an enum type if it names something in a class derived from
it. -/
theorem enumCause_eq_none_iff :
    t.enumCause site id e = .ok none ↔ ∃ owner, t.NamesIn e owner ∧ t.Derives owner id := by
  simp only [← enumOwner?_eq_some_iff, ← isDerivedFrom_iff]
  rw [enumCause]
  cases t.enumOwner? e with
  | none => exact (Rejects.bind fun c => .some _).eq_none_iff (by simp)
  | some owner =>
    dsimp only
    rw [(Rejects.bind fun c => .bind fun d => .some _).ite_eq_none_iff]
    simp

/-- Nothing is wrong with a value for a class object if it is a class value. -/
theorem classLiteralCause_eq_none_iff :
    classLiteralCause site e = none ↔ e.isClassValue = true := by
  cases e <;> simp [classLiteralCause, Expr.isClassValue]

theorem isEnumType_iff :
    (t.isEnum id || t.isDerivedFrom id Builtin.enumBase) = true ↔ t.IsEnumType id := by
  rw [Bool.or_eq_true, isDerivedFrom_iff, IsEnumType]

/-- A scalar has no problems if there is no cause for one. -/
theorem scalarProblems_eq_nil_iff_cause :
    t.scalarProblems site type e = .ok [] ↔ t.scalarCause site type e = .ok none := by
  rw [scalarProblems]
  cases t.scalarCause site type e with
  | error fault => exact iff_of_false (by rintro ⟨⟩) (by rintro ⟨⟩)
  | ok cause =>
    cases cause with
    | none => exact iff_of_true rfl rfl
    | some cause => exact iff_of_false (by rintro ⟨⟩) (by rintro ⟨⟩)

/-- The check of a value against a type that is no array accepts the values that conform to it. A
usage of the wanted annotation type is not checked this way. -/
theorem scalarProblems_eq_nil_iff (inline : Bool) (htype : type.isArray = false)
    (husage : ∀ a id, e = .annotationUse a → t.attributeSort type = .annotationUse id →
      (t.resolve a.type).classId? ≠ some id) :
    t.scalarProblems site type e = .ok [] ↔ Expr.Conforms t inline type e := by
  rw [scalarProblems_eq_nil_iff_cause, scalarCause]
  cases type with
  | array c => cases htype
  | unresolved name => exact (Rejects.some _).eq_none_iff Expr.not_conforms_unresolved
  | resolved id name =>
    -- the sort of the class and the case of conformity are found in the same order
    simp only [attributeSort] at husage ⊢
    split_ifs at husage ⊢ with hsimple hclass henum hkind
    · rw [Expr.conforms_simple_iff hsimple]
      exact simpleCause_eq_none_iff
    · rw [Expr.conforms_class_iff (Bool.eq_false_iff.mpr hsimple) hclass,
        ← classLiteralCause_eq_none_iff]
      exact ⟨Except.ok.inj, congrArg _⟩
    · rw [Expr.conforms_enum_iff (Bool.eq_false_iff.mpr hsimple) hclass (isEnumType_iff.mp henum)]
      exact enumCause_eq_none_iff
    · rw [Expr.conforms_annotation_iff (Bool.eq_false_iff.mpr hsimple) hclass
        (mt isEnumType_iff.mpr henum)]
      refine (Rejects.bind fun c => .some _).eq_none_iff ?_
      rintro ⟨-, a, ha, hid, -⟩
      exact husage a id ha rfl hid
    · rw [Expr.conforms_annotation_iff (Bool.eq_false_iff.mpr hsimple) hclass
        (mt isEnumType_iff.mpr henum)]
      exact (Rejects.some _).eq_none_iff fun h => hkind h.1

/-! ## Folding -/

/-- Lists are folded element by element. -/
theorem foldAll_eq_map (es : List Expr) : t.foldAll es = es.map t.fold := by
  induction es with
  | nil => rfl
  | cons e es ih => rw [foldAll, ih, List.map_cons]

/-- Whether constants are folded or not, a list is treated element by element. -/
theorem foldIf_list (es : List Expr) (span : Span) :
    t.foldIf inline (.list es span) = .list (es.map (t.foldIf inline)) span := by
  cases inline with
  | false => exact congrArg (Expr.list · span) (List.map_id es).symm
  | true =>
    show t.fold (.list es span) = _
    rw [fold, foldAll_eq_map]
    rfl

/-- A single value is folded to a literal or stays as it is. -/
theorem foldIf_isSingle (he : e.isSingle = true) : (t.foldIf inline e).isSingle = true := by
  rw [foldIf]
  split
  · rw [fold]
    · split
      · rfl
      · exact he
    · rintro es span rfl
      cases he
  · exact he

/-! ## Enum constants -/

/-- A list lists what its elements list. -/
theorem listed_list_iff {x : Expr} (hx : x.isList = false) {es : List Expr} {span : Span} :
    x.Listed (.list es span) ↔ ∃ e ∈ es, x.Listed e := by
  constructor
  · intro h
    cases h with
    | self => cases hx
    | element he h => exact ⟨_, he, h⟩
  · rintro ⟨e, he, h⟩
    exact .element he h

/-- A list names constants if its elements do. -/
theorem namesConstants_list_iff {es : List Expr} {span : Span} :
    t.NamesConstants (.list es span) ↔ ∀ e ∈ es, t.NamesConstants e := by
  constructor
  · intro h e he type typeSpan name span' id c hlisted
    exact h type typeSpan name span' id c (.element he hlisted)
  · intro h type typeSpan name span' id c hlisted
    obtain ⟨e, he, hlisted⟩ := (listed_list_iff rfl).mp hlisted
    exact h e he type typeSpan name span' id c hlisted

/-- Lists that are found one after the other are all empty if they are empty together. -/
theorem append_bind_eq_nil_iff {α : Type} {as : List α} {x y : Except Fault (List α)} :
    (x >>= fun bs => y >>= fun cs => pure (as ++ bs ++ cs)) = .ok [] ↔ as = [] ∧ x = .ok [] ∧
      y = .ok [] := by
  cases x with
  | error fault => exact iff_of_false (fun h => nomatch h) fun h => nomatch h.2.1
  | ok bs =>
    cases y with
    | error fault => exact iff_of_false (fun h => nomatch h) fun h => nomatch h.2.2
    | ok cs =>
      show Except.ok (as ++ bs ++ cs) = .ok [] ↔ _
      simp

/-- Two parts find nothing together if neither finds anything. -/
theorem bind_append_eq_nil_iff {α : Type} {x y : Except Fault (List α)} :
    (x >>= fun bs => y >>= fun cs => pure (bs ++ cs)) = .ok [] ↔ x = .ok [] ∧ y = .ok [] :=
  (@append_bind_eq_nil_iff α [] x y).trans (and_iff_right rfl)

/-- A value that is no list lists itself alone. -/
theorem eq_of_listed {x : Expr} (he : e.isList = false) (h : x.Listed e) : x = e := by
  cases h with
  | self => rfl
  | element => cases he

/-- A property of a class names a constant if the class, being an enum, declares it. -/
theorem namesConstants_property_iff {c : ClassDecl} {typeSpan span : Span} {name : String}
    (hid : (t.resolve type).classId? = some id) (hget : t.get? id = some c) :
    t.NamesConstants (.property (.classRef type typeSpan) name span) ↔
      (c.isEnum = true → ∃ f ∈ c.enumConstants, f.name = name) := by
  constructor
  · exact fun h => h type typeSpan name span id c .self hid hget
  · intro h type' typeSpan' name' span' id' c' hlisted hid' hget'
    cases eq_of_listed rfl hlisted
    cases hid.symm.trans hid'
    cases hget.symm.trans hget'
    exact h

/-- For a value that is no list, no constants are missing if all it names are there. -/
theorem unknownConstants_eq_nil_iff_of_not_list (hn : t.Numbered) (he : e.isList = false)
    (hids : ∀ id ∈ e.classIds, id < t.size) :
    t.unknownConstants e = .ok [] ↔ t.NamesConstants e := by
  unfold unknownConstants
  split
  · cases he
  · rename_i type typeSpan name span
    cases hid : (t.resolve type).classId? with
    | none =>
      refine iff_of_true rfl fun type' typeSpan' name' span' id c hlisted hid' => ?_
      cases eq_of_listed rfl hlisted
      cases hid.symm.trans hid'
    | some id =>
      obtain ⟨c, hget⟩ := exists_get?_of_lt (resolve_lt hn hids hid)
      rw [namesConstants_property_iff hid hget]
      show (t.get id >>= _) = _ ↔ _
      rw [get_eq_ok_iff.mpr hget]
      show (if _ then pure [_] else pure [] : Except Fault (List Problem)) = .ok [] ↔ _
      split
      · rename_i hunknown
        refine iff_of_false (fun h => nomatch h) fun hknown => ?_
        simp only [Bool.and_eq_true, Bool.not_eq_true', List.any_eq_false, beq_iff_eq] at hunknown
        obtain ⟨f, hf, hname⟩ := hknown hunknown.1
        exact hunknown.2 f hf hname
      · rename_i hknown
        refine iff_of_true rfl fun henum => ?_
        simpa [henum] using hknown
  · -- no other value names anything through a class literal
    rename_i hother
    refine iff_of_true rfl fun type typeSpan name span id c hlisted => ?_
    exact absurd (eq_of_listed he hlisted).symm (hother type typeSpan name span)

mutual

/-- The check of the enum constants in a value accepts the values that name constants which
exist. -/
theorem unknownConstants_eq_nil_iff (hn : t.Numbered) :
    (e : Expr) → (∀ id ∈ e.classIds, id < t.size) →
    (t.unknownConstants e = .ok [] ↔ t.NamesConstants e)
  | .list es _, h => (unknownConstantsAll_eq_nil_iff hn es h).trans namesConstants_list_iff.symm
  | .constant .., h | .var .., h | .property .., h | .field .., h | .classRef .., h | .closure .., h
  | .map .., h | .entry .., h | .annotationUse .., h | .call .., h | .staticCall .., h
  | .construct .., h | .binary .., h | .ternary .., h | .index .., h | .spread .., h | .array .., h
  | .assign .., h =>
    unknownConstants_eq_nil_iff_of_not_list hn rfl h

theorem unknownConstantsAll_eq_nil_iff (hn : t.Numbered) : (es : List Expr) →
    (∀ id ∈ Expr.classIdsAll es, id < t.size) →
      (t.unknownConstantsAll es = .ok [] ↔ ∀ e ∈ es, t.NamesConstants e)
  | [], _ => iff_of_true rfl (List.forall_mem_nil _)
  | e :: es, h => by
    have hfirst := unknownConstants_eq_nil_iff hn e fun id hid => h id (List.mem_append_left _ hid)
    have hrest := unknownConstantsAll_eq_nil_iff hn es fun id hid =>
      h id (List.mem_append_right _ hid)
    rw [unknownConstantsAll, bind_append_eq_nil_iff, hfirst, hrest, List.forall_mem_cons]

end

end ClassTable

/-! ## Usages -/

mutual

/-- The usages that a value holds: as the value itself, in list literals, and inside other
usages. -/
def Expr.usages : Expr → List AnnotationUse
  | .list es _ => Expr.usagesAll es
  | .annotationUse a => a :: a.nested
  | _ => []

/-- The usages in the values of a list. -/
def Expr.usagesAll : List Expr → List AnnotationUse
  | [] => []
  | e :: es => e.usages ++ Expr.usagesAll es

/-- The usages inside a usage. -/
def AnnotationUse.nested : AnnotationUse → List AnnotationUse
  | ⟨_, members, _, _⟩ => AnnotationUse.memberUsages members

/-- The usages in the values of members. -/
def AnnotationUse.memberUsages : List (String × Expr) → List AnnotationUse
  | [] => []
  | (_, value) :: rest => value.usages ++ AnnotationUse.memberUsages rest

end

section

variable {t : ClassTable} {inline : Bool} {site : AttributeSite} {e : Expr} {type : TypeRef}

theorem TypeRef.isArray_base (type : TypeRef) : type.base.isArray = false := by
  induction type with
  | array c ih => exact ih
  | _ => rfl

/-- What is said of the single values below holds of all but lists, closures and usages. -/
theorem Expr.isSingle_cases (he : e.isSingle = true) :
    e.isList = false ∧ e.isClosure = false ∧ ∀ a, e ≠ .annotationUse a := by
  cases e <;> first | exact ⟨rfl, rfl, fun _ => Expr.noConfusion⟩ | cases he

/-- A single value is checked against the type below the array brackets, after folding. -/
theorem Expr.attributeProblems_of_isSingle (he : e.isSingle = true) (type : TypeRef) :
    e.attributeProblems t inline site type = t.scalarProblems site type.base
      (t.foldIf inline e) := by
  cases e <;> first | rfl | cases he

/-- A single value has no problems if it fits after folding. -/
theorem Expr.attributeProblems_eq_nil_iff_of_isSingle (he : e.isSingle = true) (type : TypeRef) :
    e.attributeProblems t inline site type = .ok [] ↔
      Expr.Conforms t inline type (t.foldIf inline e) := by
  have hsingle : (t.foldIf inline e).isSingle = true := ClassTable.foldIf_isSingle he
  obtain ⟨hlist, hclosure, husage⟩ := Expr.isSingle_cases hsingle
  rw [Expr.attributeProblems_of_isSingle he, ← Expr.conforms_base_iff hlist hclosure]
  exact ClassTable.scalarProblems_eq_nil_iff inline type.isArray_base
    fun a _ ha => absurd ha (husage a)

/-- A list only fits an array. -/
theorem Expr.not_conforms_list (htype : type.isArray = false) (es : List Expr) (span : Span) :
    ¬Expr.Conforms t inline type (.list es span) := by
  intro h
  cases h with
  | elements => cases htype
  | single hlist => cases hlist
  | classValue _ _ he => cases he
  | constant _ _ _ hnames => cases hnames

/-- What `attributeSort` says about an annotation type: it is none of the sorts before it. -/
theorem ClassTable.attributeSort_eq_annotationUse {id : ClassId}
    (h : t.attributeSort type = .annotationUse id) :
    ∃ name, type = .resolved id name ∧ t.isSimple id = false ∧ id ≠ Builtin.classObject ∧
      ¬t.IsEnumType id ∧
      t.isAnnotationType id = true := by
  cases type with
  | resolved i name =>
    simp only [ClassTable.attributeSort] at h
    split_ifs at h with hsimple hclass henum hkind
    cases h
    exact ⟨name, rfl, Bool.eq_false_iff.mpr hsimple, hclass, mt isEnumType_iff.mpr henum, hkind⟩
  | array c => cases h
  | unresolved name => cases h

/-- No attributes are missing if every attribute without a default is among the members. -/
theorem ClassDecl.missingAttributes_eq_nil_iff {c : ClassDecl} {members : List (String × Expr)} :
    c.missingAttributes members = [] ↔ ∀ m ∈ c.methods, m.default = none → ∃ p ∈ members,
      p.1 = m.name := by
  simp [ClassDecl.missingAttributes]

theorem ClassDecl.method?_eq_none_iff {c : ClassDecl} {name : String} {arity : Nat} :
    c.method? name arity = none ↔ ¬∃ m ∈ c.methods, m.name = name ∧ m.arity = arity := by
  simp [ClassDecl.method?]

/-- An annotation type that a usage is of is known, so the usage is valid by its values. -/
theorem AnnotationUse.valid_iff {a : AnnotationUse} {id : ClassId} {c : ClassDecl}
    (htype : (t.resolve a.type).classId? = some id) (hget : t.get? id = some c)
    (hkind : c.isAnnotationType = true) :
    a.Valid t inline ↔ (∀ m ∈ c.methods, m.default = none → ∃ p ∈ a.members, p.1 = m.name) ∧
      (∀ p ∈ a.members, t.NamesConstants p.2) ∧
      ∀ p ∈ a.members, (∃ m ∈ c.methods, m.name = p.1 ∧ m.arity = 0) ∧
        ∀ m, c.method? p.1 0 = some m →
          Expr.Conforms t inline (t.resolve m.returnType) (t.foldIf inline p.2) := by
  constructor
  · rintro ⟨htype', hget', -, hgiven, hnames, hattributes, hfits⟩
    cases htype.symm.trans htype'
    cases hget.symm.trans hget'
    exact ⟨hgiven, hnames, fun p hp => ⟨hattributes p hp, hfits p hp⟩⟩
  · rintro ⟨hgiven, hnames, hvalues⟩
    exact .intro htype hget hkind hgiven hnames (fun p hp => (hvalues p hp).1) fun p hp =>
      (hvalues p hp).2

mutual

/-- A value of an attribute has no problems exactly if it fits its type after folding. -/
theorem Expr.attributeProblems_eq_nil_iff (hn : t.Numbered) (site : AttributeSite) :
    (e : Expr) → (type : TypeRef) →
    (∀ id ∈ e.classIds, id < t.size) → (∀ a ∈ e.usages, a.validated = false) →
    (e.attributeProblems t inline site type = .ok [] ↔
      Expr.Conforms t inline type (t.foldIf inline e))
  | .list es s, type, hids, hnew => by
    rw [ClassTable.foldIf_list]
    cases type with
    | array c =>
      rw [Expr.attributeProblems, Expr.attributeProblemsAll_eq_nil_iff hn site es c hids hnew,
        Expr.conforms_array_list_iff, List.forall_mem_map]
    | _ =>
      rw [Expr.attributeProblems]
      · rw [ClassTable.scalarProblems_eq_nil_iff inline rfl fun _ _ => Expr.noConfusion]
        exact iff_of_false (Expr.not_conforms_list rfl es s) (Expr.not_conforms_list rfl _ s)
      · rintro _ ⟨⟩
  | .closure ps body cs s, type, _, _ => by
    have hfold : t.foldIf inline (.closure ps body cs s) = .closure ps body cs s := by
      cases inline <;> rfl
    rw [hfold, Expr.attributeProblems]
    cases type with
    | array c => exact iff_of_false (fun h => nomatch h) (Expr.not_conforms_array_closure rfl)
    | _ => exact ClassTable.scalarProblems_eq_nil_iff inline rfl fun _ _ => Expr.noConfusion
  | .annotationUse a, type, hids, hnew => by
    have hfold : t.foldIf inline (.annotationUse a) = .annotationUse a := by
      cases inline <;> rfl
    have husage := a.problems_eq_nil_iff hn hids (hnew a List.mem_cons_self) fun b hb =>
      hnew b (List.mem_cons_of_mem _ hb)
    rw [hfold, ← Expr.conforms_base_iff rfl rfl, Expr.attributeProblems]
    split
    · rename_i id hsort
      split
      · -- a usage of the wanted type, which is checked in turn
        rename_i htype
        obtain ⟨name, hbase, hsimple, hclass, henum, hkind⟩ :=
          ClassTable.attributeSort_eq_annotationUse hsort
        rw [hbase, Expr.conforms_annotation_iff hsimple hclass henum, husage]
        constructor
        · exact fun hvalid => ⟨hkind, a, rfl, htype, hvalid⟩
        · rintro ⟨-, b, hb, -, hvalid⟩
          cases hb
          exact hvalid
      · rename_i htype
        refine ClassTable.scalarProblems_eq_nil_iff inline type.isArray_base fun b id' hb hsort' =>
          ?_
        cases hb
        cases hsort.symm.trans hsort'
        exact htype
    · rename_i hsort
      exact ClassTable.scalarProblems_eq_nil_iff inline type.isArray_base fun b id hb hsort' =>
        absurd hsort' (hsort id)
  | .constant .., type, _, _ | .var .., type, _, _ | .property .., type, _, _
  | .field .., type, _, _ | .classRef .., type, _, _ | .map .., type, _, _ | .entry .., type, _, _
  | .call .., type, _, _ | .staticCall .., type, _, _ | .construct .., type, _, _
  | .binary .., type, _, _ | .ternary .., type, _, _ | .index .., type, _, _
  | .spread .., type, _, _ | .array .., type, _, _ | .assign .., type, _, _ =>
    Expr.attributeProblems_eq_nil_iff_of_isSingle rfl type

theorem Expr.attributeProblemsAll_eq_nil_iff (hn : t.Numbered) (site : AttributeSite) :
    (es : List Expr) →
    (type : TypeRef) → (∀ id ∈ Expr.classIdsAll es, id < t.size) →
      (∀ a ∈ Expr.usagesAll es, a.validated = false) →
    (Expr.attributeProblemsAll t inline site type es = .ok [] ↔
      ∀ e ∈ es, Expr.Conforms t inline type (t.foldIf inline e))
  | [], _, _, _ => iff_of_true rfl (List.forall_mem_nil _)
  | e :: es, type, hids, hnew => by
    have hfirst :=
      e.attributeProblems_eq_nil_iff hn site type
      (fun id hid => hids id (List.mem_append_left _ hid))
      fun a ha => hnew a (List.mem_append_left _ ha)
    have hrest := Expr.attributeProblemsAll_eq_nil_iff hn site es type
      (fun id hid => hids id (List.mem_append_right _ hid)) fun a ha =>
        hnew a (List.mem_append_right _ ha)
    rw [Expr.attributeProblemsAll, ClassTable.bind_append_eq_nil_iff, hfirst, hrest,
      List.forall_mem_cons]

/-- The check of a usage that has not been checked before finds no problem exactly if the usage is
valid. -/
theorem AnnotationUse.problems_eq_nil_iff (hn : t.Numbered) : (a : AnnotationUse) →
    (∀ id ∈ a.classIds, id < t.size) → a.validated = false → (∀ b ∈ a.nested, b.validated = false) →
    (a.problems t inline = .ok [] ↔ a.Valid t inline)
  | ⟨type, members, validated, span⟩, hids, hnew, hnested => by
    rw [AnnotationUse.problems, if_neg (Bool.eq_false_iff.mp hnew)]
    have hmembers : ∀ id ∈ AnnotationUse.memberIds members, id < t.size := fun id hid =>
      hids id (List.mem_append_right _ hid)
    cases hid : t.annotationId? type with
    | none =>
      refine iff_of_false (fun h => nomatch h) ?_
      rintro ⟨htype, hget, hkind, -⟩
      have hno := Option.filter_eq_none_iff.mp hid _ htype
      exact hno (by rw [ClassTable.isAnnotationType, hget]; exact hkind)
    | some id =>
      obtain ⟨htype, hkind⟩ := Option.filter_eq_some_iff.mp hid
      obtain ⟨c, hget⟩ := ClassTable.exists_get?_of_lt (ClassTable.lt_of_any_get? hkind)
      rw [ClassTable.isAnnotationType, hget] at hkind
      have hunknown := ClassTable.unknownConstantsAll_eq_nil_iff hn (members.map (·.2)) (by
        rwa [AnnotationUse.classIdsAll_map_snd])
      rw [AnnotationUse.valid_iff htype hget hkind]
      show (t.get id >>= _) = _ ↔ _
      rw [ClassTable.get_eq_ok_iff.mpr hget]
      refine ClassTable.append_bind_eq_nil_iff.trans ?_
      rw [List.map_eq_nil_iff, ClassDecl.missingAttributes_eq_nil_iff, hunknown,
        List.forall_mem_map,
        AnnotationUse.memberProblems_eq_nil_iff hn type.text c members hmembers hnested]

/-- Members have no problems exactly if each is an attribute and fits its type after folding. -/
theorem AnnotationUse.memberProblems_eq_nil_iff (hn : t.Numbered) (owner : String) (c : ClassDecl) :
    (members : List (String × Expr)) → (∀ id ∈ AnnotationUse.memberIds members, id < t.size) →
    (∀ a ∈ AnnotationUse.memberUsages members, a.validated = false) →
    (AnnotationUse.memberProblems t inline owner c members = .ok [] ↔
      ∀ p ∈ members, (∃ m ∈ c.methods, m.name = p.1 ∧ m.arity = 0) ∧
        ∀ m, c.method? p.1 0 = some m →
          Expr.Conforms t inline (t.resolve m.returnType) (t.foldIf inline p.2))
  | [], _, _ => iff_of_true rfl (List.forall_mem_nil _)
  | (name, value) :: rest, hids, hnew => by
    have hvalue (type : TypeRef) := value.attributeProblems_eq_nil_iff hn ⟨owner, name⟩ type
      (fun id hid => hids id (List.mem_append_left _ hid)) fun a ha =>
        hnew a (List.mem_append_left _ ha)
    have hrest := AnnotationUse.memberProblems_eq_nil_iff hn owner c rest
      (fun id hid => hids id (List.mem_append_right _ hid)) fun a ha =>
        hnew a (List.mem_append_right _ ha)
    rw [AnnotationUse.memberProblems, ClassTable.attributeType?, List.forall_mem_cons, ← hrest]
    cases hmethod : c.method? name 0 with
    | none =>
      -- the type has no such attribute, and this is a problem whatever the value is
      refine ClassTable.bind_append_eq_nil_iff.trans (and_congr_left fun _ => ?_)
      exact iff_of_false (fun h => nomatch h) fun h => ClassDecl.method?_eq_none_iff.mp hmethod h.1
    | some m =>
      refine ClassTable.bind_append_eq_nil_iff.trans (and_congr_left fun _ => ?_)
      have hdeclared : ∃ m ∈ c.methods, m.name = name ∧ m.arity = 0 := by
        by_contra hno
        cases hmethod.symm.trans (ClassDecl.method?_eq_none_iff.mpr hno)
      rw [hvalue]
      constructor
      · intro h
        refine ⟨hdeclared, fun m' hm' => ?_⟩
        cases hm'
        exact h
      · exact fun h => h.2 m rfl

end

/-- Checking a usage comes to an end. Into an unlimited log it writes no problem exactly if the
usage has been checked before or is valid. -/
theorem AnnotationUse.validate_accepts_iff (ht : t.Based) (inline : Bool) {a : AnnotationUse}
    (hids : ∀ id ∈ a.classIds, id < t.size) (hnested : ∀ b ∈ a.nested, b.validated = false)
    {log : ProblemLog} (hlog : log.tolerance = 0) :
    ∃ a' log', a.validate t inline log = .ok (a', log') ∧
      (log'.recorded = log.recorded ↔ a.validated = true ∨ a.Valid t inline) := by
  obtain ⟨found, hfound⟩ := a.problems_completes ht hids
  refine ⟨a.normalized t inline, log.addAll found, ?_, ?_⟩
  · rw [AnnotationUse.validate, hfound]
    rfl
  have hnone : a.problems t inline = .ok [] ↔ found = [] := by
    rw [hfound]
    exact ⟨Except.ok.inj, congrArg _⟩
  rw [ProblemLog.addAll_of_unlimited hlog, List.append_right_eq_self, ← hnone]
  cases hvalidated : a.validated with
  | true => exact iff_of_true (AnnotationUse.problems_of_validated hvalidated) (.inl rfl)
  | false =>
    rw [a.problems_eq_nil_iff ht.numbered hids hvalidated hnested]
    exact (or_iff_right Bool.false_ne_true).symm

/-- An attribute without a default, whose type may still be unresolved. -/
def requiredAttribute (name : String) (type : TypeRef) : Method :=
  { name, modifiers := .publicOnly, returnType := type }

/-- An annotation type with an array of strings and another annotation type as attributes. -/
def nestedTable : ClassTable := [
  { ClassDecl.empty "Inner" .annotationType with
    methods := [requiredAttribute "code" Builtin.intType] },
  { ClassDecl.empty "Outer" .annotationType with
    methods := [requiredAttribute "names" (.array Builtin.stringType),
      requiredAttribute "first" (.unresolved "Inner")] }].foldl .add .seeded

def innerUse : AnnotationUse := ⟨.resolved 25 "Inner", [("code", .int 7)], false, .synthetic⟩

/-- A usage with the other one inside. -/
def outerUse : AnnotationUse :=
  ⟨.resolved 26 "Outer", [("names", .string "x"), ("first", .annotationUse innerUse)], false,
    .synthetic⟩

/-- A single string for an array of strings, and a usage inside a usage. -/
theorem AnnotationUse.validate_accepts_nested :
    ∃ a' log', outerUse.validate nestedTable true {} = .ok (a', log') ∧ log'.recorded = [] ∧
      outerUse.Valid nestedTable true := by
  have ht : nestedTable.Based := ⟨ClassTable.numbered_iff.mpr (by decide), by decide⟩
  have hids : ∀ id ∈ outerUse.classIds, id < nestedTable.size := by decide
  have hnested : ∀ b ∈ outerUse.nested, b.validated = false := by
    show ∀ b ∈ [innerUse], _
    exact List.forall_mem_singleton.mpr rfl
  have hlog : ({} : ProblemLog).tolerance = 0 := rfl
  obtain ⟨a', log', hrun, haccepts⟩ := AnnotationUse.validate_accepts_iff ht true hids hnested hlog
  have hnone : ∃ a', outerUse.validate nestedTable true {} = .ok (a', {}) := ⟨_, rfl⟩
  obtain ⟨b, hrun'⟩ := hnone
  cases hrun.symm.trans hrun'
  exact ⟨a', {}, hrun, rfl, (haccepts.mp rfl).resolve_left Bool.false_ne_true⟩

/-- A usage of a class that is no annotation type, marked as checked. -/
def checkedUse : AnnotationUse := ⟨.resolved 0 "Object", [], true, .synthetic⟩

/-- A usage that is marked as checked is accepted, though its type is no annotation type. -/
theorem AnnotationUse.validate_accepts_checked :
    ∃ a' log', checkedUse.validate ClassTable.seeded true {} = .ok (a', log') ∧ log'.recorded = [] ∧
      ¬checkedUse.Valid ClassTable.seeded true := by
  refine ⟨_, _, rfl, rfl, ?_⟩
  rintro ⟨htype, hget, hkind, -⟩
  cases htype
  cases hget
  cases hkind

end

end Metaobject
