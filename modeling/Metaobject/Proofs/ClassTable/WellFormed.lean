import Mathlib.Data.List.Forall2
import Mathlib.Order.WellFounded
import Metaobject.ClassTable.Builtin
import Metaobject.Enumeration.Constants

/-!
# Well-formed class tables

A table is well formed if its classes carry the numbers they are found under, the built-in classes
are there, every class number that occurs in it belongs to a class, and every superclass chain ends.

* `ClassDecl.classIds` lists the class numbers that occur in a class. Dispatch markers and targets
  of calls are left out: the passes write them, and nothing looks them up in the table.
* `ClassDecl.SameHeader` relates a class to what a pass makes of it: no pass touches the header of a
  class.
* `ClassTable.Related` lifts a relation from classes to tables.
-/

namespace Metaobject

/-! ## The class numbers in a tree -/

/-- The classes that a type names. -/
def TypeRef.classIds : TypeRef → List ClassId
  | .resolved id _ => [id]
  | .array c => c.classIds
  | .unresolved _ => []

/-- The classes that a bound variable names. -/
def Binding.classIds : Binding → List ClassId
  | .field owner _ => [owner]
  | .parameter | .localVar => []

/-- The class that a constructor call names. -/
def ConstructorKind.classIds : ConstructorKind → List ClassId
  | .new type => type.classIds
  | .super | .this => []

mutual

/-- The class numbers that occur in an expression. -/
def Expr.classIds : Expr → List ClassId
  | .constant .. => []
  | .var _ none _ => []
  | .var _ (some b) _ => b.classIds
  | .property o _ _ => o.classIds
  | .field owner _ _ => [owner]
  | .classRef type _ => type.classIds
  | .closure ps body cs _ =>
    Param.classIdsAll ps ++ Stmt.classIdsAll body ++ cs.flatMap (·.type.classIds)
  | .list es _ => Expr.classIdsAll es
  | .map es _ => MapEntry.classIdsAll es
  | .entry e => e.classIds
  | .annotationUse a => a.classIds
  | .call o n args _ _ _ _ _ => o.classIds ++ n.classIds ++ Expr.classIdsAll args
  | .staticCall owner _ _ args _ _ => owner :: Expr.classIdsAll args
  | .construct kind args _ _ => kind.classIds ++ Expr.classIdsAll args
  | .binary _ l r _ => l.classIds ++ r.classIds
  | .ternary c t e _ => c.classIds ++ t.classIds ++ e.classIds
  | .index o i _ => o.classIds ++ i.classIds
  | .spread e _ => e.classIds
  | .array type es _ => type.classIds ++ Expr.classIdsAll es
  | .assign t v _ => t.classIds ++ v.classIds

/-- The classes that some expressions name. -/
def Expr.classIdsAll : List Expr → List ClassId
  | [] => []
  | e :: es => e.classIds ++ Expr.classIdsAll es

def MethodName.classIds : MethodName → List ClassId
  | .named _ => []
  | .computed e => e.classIds

/-- The classes that an entry names in its key and its value. -/
def MapEntry.classIds : MapEntry → List ClassId
  | ⟨k, v, _⟩ => k.classIds ++ v.classIds

def MapEntry.classIdsAll : List MapEntry → List ClassId
  | [] => []
  | e :: es => e.classIds ++ MapEntry.classIdsAll es

/-- The class numbers that occur in a statement. -/
def Stmt.classIds : Stmt → List ClassId
  | .expr e => e.classIds
  | .declare _ type none _ => type.classIds
  | .declare _ type (some e) _ => type.classIds ++ e.classIds
  | .ret none _ => []
  | .ret (some e) _ => e.classIds
  | .cond c t none _ => c.classIds ++ Stmt.classIdsAll t
  | .cond c t (some e) _ => c.classIds ++ Stmt.classIdsAll t ++ Stmt.classIdsAll e
  | .throw e _ => e.classIds
  | .block b => Stmt.classIdsAll b

/-- The classes that some statements name. -/
def Stmt.classIdsAll : List Stmt → List ClassId
  | [] => []
  | s :: ss => s.classIds ++ Stmt.classIdsAll ss

/-- The class numbers that occur in a parameter. -/
def Param.classIds : Param → List ClassId
  | ⟨_, type, none, as, _⟩ => type.classIds ++ AnnotationUse.classIdsAll as
  | ⟨_, type, some e, as, _⟩ => type.classIds ++ e.classIds ++ AnnotationUse.classIdsAll as

def Param.classIdsAll : List Param → List ClassId
  | [] => []
  | p :: ps => p.classIds ++ Param.classIdsAll ps

/-- The class numbers that occur in an annotation usage. -/
def AnnotationUse.classIds : AnnotationUse → List ClassId
  | ⟨type, members, _, _⟩ => type.classIds ++ AnnotationUse.memberIds members

/-- The classes that the values of some members name. -/
def AnnotationUse.memberIds : List (String × Expr) → List ClassId
  | [] => []
  | (_, e) :: rest => e.classIds ++ AnnotationUse.memberIds rest

/-- The classes that some usages name. -/
def AnnotationUse.classIdsAll : List AnnotationUse → List ClassId
  | [] => []
  | a :: as => a.classIds ++ AnnotationUse.classIdsAll as

end

/-! ## The class numbers in a class -/

/-- The classes in the type, the initializer and the annotations of a field. -/
def Field.classIds (f : Field) : List ClassId :=
  f.type.classIds ++ f.init.elim [] Expr.classIds ++ AnnotationUse.classIdsAll f.annotations

/-- The classes in the signature, the code and the annotations of a method. -/
def Method.classIds (m : Method) : List ClassId :=
  m.returnType.classIds ++ Param.classIdsAll m.params ++ m.body.elim [] Stmt.classIdsAll
    ++ m.default.elim [] Expr.classIds ++ AnnotationUse.classIdsAll m.annotations

/-- The classes in the parameters, the code and the annotations of a constructor. -/
def Constructor.classIds (k : Constructor) : List ClassId :=
  Param.classIdsAll k.params ++ Stmt.classIdsAll k.body ++ AnnotationUse.classIdsAll k.annotations

/-- The class numbers that occur in a class. -/
def ClassDecl.classIds (c : ClassDecl) : List ClassId :=
  c.superclass.elim [] TypeRef.classIds ++ c.interfaces.flatMap TypeRef.classIds ++ c.outer.toList
    ++ c.fields.flatMap Field.classIds ++ c.methods.flatMap Method.classIds
    ++ c.constructors.flatMap Constructor.classIds ++ Stmt.classIdsAll c.staticInit
    ++ AnnotationUse.classIdsAll c.annotations

/-! ## Well-formed tables -/

namespace ClassTable

/-- Every class carries the number it is found under. -/
def Numbered (t : ClassTable) : Prop := ∀ id c, t.get? id = some c → c.id = id

/-- Every class number that occurs in the table belongs to a class. -/
def Closed (t : ClassTable) : Prop := ∀ c ∈ t.classes, ∀ id ∈ c.classIds, id < t.size

/-- Every superclass chain ends. -/
def FiniteChains (t : ClassTable) : Prop :=
  WellFounded fun parent child => t.superclassOf child = some parent

/-- The classes carry their numbers and the built-in classes are there. -/
structure Based (t : ClassTable) : Prop where
  numbered : t.Numbered
  builtins : Builtin.declarations.length ≤ t.size

/-- What the passes may rely on. -/
structure WellFormed (t : ClassTable) : Prop extends Based t where
  closed : t.Closed
  chains : t.FiniteChains

variable {t t' : ClassTable} {id : ClassId} {c : ClassDecl}

/-- Chains end if every superclass was added before its subclasses. -/
theorem finiteChains_of_lt (h : ∀ p ∈ t.classes.zipIdx, ∀ parent ∈ p.1.superId?, parent < p.2) :
    t.FiniteChains := by
  refine Subrelation.wf (r := fun parent child : Nat => parent < child) ?_ Nat.lt_wfRel.wf
  intro parent child hstep
  obtain ⟨c, hget, hc⟩ := Option.bind_eq_some_iff.mp hstep
  exact h (c, child) (List.mem_zipIdx_iff_getElem?.mpr hget) parent hc

/-- What holds of all classes with their numbers can be checked by going through the table. -/
theorem forall_get?_iff {P : ClassId → ClassDecl → Prop} :
    (∀ id c, t.get? id = some c → P id c) ↔ ∀ p ∈ t.classes.zipIdx, P p.2 p.1 := by
  simp only [get?, Prod.forall, List.mem_zipIdx_iff_getElem?]
  exact forall_comm

/-- Classes have their places as numbers, said place by place. -/
theorem numbered_iff : t.Numbered ↔ ∀ p ∈ t.classes.zipIdx, p.1.id = p.2 := forall_get?_iff

/-- A class that is added carries its number. -/
theorem Numbered.add (h : t.Numbered) (c : ClassDecl) : (t.add c).Numbered := by
  intro id d hd
  rw [get?, ClassTable.add, List.getElem?_append] at hd
  split at hd
  · exact h id d hd
  · obtain ⟨hlt, rfl⟩ := List.getElem?_eq_some_iff.mp hd
    rw [List.length_singleton] at hlt
    rw [List.getElem_singleton]
    show t.classes.length = id
    omega

instance : Decidable t.Numbered := decidable_of_iff' _ numbered_iff

instance : Decidable t.Closed :=
  inferInstanceAs (Decidable (∀ c ∈ t.classes, ∀ id ∈ c.classIds, id < t.size))

/-- A class that is found has a number below the size. -/
theorem lt_size_of_get? (h : t.get? id = some c) : id < t.size := by
  by_contra hle
  rw [t.get?_eq_none_iff.mpr (Nat.le_of_not_lt hle)] at h
  cases h

/-- Every number below the size has a class. -/
theorem exists_get?_of_lt (h : id < t.size) : ∃ c, t.get? id = some c := by
  cases hget : t.get? id with
  | some c => exact ⟨c, rfl⟩
  | none => exact absurd h (Nat.not_lt.mpr (t.get?_eq_none_iff.mp hget))

/-- Two facts about the class with one number are facts about one class. -/
theorem exists_get?_and {P Q : ClassDecl → Prop} (hP : ∃ c, t.get? id = some c ∧ P c)
    (hQ : ∃ c, t.get? id = some c ∧ Q c) : ∃ c, t.get? id = some c ∧ P c ∧ Q c := by
  obtain ⟨c, hget, hc⟩ := hP
  obtain ⟨d, hget', hd⟩ := hQ
  obtain rfl : c = d := Option.some.inj (hget.symm.trans hget')
  exact ⟨c, hget, hc, hd⟩

theorem mem_classes_iff : c ∈ t.classes ↔ ∃ id, t.get? id = some c := List.mem_iff_getElem?

/-- Reading a class that must be there succeeds if it is there. -/
theorem get_eq_ok_iff : t.get id = .ok c ↔ t.get? id = some c := by
  rw [get]
  cases t.get? id <;> simp

theorem superclassOf_of_get? (h : t.get? id = some c) : t.superclassOf id = c.superId? := by
  simp [superclassOf, h]

/-- A replaced class is the one that is found. -/
theorem get?_set_self (h : t.get? id = some c) (c' : ClassDecl) :
    (t.set id c').get? id = some c' := by
  rw [get?_set, if_pos ⟨rfl, lt_size_of_get? h⟩]

/-- Replacing a class by itself changes nothing. -/
theorem set_get? (h : t.get? id = some c) : t.set id c = t := by
  have hlt : id < t.classes.length := lt_size_of_get? h
  have helem : t.classes[id] = c := by
    rw [get?, List.getElem?_eq_getElem hlt] at h
    exact Option.some.inj h
  rw [set, ← helem, List.set_getElem_self]

/-! ## Source classes -/

/-- The source classes are listed by their numbers. -/
theorem mem_sourceIds (hn : t.Numbered) :
    id ∈ t.sourceIds ↔ ∃ c, t.get? id = some c ∧ c.builtin = false := by
  simp only [sourceIds, List.mem_map, List.mem_filter, mem_classes_iff, Bool.not_eq_true']
  constructor
  · rintro ⟨c, ⟨⟨i, hget⟩, hc⟩, rfl⟩
    exact ⟨c, hn i c hget ▸ hget, hc⟩
  · rintro ⟨c, hget, hc⟩
    exact ⟨c, ⟨⟨id, hget⟩, hc⟩, hn id c hget⟩

/-- The enums of the source are listed, bodies of constants included. -/
theorem mem_enumOrder (hn : t.Numbered) :
    id ∈ t.enumOrder ↔ ∃ c, t.get? id = some c ∧ c.builtin = false ∧ c.isEnum = true := by
  simp only [enumOrder, List.mem_append, List.mem_map, List.mem_filter, mem_classes_iff,
    ClassDecl.isEnum, Bool.and_eq_true, Bool.not_eq_true', Bool.or_eq_true, decide_eq_true_eq]
  -- bodies of constants stand in front of the enums, each part a selection of the source classes
  constructor
  · rintro (⟨c, ⟨⟨i, hget⟩, hc, hk⟩, rfl⟩ | ⟨c, ⟨⟨i, hget⟩, hc, hk⟩, rfl⟩)
    · exact ⟨c, hn i c hget ▸ hget, hc, Or.inr hk⟩
    · exact ⟨c, hn i c hget ▸ hget, hc, Or.inl hk⟩
  · rintro ⟨c, hget, hc, hk | hk⟩
    · exact Or.inr ⟨c, ⟨⟨id, hget⟩, hc, hk⟩, hn id c hget⟩
    · exact Or.inl ⟨c, ⟨⟨id, hget⟩, hc, hk⟩, hn id c hget⟩

end ClassTable

/-! ## Headers -/

/-- Two versions of a class that agree in everything but members, modifiers, annotations and
progress. -/
structure ClassDecl.SameHeader (c c' : ClassDecl) : Prop where
  id : c'.id = c.id
  name : c'.name = c.name
  kind : c'.kind = c.kind
  superclass : c'.superclass = c.superclass
  interfaces : c'.interfaces = c.interfaces
  hasScope : c'.hasScope = c.hasScope
  outer : c'.outer = c.outer
  builtin : c'.builtin = c.builtin

namespace ClassDecl.SameHeader

variable {c c' c'' : ClassDecl}

theorem refl (c : ClassDecl) : c.SameHeader c := ⟨rfl, rfl, rfl, rfl, rfl, rfl, rfl, rfl⟩

theorem trans (h : c.SameHeader c') (h' : c'.SameHeader c'') : c.SameHeader c'' :=
  ⟨h'.id.trans h.id, h'.name.trans h.name, h'.kind.trans h.kind, h'.superclass.trans h.superclass,
    h'.interfaces.trans h.interfaces, h'.hasScope.trans h.hasScope, h'.outer.trans h.outer,
    h'.builtin.trans h.builtin⟩

theorem superId? (h : c.SameHeader c') : c'.superId? = c.superId? := by
  rw [ClassDecl.superId?, ClassDecl.superId?, h.superclass]

/-- Being an enum is part of the header. -/
theorem isEnum (h : c.SameHeader c') : c'.isEnum = c.isEnum := by
  rw [ClassDecl.isEnum, ClassDecl.isEnum, h.kind]

theorem isUnscopedBody (h : c.SameHeader c') : c'.isUnscopedBody = c.isUnscopedBody := by
  rw [ClassDecl.isUnscopedBody, ClassDecl.isUnscopedBody, h.kind, h.hasScope]

end ClassDecl.SameHeader

/-! ## Related tables -/

namespace ClassTable

/-- Tables whose classes are related one by one. -/
def Related (R : ClassDecl → ClassDecl → Prop) (t t' : ClassTable) : Prop :=
  List.Forall₂ R t.classes t'.classes

namespace Related

variable {R : ClassDecl → ClassDecl → Prop} {t t' t'' : ClassTable} {id : ClassId}
  {c c' : ClassDecl}

theorem refl (hR : ∀ c, R c c) (t : ClassTable) : t.Related R t :=
  List.forall₂_same.mpr fun c _ => hR c

theorem trans (hR : ∀ {c c' c''}, R c c' → R c' c'' → R c c'') (h : t.Related R t')
    (h' : t'.Related R t'') : t.Related R t'' := by
  rw [Related, List.forall₂_iff_get] at *
  refine ⟨h.1.trans h'.1, fun i hi hi'' => ?_⟩
  exact hR (h.2 i hi (h.1 ▸ hi)) (h'.2 i (h.1 ▸ hi) hi'')

/-- A weaker relation of classes relates the same tables. -/
theorem mono {S : ClassDecl → ClassDecl → Prop} (hS : ∀ {c c'}, R c c' → S c c')
    (h : t.Related R t') :
    t.Related S t' := List.Forall₂.imp (fun _ _ => hS) h

/-- Related tables have the same size. -/
theorem size_eq (h : t.Related R t') : t'.size = t.size := (List.Forall₂.length_eq h).symm

/-- A class of the new table comes from the class with the same number. -/
theorem exists_get? (h : t.Related R t') (hget : t'.get? id = some c') :
    ∃ c, t.get? id = some c ∧ R c c' := by
  obtain ⟨c, hc⟩ := exists_get?_of_lt (h.size_eq ▸ lt_size_of_get? hget)
  refine ⟨c, hc, ?_⟩
  rw [Related, List.forall₂_iff_get] at h
  rw [get?, List.getElem?_eq_some_iff] at hget hc
  obtain ⟨hlt, rfl⟩ := hc
  obtain ⟨hlt', rfl⟩ := hget
  exact h.2 id hlt hlt'

/-- A class of the old table is still there, in its new version. -/
theorem exists_get?' (h : t.Related R t') (hget : t.get? id = some c) :
    ∃ c', t'.get? id = some c' ∧ R c c' := by
  obtain ⟨c', hc'⟩ := exists_get?_of_lt (h.size_eq.symm ▸ lt_size_of_get? hget)
  obtain ⟨d, hd, hR⟩ := h.exists_get? hc'
  obtain rfl : c = d := Option.some.inj (hget.symm.trans hd)
  exact ⟨c', hc', hR⟩

/-- What is known of a class is known of its new version, if the relation keeps it. -/
theorem keeps {P : ClassDecl → Prop} (h : t.Related R t') (hP : ∀ {c c'}, R c c' → P c → P c')
    (hid : ∃ c, t.get? id = some c ∧ P c) : ∃ c, t'.get? id = some c ∧ P c := by
  obtain ⟨c, hget, hc⟩ := hid
  obtain ⟨c', hget', hrel⟩ := h.exists_get?' hget
  exact ⟨c', hget', hP hrel hc⟩

/-- Replacing one class by a related one. -/
theorem set (hR : ∀ c, R c c) (hget : t.get? id = some c) (h : R c c') :
    t.Related R (t.set id c') := by
  rw [Related, List.forall₂_iff_get]
  refine ⟨by simp [ClassTable.set], fun i hi hi' => ?_⟩
  rw [get?, List.getElem?_eq_some_iff] at hget
  obtain ⟨hlt, rfl⟩ := hget
  simp only [ClassTable.set, List.get_eq_getElem, List.getElem_set]
  split
  · rename_i heq
    subst heq
    exact h
  · exact hR _

end Related

/-! ## Tables with the same headers -/

section SameHeader

variable {t t' : ClassTable} (h : t.Related ClassDecl.SameHeader t')

include h

/-- Numbers only depend on the headers. -/
theorem Related.numbered (hn : t.Numbered) : t'.Numbered := by
  intro id c' hget
  obtain ⟨c, hc, hsame⟩ := h.exists_get? hget
  rw [hsame.id, hn id c hc]

theorem Related.based (hb : t.Based) : t'.Based := ⟨h.numbered hb.numbered, h.size_eq ▸ hb.builtins⟩

theorem Related.superclassOf (id : ClassId) : t'.superclassOf id = t.superclassOf id := by
  cases hget : t.get? id with
  | none =>
    have hnone : t'.get? id = none :=
      t'.get?_eq_none_iff.mpr (h.size_eq ▸ t.get?_eq_none_iff.mp hget)
    simp [ClassTable.superclassOf, hget, hnone]
  | some c =>
    obtain ⟨c', hc', hsame⟩ := h.exists_get?' hget
    rw [superclassOf_of_get? hget, superclassOf_of_get? hc', hsame.superId?]

theorem Related.finiteChains (hc : t.FiniteChains) : t'.FiniteChains := by
  rw [FiniteChains] at *
  simpa only [h.superclassOf] using hc

/-- A selection that reads headers only picks the same numbers. -/
theorem Related.selectedIds (p : ClassDecl → Bool) (hp : ∀ {c c'}, c.SameHeader c' → p c' = p c) :
    (t'.classes.filter p).map (·.id) = (t.classes.filter p).map (·.id) := by
  -- the induction runs over the relation, so the tables are opened first
  obtain ⟨cs⟩ := t
  obtain ⟨cs'⟩ := t'
  have hrel : List.Forall₂ ClassDecl.SameHeader cs cs' := h
  clear h
  induction hrel with
  | nil => rfl
  | cons hsame _ ih =>
    rw [List.filter_cons, List.filter_cons, hp hsame]
    split
    · rw [List.map_cons, List.map_cons, ih, hsame.id]
    · exact ih

/-- So does the list of source classes. -/
theorem Related.sourceIds : t'.sourceIds = t.sourceIds :=
  h.selectedIds _ fun hsame => by rw [hsame.builtin]

/-- So does the order in which enums are visited. -/
theorem Related.enumOrder : t'.enumOrder = t.enumOrder := by
  have hkind (kind : ClassKind) :=
    h.selectedIds (fun c => !c.builtin && c.kind = kind) fun hsame => by
      rw [hsame.builtin, hsame.kind]
  rw [ClassTable.enumOrder, ClassTable.enumOrder]
  exact congrArg₂ (· ++ ·) (hkind .constantBody) (hkind .enum)

end SameHeader

end ClassTable

end Metaobject
