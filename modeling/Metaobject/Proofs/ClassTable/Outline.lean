import Metaobject.ClassTable.Ancestors

/-!
# Outlines of classes

The outline of a class is what code elsewhere can see of it: its header, and its members with their
types and parameters. Bodies, initializers and annotations are left out. The passes change mostly
what an outline leaves out, so a question that is answered from outlines alone has the same answer
before and after them.

Names, subtyping and the search for members along superclasses are such questions: each lemma here
says that a question has the same answer in the table of outlines.
-/

namespace Metaobject

/-! ## Outlines -/

/-- A parameter without its default and its annotations. -/
def Param.outline (p : Param) : Param := { p with default := none, annotations := [] }

/-- A field without its initializer and its annotations. -/
def Field.outline (f : Field) : Field := { f with init := none, annotations := [] }

/-- A method without its code and its annotations. -/
def Method.outline (m : Method) : Method :=
  { m with params := m.params.map Param.outline, body := none, default := none, annotations := [] }

/-- A constructor without its code and its annotations. -/
def Constructor.outline (k : Constructor) : Constructor :=
  { k with params := k.params.map Param.outline, body := [], annotations := [] }

/-- What other code sees of a class: its members with their types and parameters, without code and
annotations. -/
def ClassDecl.outline (c : ClassDecl) : ClassDecl :=
  { c with
    fields := c.fields.map Field.outline
    methods := c.methods.map Method.outline
    constructors := c.constructors.map Constructor.outline
    staticInit := []
    annotations := []
    definitionChecked := false }

/-- A table with the outlines of its classes. -/
def ClassTable.outline (t : ClassTable) : ClassTable := ⟨t.classes.map ClassDecl.outline⟩

/-! ## Members -/

@[simp]
theorem Method.arity_outline (m : Method) : m.outline.arity = m.arity := by simp [outline, arity]

@[simp]
theorem Constructor.arity_outline (k : Constructor) : k.outline.arity = k.arity := by
  simp [outline, arity]

namespace ClassDecl

@[simp]
theorem superId?_outline (c : ClassDecl) : c.outline.superId? = c.superId? := rfl

@[simp]
theorem parentIds_outline (c : ClassDecl) : c.outline.parentIds = c.parentIds := rfl

/-- A method is found in the outline if it is found in the class. -/
theorem method?_outline (c : ClassDecl) (name : String) (arity : Nat) :
    c.outline.method? name arity = (c.method? name arity).map Method.outline := by
  simp [method?, outline, List.find?_map, Function.comp_def, Method.outline, Method.arity]

/-- A field is found in the outline if it is found in the class. -/
theorem field?_outline (c : ClassDecl) (name : String) :
    c.outline.field? name = (c.field? name).map Field.outline := by
  simp [field?, outline, List.find?_map, Function.comp_def, Field.outline]

/-- The constructors with a number of parameters, each with its index. -/
theorem fitting_outline (c : ClassDecl) (arity : Nat) :
    (c.outline.constructors.zipIdx.filter fun (k, _) => k.arity == arity)
      = (c.constructors.zipIdx.filter fun (k, _) => k.arity == arity).map fun (k, i) =>
        (k.outline, i) := by
  simp [outline, List.zipIdx_map, List.filter_map, Function.comp_def, Prod.map]

end ClassDecl

namespace ClassTable

variable (t : ClassTable)

/-! ## Names and subtyping -/

@[simp]
theorem size_outline : t.outline.size = t.size := by simp [outline, size]

/-- The outline of a table has the outlines of the classes, under the same numbers. -/
theorem get?_outline (id : ClassId) : t.outline.get? id = (t.get? id).map ClassDecl.outline := by
  simp [outline, get?]

@[simp]
theorem lookup_outline (name : String) : t.outline.lookup name = t.lookup name := by
  simp [lookup, outline, ← List.map_reverse, List.find?_map, Function.comp_def, ClassDecl.outline]

@[simp]
theorem typeRef_outline (id : ClassId) : t.outline.typeRef id = t.typeRef id := by
  rw [typeRef, typeRef, get?_outline]
  cases t.get? id <;> rfl

@[simp]
theorem resolve_outline (type : TypeRef) : t.outline.resolve type = t.resolve type := by
  induction type with
  | resolved id name => rfl
  | array component ih => rw [resolve, resolve, ih]
  | unresolved name => simp [resolve, typeNamed]

@[simp]
theorem superclassOf_outline (id : ClassId) : t.outline.superclassOf id = t.superclassOf id := by
  rw [superclassOf, superclassOf, get?_outline]
  cases t.get? id <;> rfl

@[simp]
theorem parentsOf_outline (id : ClassId) : t.outline.parentsOf id = t.parentsOf id := by
  rw [parentsOf, parentsOf, get?_outline]
  cases t.get? id <;> rfl

/-- The search along the links goes the same way. -/
theorem search_outline (goal : ClassId) : ∀ (fuel : Nat) (pending seen : List ClassId),
    t.outline.search goal fuel pending seen = t.search goal fuel pending seen := by
  intro fuel
  induction fuel with
  | zero => intro pending seen; rfl
  | succ fuel ih =>
    intro pending seen
    cases pending with
    | nil => rfl
    | cons id pending => simp [search, ih]

@[simp]
theorem isDerivedFrom_outline (sub sup : ClassId) :
    t.outline.isDerivedFrom sub sup = t.isDerivedFrom sub sup := by
  have hbound : t.outline.searchBound = t.searchBound := by
    simp [searchBound, outline, List.flatMap_map]
  rw [isDerivedFrom, isDerivedFrom, hbound, search_outline]

/-! ## Members along the superclass chain -/

/-- The chain of superclasses is the same, with outlines for classes. -/
theorem chainFrom_outline : ∀ (fuel : Nat) (passed : List ClassId) (id : ClassId),
    t.outline.chainFrom fuel passed id = (t.chainFrom fuel passed id).map fun (owner, c) =>
      (owner, c.outline) := by
  intro fuel
  induction fuel with
  | zero => intro passed id; rfl
  | succ fuel ih =>
    intro passed id
    rw [chainFrom, chainFrom, get?_outline]
    split
    · rfl
    · -- an outline has the superclass of its class, so both chains go on alike
      cases t.get? id with
      | none => rfl
      | some c => cases hp : c.superId? <;> simp [hp, ih]

/-- The same method is found along the superclasses. -/
theorem findMethod_outline (id : ClassId) (name : String) (arity : Nat) :
    t.outline.findMethod id name arity = (t.findMethod id name arity).map fun (owner, m) =>
      (owner, m.outline) := by
  simp only [findMethod, superChain, chainFrom_outline, size_outline, List.findSome?_map,
    List.map_findSome?]
  congr 1
  funext ⟨owner, c⟩
  simp [ClassDecl.method?_outline, Function.comp_def]

/-- The same field is found along the superclasses. -/
theorem findField_outline (id : ClassId) (name : String) :
    t.outline.findField id name = (t.findField id name).map fun (owner, f) =>
      (owner, f.outline) := by
  simp only [findField, superChain, chainFrom_outline, size_outline, List.findSome?_map,
    List.map_findSome?]
  congr 1
  funext ⟨owner, c⟩
  simp [ClassDecl.field?_outline, Function.comp_def]

end ClassTable

end Metaobject
