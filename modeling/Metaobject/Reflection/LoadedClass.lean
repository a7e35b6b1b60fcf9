import Metaobject.Declaration

/-!
# Loaded classes

A class as the running program sees it: names, modifiers and member signatures, with the classes it
extends and implements. What a loaded class says never changes, and its parents are loaded before
it, so they are part of it and every question about ancestors is answered by recursion.

A class is told apart from others by its number, not by its name. The root class has the number
zero.
-/

namespace Metaobject

/-- The number of a loaded class. -/
abbrev ClassNo := Nat

/-! ## Signatures -/

structure FieldSignature where
  name : String
  type : String
  modifiers : Modifiers
deriving DecidableEq, Repr

structure MethodSignature where
  name : String
  params : List String
  returnType : String
  modifiers : Modifiers
deriving DecidableEq, Repr

structure ConstructorSignature where
  params : List String
  modifiers : Modifiers
deriving DecidableEq, Repr

def MethodSignature.arity (m : MethodSignature) : Nat := m.params.length

def ConstructorSignature.arity (k : ConstructorSignature) : Nat := k.params.length

/-- What is said about a class in order to define it. Parents are given by name. -/
structure ClassDefinition where
  name : String
  modifiers : Modifiers := .publicOnly
  superclass : Option String := none
  interfaces : List String := []
  fields : List FieldSignature := []
  methods : List MethodSignature := []
  constructors : List ConstructorSignature := []
deriving DecidableEq, Repr

/-- The modifiers of an interface, unless others are given. -/
def ClassDefinition.interfaceModifiers : Modifiers where
  isPublic := true
  isInterface := true
  isAbstract := true

/-- The definition that a declaration amounts to. -/
def ClassDecl.definition (c : ClassDecl) : ClassDefinition where
  name := c.name
  modifiers := c.modifiers
  superclass := c.superclass.map TypeRef.text
  interfaces := c.interfaces.map TypeRef.text
  fields := c.fields.map fun f => ⟨f.name, f.type.text, f.modifiers⟩
  methods :=
    c.methods.map fun m => ⟨m.name, m.params.map (·.type.text), m.returnType.text, m.modifiers⟩
  constructors := c.constructors.map fun k => ⟨k.params.map (·.type.text), k.modifiers⟩

/-! ## Classes -/

/-- A loaded class. -/
structure LoadedClass where
  no : ClassNo
  name : String
  modifiers : Modifiers
  superclass : Option LoadedClass
  interfaces : List LoadedClass
  fields : List FieldSignature
  methods : List MethodSignature
  constructors : List ConstructorSignature

namespace LoadedClass

/-- The class that every other class derives from. -/
def root : LoadedClass where
  no := 0
  name := "Object"
  modifiers := .publicOnly
  superclass := none
  interfaces := []
  fields := []
  methods := [
    ⟨"equals", ["Object"], "boolean", .publicOnly⟩,
    ⟨"getClass", [], "Class", { isPublic := true, isFinal := true }⟩,
    ⟨"hashCode", [], "int", .publicOnly⟩,
    ⟨"toString", [], "String", .publicOnly⟩]
  constructors := [⟨[], .publicOnly⟩]

instance : Inhabited LoadedClass := ⟨root⟩

def isInterface (c : LoadedClass) : Bool := c.modifiers.isInterface

def isRoot (c : LoadedClass) : Bool := c.no == 0

mutual

/-- Whether a value of this class can be assigned to the class with the number `goal`. -/
def derivesFrom (goal : ClassNo) : LoadedClass → Bool
  | ⟨no, _, _, superclass, interfaces, _, _, _⟩ =>
    goal == 0 || goal == no
      || (match superclass with
          | none => false
          | some parent => parent.derivesFrom goal)
      || anyDerivesFrom goal interfaces

/-- The same for one of several classes. -/
def anyDerivesFrom (goal : ClassNo) : List LoadedClass → Bool
  | [] => false
  | c :: cs => c.derivesFrom goal || anyDerivesFrom goal cs

end

/-- Whether a value of `sub` can be assigned to `sup`. -/
def isAssignableFrom (sup sub : LoadedClass) : Bool := sub.derivesFrom sup.no

mutual

/-- The numbers in `seen`, with those of the class and of all its ancestors. A class whose number
was seen is not entered again; its ancestors were seen before it. -/
def joinFamily (seen : List ClassNo) : LoadedClass → List ClassNo
  | ⟨no, _, _, superclass, interfaces, _, _, _⟩ =>
    if no ∈ seen then seen
    else
      let seen := match superclass with
        | none => seen
        | some parent => parent.joinFamily seen
      no :: joinFamilies seen interfaces

/-- The same for several classes. -/
def joinFamilies (seen : List ClassNo) : List LoadedClass → List ClassNo
  | [] => seen
  | c :: cs => joinFamilies (c.joinFamily seen) cs

end

end LoadedClass

end Metaobject
