import Metaobject.ClassTable.Basic
import Metaobject.Reflection.ClassSpace

/-!
# Loaders

A loader gives names to loaded classes. It defines classes from definitions or from declarations of
a class table, and unloads them again. Every loader knows the root class, which is never unloaded.
Two loaders may each have a class of the same name.
-/

namespace Metaobject

/-- The classes that a loader has defined and not unloaded, by name. -/
structure Loader where
  registered : List (String × LoadedClass) := [(LoadedClass.root.name, LoadedClass.root)]

namespace Loader

def size (l : Loader) : Nat := l.registered.length

def lookup (l : Loader) (name : String) : Option LoadedClass := l.registered.lookup name

/-- A parent of a class that is being defined, which has to be loaded. -/
def require (l : Loader) (name parent : String) : Except ReflectionError LoadedClass :=
  match l.lookup parent with
  | some c => .ok c
  | none => .error (.missingDependency name parent)

/-- The superclass of a new class. A class that names none extends the root; an interface then
extends nothing. -/
def superclassOf (l : Loader) (d : ClassDefinition) : Except ReflectionError (Option LoadedClass) :=
  match d.superclass with
  | some parent => (l.require d.name parent).map some
  | none => .ok (if d.modifiers.isInterface then none else some .root)

/-- The class that a definition describes, under the given number. -/
def classOf (l : Loader) (no : ClassNo) (d : ClassDefinition) :
    Except ReflectionError LoadedClass := do
  if (l.lookup d.name).isSome then throw (.duplicateClass d.name)
  let superclass ← l.superclassOf d
  let interfaces ← d.interfaces.mapM (l.require d.name)
  return ⟨no, d.name, d.modifiers, superclass, interfaces, d.fields, d.methods, d.constructors⟩

end Loader

/-- Classes are loaded by changing the loader and the class space. A failure keeps what was loaded
before it. -/
structure LoadingState where
  space : ClassSpace
  loader : Loader

/-- A computation that loads classes. -/
abbrev Loading := ExceptT ReflectionError (StateT LoadingState (Except Fault))

namespace Loading

/-- Define a class under the next free number. -/
def define (d : ClassDefinition) : Loading LoadedClass := do
  let s ← get
  match s.loader.classOf s.space.next d with
  | .error e => throw e
  | .ok c =>
    set ({ space := { s.space with next := s.space.next + 1 }
           loader := ⟨s.loader.registered ++ [(c.name, c)]⟩ } : LoadingState)
    return c

/-- Define a class of the table. Built-in parents that are not loaded yet are defined first; all
other parents have to be loaded. -/
def defineDeclared (t : ClassTable) : Nat → ClassId → Loading LoadedClass
  | 0, id => (throw (.endlessSearch id) : Except Fault LoadedClass)
  | fuel + 1, id => do
    match t.get? id with
    | none => throw (.invalidDefinition ("#" ++ toString id) "class id not in table")
    | some c =>
      match (← get).loader.lookup c.name with
      | some existing => if c.builtin then return existing else throw (.duplicateClass c.name)
      | none =>
        if c.isPrimitive
          then throw (.invalidDefinition c.name "primitive types have no runtime class")
        (c.superclass.toList ++ c.interfaces).forM fun parent => do
          match parent.classId? with
          | none => throw (.missingDependency c.name parent.text)
          | some parentId =>
            let p ← (t.get parentId : Except Fault ClassDecl)
            if p.builtin && ((← get).loader.lookup p.name).isNone then
              let _ ← defineDeclared t fuel parentId
        define c.definition

/-- Define the class with this number in the table. -/
def declared (t : ClassTable) (id : ClassId) : Loading LoadedClass :=
  defineDeclared t (t.size + 1) id

/-- Unload the class of this name, if the loader has one. The root class stays. -/
def unload (name : String) : StateM LoadingState (Option LoadedClass) := do
  let s ← get
  if name = LoadedClass.root.name then return none
  match s.loader.lookup name with
  | none => return none
  | some c =>
    set ({ space := s.space.markUnloaded c.no
           loader := ⟨s.loader.registered.filter (·.1 != name)⟩ } : LoadingState)
    return some c

end Loading

end Metaobject
