import Metaobject.ClassTable.Basic

/-!
# Ancestors in a class table

A class derives from itself, from its parents and from all classes they derive from, where the
parents of a class are its resolved superclass and interfaces. A member is looked up in a class,
then in its superclass, and so on. Cycles and absent classes do no harm to either search.
-/

namespace Metaobject.ClassTable

variable (t : ClassTable)

/-! ## Subtyping

`isDerivedFrom` searches the parents, and remembers which classes it has expanded. -/

/-- Search for `goal` from the classes still `pending`. A class that was `seen` before is not
expanded again. -/
def search (goal : ClassId) : Nat → List ClassId → List ClassId → Bool
  | 0, _, _ => false
  | _ + 1, [], _ => false
  | fuel + 1, id :: pending, seen =>
    if id = goal then true
    else if id ∈ seen then search goal fuel pending seen
    else search goal fuel (t.parentsOf id ++ pending) (id :: seen)

/-- How many steps a search can take: one per link between a class and a parent, one for the start,
one to stop. -/
def searchBound : Nat := (t.classes.flatMap (·.parentIds)).length + 2

/-- Whether `sub` is `sup` or extends or implements it, directly or through other classes. -/
def isDerivedFrom (sub sup : ClassId) : Bool := t.search sup t.searchBound [sub] []

/-- Subtyping of type references: arrays compare by component, and unbound names are related to
nothing. -/
def isTypeDerivedFrom : TypeRef → TypeRef → Bool
  | .array a, .array b => isTypeDerivedFrom a b
  | .resolved a _, .resolved b _ => t.isDerivedFrom a b
  | _, _ => false

/-! ## Members along the superclass chain

The chain ends at a class without a resolved superclass, at a class that the table does not hold, or
where it would return to a class it has passed. -/

/-- The rest of a superclass chain from `id`, with the numbers `passed` already on it. -/
def chainFrom : Nat → List ClassId → ClassId → List (ClassId × ClassDecl)
  | 0, _, _ => []
  | fuel + 1, passed, id =>
    if id ∈ passed then []
    else
      match t.get? id with
      | none => []
      | some c =>
        (id, c) :: match c.superId? with
          | none => []
          | some parent => chainFrom fuel (id :: passed) parent

/-- The class and its superclasses, nearest first. -/
def superChain (id : ClassId) : List (ClassId × ClassDecl) := t.chainFrom t.size [] id

/-- The nearest method of this name and number of parameters, with the class that declares it. -/
def findMethod (id : ClassId) (name : String) (arity : Nat) : Option (ClassId × Method) :=
  (t.superChain id).findSome? fun (owner, c) => (c.method? name arity).map (owner, ·)

/-- The nearest field of this name, with the class that declares it. -/
def findField (id : ClassId) (name : String) : Option (ClassId × Field) :=
  (t.superChain id).findSome? fun (owner, c) => (c.field? name).map (owner, ·)

/-- Whether the class or a superclass declares a method of this name. -/
def hasMethodNamed (id : ClassId) (name : String) : Bool :=
  (t.superChain id).any fun (_, c) => c.methods.any (·.name == name)

end Metaobject.ClassTable
