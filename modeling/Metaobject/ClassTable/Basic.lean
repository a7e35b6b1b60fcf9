import Metaobject.Declaration

/-!
# Class tables

All classes of one compilation unit, addressed by number. Classes are only ever added, and a class
gets the next free number. Two classes may share a name: a name means the class that took it last.

References may be malformed in every way. A class number may be absent from the table, and
superclasses may form cycles; `get?` answers for every number, and `get` fails on an absent one.
Numbers are words of 32 bits in memory. A table is taken to stay within them, so that no number is
given away twice.
-/

namespace Metaobject

/-! ## Faults

What stops a computation outright. A fault is not a problem in the user's code, which is reported
and passed over: it means that the class table itself is malformed, or that values are to be kept
where there is no room for them. -/

/-- Why a computation cannot go on. -/
inductive Fault where
  /-- A class was demanded that the table does not hold. -/
  | absentClass (id : ClassId)
  /-- A search along superclasses goes round in a cycle and never ends. -/
  | endlessSearch (start : ClassId)
  /-- A map was asked for with more segments than memory has addresses for. -/
  | tooManySegments (count : Nat)
  /-- A value was sought in a map without segments. -/
  | noSegments
deriving DecidableEq, Repr

/-! ## Tables -/

/-- The classes of a compilation unit. -/
structure ClassTable where
  classes : List ClassDecl
deriving Inhabited

namespace ClassTable

variable (t : ClassTable)

def size : Nat := t.classes.length

def get? (id : ClassId) : Option ClassDecl := t.classes[id]?

/-- The class with this number, which has to be there. -/
def get (id : ClassId) : Except Fault ClassDecl :=
  match t.get? id with
  | some c => .ok c
  | none => .error (.absentClass id)

/-- Add a class under the next free number. -/
def add (c : ClassDecl) : ClassTable := ⟨t.classes ++ [{ c with id := t.size }]⟩

/-- Replace the class with this number; an absent number changes nothing. -/
def set (id : ClassId) (c : ClassDecl) : ClassTable := ⟨t.classes.set id c⟩

/-- The class that took a name last. -/
def lookup (name : String) : Option ClassId := (t.classes.reverse.find? (·.name == name)).map (·.id)

/-- The classes that came from source, in the order they were added. -/
def sourceIds : List ClassId := (t.classes.filter (!·.builtin)).map (·.id)

/-- A reference to a class by number; an absent class is named after its number. -/
def typeRef (id : ClassId) : TypeRef :=
  .resolved id (match t.get? id with
    | some c => c.name
    | none => "#" ++ toString id)

/-- A reference to a class by name, unbound if no class has the name. -/
def typeNamed (name : String) : TypeRef :=
  match t.lookup name with
  | some id => t.typeRef id
  | none => .unresolved name

/-- Bind a name that the table has learned since the reference was made. -/
def resolve : TypeRef → TypeRef
  | .unresolved name => t.typeNamed name
  | .array c => .array (resolve c)
  | .resolved id name => .resolved id name

def superclassOf (id : ClassId) : Option ClassId := (t.get? id).bind (·.superId?)

/-- The numbers of the direct superclass and interfaces; none for an absent class. -/
def parentsOf (id : ClassId) : List ClassId := ((t.get? id).map (·.parentIds)).getD []

def isPrimitive (id : ClassId) : Bool := (t.get? id).any (·.isPrimitive)

def isAnnotationType (id : ClassId) : Bool := (t.get? id).any (·.isAnnotationType)

def isEnum (id : ClassId) : Bool := (t.get? id).any (·.isEnum)

/-- The bodies of enum constants whose superclass is the given enum. -/
def constantBodies (id : ClassId) : List ClassId :=
  (t.classes.filter fun c => c.kind = .constantBody && c.superId? == some id).map (·.id)

/-! ## Reading lemmas -/

@[simp]
theorem size_add (c : ClassDecl) : (t.add c).size = t.size + 1 := by simp [size, add]

@[simp]
theorem size_set (id : ClassId) (c : ClassDecl) : (t.set id c).size = t.size := by simp [size, set]

theorem get?_eq_none_iff {id : ClassId} : t.get? id = none ↔ t.size ≤ id := by simp [get?, size]

theorem get?_set (id j : ClassId) (c : ClassDecl) :
    (t.set id c).get? j = if j = id ∧ id < t.size then some c else t.get? j := by
  simp only [get?, set, size]
  grind

end ClassTable

end Metaobject
