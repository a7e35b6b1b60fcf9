/-!
# Type references

A declaration or expression names a type by a `TypeRef`: a class of the table, an array of a
component type, or a name that no class has claimed yet. A resolved reference keeps the name it was
written with, and that name is its text.
-/

namespace Metaobject

/-- The number of a class in its table. -/
abbrev ClassId := Nat

/-- A reference to a type. -/
inductive TypeRef where
  /-- A class of the table, with the name it was referred to by. -/
  | resolved (id : ClassId) (name : String)
  | array (component : TypeRef)
  /-- A name that is not bound to a class. -/
  | unresolved (name : String)
deriving DecidableEq, Repr, Inhabited

namespace TypeRef

/-- The class referred to; arrays and unbound names refer to none. -/
def classId? : TypeRef → Option ClassId
  | resolved id _ => some id
  | _ => none

def isArray : TypeRef → Bool
  | array _ => true
  | _ => false

/-- Whether the reference, below all its array brackets, is bound to a class. -/
def isResolved : TypeRef → Bool
  | resolved .. => true
  | array c => c.isResolved
  | unresolved _ => false

def component? : TypeRef → Option TypeRef
  | array c => some c
  | _ => none

/-- The type below all array brackets. -/
def base : TypeRef → TypeRef
  | array c => c.base
  | ty => ty

/-- Simple name, with one `[]` per array level. -/
def text : TypeRef → String
  | resolved _ name => name
  | array c => c.text ++ "[]"
  | unresolved name => name

end TypeRef

end Metaobject
