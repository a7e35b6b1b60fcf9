import Metaobject.Reflection.View

/-!
# Resolution of members

Which member a call means, given a name and the number of arguments. The class is searched first,
then its ancestors in the order of its hierarchy, with the root at the end. A concrete method wins
over an abstract one, wherever that stands; a call without arguments may also mean a field. Methods
that were added to the class at run time come before all others, newest first.
-/

namespace Metaobject.Resolution

open Viewing

/-- The records to search, the root moved to the end. -/
def order (c : LoadedClass) (r : RecordNo) : Viewing (List RecordNo) := do
  let rs ← View.hierarchy c r
  let cache := (← get).cache
  let isRoot (r : RecordNo) := (cache.record r).cls.isRoot
  return rs.filter (!isRoot ·) ++ rs.filter isRoot

/-- The method that one record contributes. -/
def ownMethod (name : String) (arity : Nat) (r : RecordNo) : Viewing (Option MethodHandle) := do
  let methods ← View.methods (← record r).cls r
  return MethodHandle.select arity (methods.find name)

/-- The first concrete method in a list of records, or else the first abstract one, or else
`fallback`. -/
def searchMethod (name : String) (arity : Nat) (fallback : Option MethodHandle) :
    List RecordNo → Viewing (Option MethodHandle)
  | [] => return fallback
  | r :: rs => do
    match ← ownMethod name arity r with
    | none => searchMethod name arity fallback rs
    | some h =>
      if h.isAbstract then searchMethod name arity (fallback <|> some h) rs else return some h

/-- The member that a call on this class means, methods added at run time aside. -/
def declaredMember (c : LoadedClass) (r : RecordNo) (name : String) (arity : Nat) :
    Viewing (Option MemberHandle) := do
  match ← searchMethod name arity none (← order c r) with
  | some h => return some (.method h)
  | none => if arity = 0 then return (← View.findField name c r).map .field else return none

/-- The best of the methods of a name that were added at run time. -/
def addedMethod (d : ClassRecord) (name : String) (arity : Nat) : Option MethodHandle :=
  MethodHandle.select arity (d.added.reverse.filter (·.name == name))

/-- The member that a call on this class means. -/
def member (c : LoadedClass) (r : RecordNo) (name : String) (arity : Nat) :
    Viewing (Option MemberHandle) := do
  match addedMethod (← record r) name arity with
  | some h => return some (.method h)
  | none => declaredMember c r name arity

/-- The constructor that takes this many arguments: one with as many parameters, or else one that
accepts them. -/
def constructor (c : LoadedClass) (r : RecordNo) (arity : Nat) : Viewing (Option MemberHandle) := do
  let ks ← View.constructors c r
  return (ks.find? (·.signature.arity == arity) <|> ks.find? (·.accepts arity)).map .constructor

end Metaobject.Resolution

namespace Metaobject.Realm

/-- Add a method to a class at run time. Calls that were resolved before have to be resolved
again. -/
def addMethod (s : Realm) (r : RecordNo) (m : MethodSignature) : MethodHandle × Realm :=
  let h : MethodHandle := ⟨.added s.space.addedMethods, (s.cache.record r).cls, m⟩
  let cache :=
    s.cache.update r fun d => { d with added := d.added ++ [h], version := d.version + 1 }
  (h, { space := { s.space with addedMethods := s.space.addedMethods + 1 }
        cache := { cache with changes := cache.changes + 1 } })

end Metaobject.Realm
