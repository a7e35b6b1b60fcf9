import Metaobject.Reflection.Record

/-!
# Views of a class

What a record says about its class: members, parents, interfaces and ancestors. A view is computed
from the class on first use and kept in the record. Looking at the members of a class makes them
accessible as far as the policy permits.

Each view takes the class of the record along, so that views of ancestors are reached by recursion
on the class.
-/

namespace Metaobject.View

open Viewing

/-! ## Members -/

/-- The declared fields, in the order of declaration. -/
def fields (c : LoadedClass) (r : RecordNo) : Viewing (List FieldHandle) := do
  ensureUsable c
  memo .fields r do
    let found := Handle.declared c .field c.fields
    found.forM fun h => tryWiden c.name h.signature.name h.id h.signature.modifiers
    return found

/-- The declared constructors, in the order of declaration. -/
def constructors (c : LoadedClass) (r : RecordNo) : Viewing (List ConstructorHandle) := do
  ensureUsable c
  memo .constructors r do
    let found := Handle.declared c .constructor c.constructors
    found.forM fun h => tryWiden c.name constructorName h.id h.signature.modifiers
    return found

/-- The record of the superclass, if there is one. -/
def superclass (c : LoadedClass) (r : RecordNo) : Viewing (Option RecordNo) := do
  ensureUsable c
  memo .superclass r do
    match c.superclass with
    | none => return none
    | some parent => return some (← recordOf parent)

/-- The records of the declared interfaces. -/
def declaredInterfaces (c : LoadedClass) (r : RecordNo) : Viewing (List RecordNo) := do
  ensureUsable c
  memo .declaredInterfaces r (c.interfaces.mapM recordOf)

mutual

/-- The declared methods, with the protocol methods of the superclass. -/
def methods : LoadedClass → RecordNo → Viewing MethodTable
  | c@⟨_, _, _, parent, _, _, _, _⟩, r => do
    ensureUsable c
    memo .methods r do
      let own := (Handle.declared c .method c.methods).filter MethodHandle.isShown
      own.forM fun h => tryWiden c.name h.name h.id h.signature.modifiers
      let inherited ← protocolOfParent parent (← superclass c r)
      return {
        normal := (own.filter (!·.isProtocol)).mergeSort MethodHandle.naturalLe
        protocol := (own.filter (·.isProtocol) ++ inherited).mergeSort MethodHandle.nameLe }

/-- The protocol methods of a superclass, if there is one. -/
def protocolOfParent : Option LoadedClass → Option RecordNo → Viewing (List MethodHandle)
  | some c, some r => return (← methods c r).protocol
  | _, _ => return []

end

mutual

/-- The field of a name, from the class itself or the nearest superclass that declares one. -/
def findField (name : String) : LoadedClass → RecordNo → Viewing (Option FieldHandle)
  | c@⟨_, _, _, parent, _, _, _, _⟩, r => do
    match (← fields c r).find? (·.signature.name == name) with
    | some h => return some h
    | none => fieldOfParent name parent (← superclass c r)

/-- The field of a name that a superclass has, if there is one. -/
def fieldOfParent (name : String) :
    Option LoadedClass → Option RecordNo → Viewing (Option FieldHandle)
  | some c, some r => findField name c r
  | _, _ => return none

end

/-! ## Ancestors -/

/-- The records of distinct classes in a list, each the first of its class, without those of the
class `c`. -/
def distinct (c : LoadedClass) (rs : List RecordNo) : Viewing (List RecordNo) := do
  let classOf (r : RecordNo) : Viewing ClassNo := return (← record r).cls.no
  let tagged ← rs.mapM fun r => return (← classOf r, r)
  let kept := tagged.foldl (fun kept (no, r) =>
    if no = c.no || kept.any (·.1 == no) then kept else kept ++ [(no, r)]) []
  return kept.map (·.2)

mutual

/-- All interfaces of a class, its own first, then inherited ones. An interface counts as one of its
interfaces. -/
def allInterfaces : LoadedClass → RecordNo → Viewing (List RecordNo)
  | c@⟨_, _, _, parent, interfaces, _, _, _⟩, r => do
    ensureUsable c
    let inherited ← memo .allInterfaces r do
      let ofInterfaces ← interfacesOfAll interfaces (← declaredInterfaces c r)
      let ofParent ← interfacesOfParent parent (← superclass c r)
      distinct c (ofInterfaces ++ ofParent)
    if c.isInterface then return (← recordOf c) :: inherited else return inherited

/-- All interfaces of several classes, one after the other. -/
def interfacesOfAll : List LoadedClass → List RecordNo → Viewing (List RecordNo)
  | c :: cs, r :: rs => do
    let first ← allInterfaces c r
    return first ++ (← interfacesOfAll cs rs)
  | _, _ => return []

/-- All interfaces of a superclass, if there is one. -/
def interfacesOfParent : Option LoadedClass → Option RecordNo → Viewing (List RecordNo)
  | some c, some r => allInterfaces c r
  | _, _ => return []

end

mutual

/-- The class and all its ancestors: the class itself, what its interfaces derive from, what its
superclass derives from, and for an interface at last the root. -/
def hierarchy : LoadedClass → RecordNo → Viewing (List RecordNo)
  | c@⟨_, _, _, parent, interfaces, _, _, _⟩, r => do
    ensureUsable c
    let ancestors ← memo .hierarchy r do
      let ofInterfaces ← hierarchyOfAll interfaces (← declaredInterfaces c r)
      let ofParent ← hierarchyOfParent parent (← superclass c r)
      let top ← if c.isInterface then pure [← recordOf .root] else pure []
      distinct c (ofInterfaces ++ ofParent ++ top)
    return (← recordOf c) :: ancestors

/-- The hierarchies of several classes, one after the other. -/
def hierarchyOfAll : List LoadedClass → List RecordNo → Viewing (List RecordNo)
  | c :: cs, r :: rs => do
    let first ← hierarchy c r
    return first ++ (← hierarchyOfAll cs rs)
  | _, _ => return []

/-- The hierarchy of a superclass, if there is one. -/
def hierarchyOfParent : Option LoadedClass → Option RecordNo → Viewing (List RecordNo)
  | some c, some r => hierarchy c r
  | _, _ => return []

end

mutual

/-- The number of classes from this one up to the root, both included. Once known it is answered
without looking. -/
def distance : LoadedClass → RecordNo → Viewing Nat
  | c@⟨_, _, _, parent, _, _, _, _⟩, r => do
    match (← record r).distance with
    | some n => return n
    | none =>
      let n := (← distanceOfParent parent (← superclass c r)) + 1
      update r fun d => { d with distance := some n }
      return n

/-- The same for a superclass, and zero if there is none. -/
def distanceOfParent : Option LoadedClass → Option RecordNo → Viewing Nat
  | some c, some r => distance c r
  | _, _ => return 0

end

end Metaobject.View
