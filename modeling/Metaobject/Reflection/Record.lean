import Metaobject.Reflection.ClassValue
import Metaobject.Reflection.Lazy
import Metaobject.Reflection.Member

/-!
# Class records

A reflection cache keeps a record for every class it has described. The record holds what was found
out about the class, each part as a lazy value, and the methods that were added to the class at run
time. Records refer to each other by number, and a number stays valid when the cache forgets the
record: whoever holds it can still ask it.
-/

namespace Metaobject

/-- The number of a record in its cache. -/
abbrev RecordNo := Nat

/-- The methods of a class: ordinary ones in their natural order, and protocol methods, inherited
ones included, by name. -/
structure MethodTable where
  normal : List MethodHandle := []
  protocol : List MethodHandle := []

/-- The ordinary methods of a name. -/
def MethodTable.find (t : MethodTable) (name : String) : List MethodHandle :=
  MethodHandle.nameRange t.normal name

/-- The protocol methods of a name. -/
def MethodTable.findProtocol (t : MethodTable) (name : String) : List MethodHandle :=
  MethodHandle.nameRange t.protocol name

/-- What a cache knows about a class. -/
structure ClassRecord where
  cls : LoadedClass
  /-- How often the class was changed at run time. -/
  version : Nat := 0
  /-- The methods added at run time, oldest first. -/
  added : List MethodHandle := []
  fields : Lazy (List FieldHandle) := { strength := .soft }
  constructors : Lazy (List ConstructorHandle) := { strength := .soft }
  methods : Lazy MethodTable := { strength := .soft }
  declaredInterfaces : Lazy (List RecordNo) := { strength := .soft }
  superclass : Lazy (Option RecordNo) := { strength := .soft }
  /-- All interfaces of the class except the class itself. -/
  allInterfaces : Lazy (List RecordNo) := { strength := .weak }
  /-- All ancestors of the class except the class itself. -/
  hierarchy : Lazy (List RecordNo) := { strength := .weak }
  /-- The number of classes up to the root, once it is known. -/
  distance : Option Nat := none

instance : Inhabited ClassRecord := ⟨{ cls := .root }⟩

/-- One lazy part of a record. -/
structure RecordSlot (α : Type) where
  get : ClassRecord → Lazy α
  put : ClassRecord → Lazy α → ClassRecord

namespace RecordSlot

def fields : RecordSlot (List FieldHandle) := ⟨(·.fields), fun d l => { d with fields := l }⟩

def constructors : RecordSlot (List ConstructorHandle) :=
  ⟨(·.constructors), fun d l => { d with constructors := l }⟩

def methods : RecordSlot MethodTable := ⟨(·.methods), fun d l => { d with methods := l }⟩

def declaredInterfaces : RecordSlot (List RecordNo) :=
  ⟨(·.declaredInterfaces), fun d l => { d with declaredInterfaces := l }⟩

def superclass : RecordSlot (Option RecordNo) :=
  ⟨(·.superclass), fun d l => { d with superclass := l }⟩

def allInterfaces : RecordSlot (List RecordNo) :=
  ⟨(·.allInterfaces), fun d l => { d with allInterfaces := l }⟩

def hierarchy : RecordSlot (List RecordNo) := ⟨(·.hierarchy), fun d l => { d with hierarchy := l }⟩

end RecordSlot

/-- A reflection cache. -/
structure ReflectionCache where
  /-- The current record of each class. -/
  infos : ClassValue RecordNo
  permits : AccessPolicy
  /-- How many changes have made resolved calls doubtful. -/
  changes : Nat := 0
  /-- All records that were ever made, by number. -/
  records : List ClassRecord := []
  /-- How many parts of records were taken back so far. -/
  reclaimed : Nat := 0
  /-- A cache that was dropped describes nothing any more. -/
  isOpen : Bool := true

namespace ReflectionCache

def empty (backend : ValueBackend) (permits : AccessPolicy) : ReflectionCache where
  infos := { backend }
  permits

def record (k : ReflectionCache) (r : RecordNo) : ClassRecord := (k.records[r]?).getD default

/-- Change a record. -/
def update (k : ReflectionCache) (r : RecordNo) (f : ClassRecord → ClassRecord) : ReflectionCache :=
  { k with records := k.records.set r (f (k.record r)) }

/-- Forget the record of a class, and let all resolved calls be resolved again. -/
def forget (k : ReflectionCache) (c : ClassNo) : ReflectionCache :=
  { k with infos := (k.infos.remove c).2, changes := k.changes + 1 }

/-- Drop the cache. Its records stay for those who hold them. -/
def close (k : ReflectionCache) : ReflectionCache :=
  { k with isOpen := false, infos := { k.infos with entries := [] } }

end ReflectionCache

/-- A cache together with what changes about the classes it describes. -/
structure Realm where
  space : ClassSpace
  cache : ReflectionCache

/-- A computation that looks at classes. What it has found out stays known when it fails. -/
abbrev Viewing := ExceptT ReflectionError (StateM Realm)

namespace Viewing

def record (r : RecordNo) : Viewing ClassRecord := return (← get).cache.record r

def update (r : RecordNo) (f : ClassRecord → ClassRecord) : Viewing Unit :=
  modify fun s => { s with cache := s.cache.update r f }

/-- The current record of a loaded class; a new one, if the cache has none. -/
def recordOf (c : LoadedClass) : Viewing RecordNo := do
  let s ← get
  if s.space.isLoaded c.no then
    match s.cache.infos.find? s.space c.no with
    | some r => return r
    | none =>
      let r := s.cache.records.length
      let infos := s.cache.infos.store s.space c.no r
      let records := s.cache.records ++ [{ cls := c }]
      set ({ s with cache := { s.cache with infos, records } } : Realm)
      return r
  else throw (.classUnloaded c.name)

/-- A record is of use only while its class is loaded and its cache is open. -/
def ensureUsable (c : LoadedClass) : Viewing Unit := do
  let s ← get
  if !s.space.isLoaded c.no then throw (.classUnloaded c.name)
  if !s.cache.isOpen then throw (.cacheDropped c.name)

/-- A part of a record: the value it holds, or else the computed one, which it holds from then
on. -/
def memo {α : Type} (slot : RecordSlot α) (r : RecordNo) (compute : Viewing α) : Viewing α := do
  match (slot.get (← record r)).value with
  | some v => return v
  | none =>
    let v ← compute
    update r fun d => slot.put d ((slot.get d).fill v)
    return v

/-- Make a member accessible as far as the policy of the cache permits. -/
def tryWiden (owner member : String) (id : MemberId) (m : Modifiers) : Viewing Unit :=
  modify fun s => { s with space := s.space.tryWiden s.cache.permits owner member id m }

end Viewing

end Metaobject
