import Metaobject.Reflection.Record
import Metaobject.Reflection.SlotTable

/-!
# Residency

Which records and classes are in use. A record is in use while somebody holds it, while an open
cache has it as the current record of a class, or while a computed part of another record in use
lists it. Only the parts of records in use can be taken back when memory is short. A class is in use
while somebody holds it, while a record in use describes it, or while it is an ancestor of a class
in use.
-/

namespace Metaobject

/-- The records that the computed parts of a record list. -/
def ClassRecord.links (d : ClassRecord) : List RecordNo :=
  d.declaredInterfaces.value.getD [] ++ (d.superclass.value.getD none).toList
    ++ d.allInterfaces.value.getD [] ++ d.hierarchy.value.getD []

/-- Whether each part can be taken back. -/
def ClassRecord.registered (d : ClassRecord) : List Bool :=
  [d.fields.isRegistered, d.constructors.isRegistered, d.methods.isRegistered,
    d.declaredInterfaces.isRegistered,
    d.superclass.isRegistered, d.allInterfaces.isRegistered, d.hierarchy.isRegistered]

/-- Whether each part is taken back under the given pressure. -/
def ClassRecord.reclaimable (d : ClassRecord) (p : Pressure) : List Bool :=
  [d.fields.isReclaimed p, d.constructors.isReclaimed p, d.methods.isReclaimed p,
    d.declaredInterfaces.isReclaimed p,
    d.superclass.isReclaimed p, d.allInterfaces.isReclaimed p, d.hierarchy.isReclaimed p]

/-- The record after its parts were taken back. -/
def ClassRecord.reclaim (d : ClassRecord) (p : Pressure) : ClassRecord :=
  { d with
    fields := d.fields.reclaim p
    constructors := d.constructors.reclaim p
    methods := d.methods.reclaim p
    declaredInterfaces := d.declaredInterfaces.reclaim p
    superclass := d.superclass.reclaim p
    allInterfaces := d.allInterfaces.reclaim p
    hierarchy := d.hierarchy.reclaim p }

namespace ReflectionCache

/-- Follow links from the `pending` records. A record that was `seen` is not entered again. -/
def follow (k : ReflectionCache) : Nat → List RecordNo → List RecordNo → List RecordNo
  | 0, _, seen => seen
  | _ + 1, [], seen => seen
  | fuel + 1, r :: pending, seen =>
    if r ∈ seen then k.follow fuel pending seen
    else k.follow fuel ((k.record r).links ++ pending) (r :: seen)

/-- The current records of an open cache. -/
def current (k : ReflectionCache) : List RecordNo := k.infos.entries.map (·.2)

/-- The records in use, given those that somebody holds. -/
def inUse (k : ReflectionCache) (held : List RecordNo) : List RecordNo :=
  let start := held ++ k.current
  k.follow (start.length + (k.records.flatMap (·.links)).length + 1) start []

/-- How many parts of records in use can be taken back, whether they hold a value or not. -/
def liveCount (k : ReflectionCache) (held : List RecordNo) : Nat :=
  ((k.inUse held).flatMap fun r => (k.record r).registered).count true

/-- Take back what the pressure allows; the count of values taken back comes with the cache. -/
def reclaim (k : ReflectionCache) (held : List RecordNo) (p : Pressure) : ReflectionCache × Nat :=
  let live := k.inUse held
  let cleared := (live.flatMap fun r => (k.record r).reclaimable p).count true
  let k := live.foldl (fun k r => k.update r (·.reclaim p)) k
  ({ k with reclaimed := k.reclaimed + cleared }, cleared)

end ReflectionCache

/-! ## All caches together -/

/-- The state of the reflection layer: the classes, and everything that keeps values for them. -/
structure World (α : Type) where
  space : ClassSpace := {}
  caches : List ReflectionCache := []
  /-- Class values that keep their values beside the classes. -/
  values : List (ClassValue α) := []
  /-- Class values that keep their values on the classes. -/
  slots : SlotTable α := {}

/-- What is held from outside. -/
structure Holdings where
  classes : List LoadedClass
  /-- Records, each with the number of its cache. -/
  records : List (Nat × RecordNo)

/-- The records of a cache that are held. -/
def Holdings.recordsOf (h : Holdings) (cache : Nat) : List RecordNo :=
  (h.records.filter (·.1 == cache)).map (·.2)

namespace World

variable {α : Type}

/-- The classes in use. The root class always is. -/
def classesInUse (w : World α) (h : Holdings) : List ClassNo :=
  let described := w.caches.zipIdx.flatMap fun (k, i) => (k.inUse (h.recordsOf i)).map fun r =>
    (k.record r).cls
  LoadedClass.joinFamilies [] (.root :: described ++ h.classes)

/-- The state after a class was unloaded: values that are kept on the class go with it. -/
def classUnloaded (w : World α) (c : ClassNo) : World α :=
  { w with
    caches := w.caches.map fun k => { k with infos := k.infos.classUnloaded c }
    values := w.values.map (·.classUnloaded c)
    slots := w.slots.sweep (· != c) }

end World

end Metaobject
