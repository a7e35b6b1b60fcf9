import Metaobject.Reflection.CallSite
import Metaobject.Reflection.Loader
import Metaobject.Reflection.Residency

/-!
# The reflection layer as a whole

Operations on all classes, caches and class values together. Caches and class values are addressed
by number and stay in place; a cache that is dropped is closed, and a class value with slots that is
dropped empties them.
-/

namespace Metaobject.World

variable {α : Type} (w : World α)

/-! ## Caches -/

/-- The cache with a number; there is an empty one behind the last. -/
def cache (i : Nat) : ReflectionCache := w.caches[i]?.getD (.empty .slot fun _ _ => true)

def setCache (i : Nat) (k : ReflectionCache) : World α := { w with caches := w.caches.set i k }

/-- Add a cache under the next free number. -/
def addCache (k : ReflectionCache) : World α := { w with caches := w.caches ++ [k] }

def closeCache (i : Nat) : World α := w.setCache i (w.cache i).close

/-- A cache with what changes about classes. -/
def realm (i : Nat) : Realm := ⟨w.space, w.cache i⟩

def setRealm (i : Nat) (r : Realm) : World α := { w.setCache i r.cache with space := r.space }

/-- Look at classes through a cache. -/
def view {β : Type} (i : Nat) (act : Viewing β) : Except ReflectionError β × World α :=
  let (found, after) := act.run.run (w.realm i)
  (found, w.setRealm i after)

/-- Resolve a call through a cache. -/
def call (i : Nat) (s : CallSite) (receiver : LoadedClass) (arity : Nat) :
    Except DispatchError MemberHandle × CallSite × World α :=
  let (found, s, after) := s.resolve (w.realm i) receiver arity
  (found, s, w.setRealm i after)

/-! ## Loading -/

/-- Load classes with a loader. -/
def load (l : Loader) (act : Loading LoadedClass) :
    Except Fault (Except ReflectionError LoadedClass × Loader × World α) := do
  let (found, after) ← act.run.run ⟨w.space, l⟩
  return (found, after.loader, { w with space := after.space })

/-- Unload a class. The values that are kept on it go with it. -/
def unload (l : Loader) (name : String) : Option LoadedClass × Loader × World α :=
  let (found, after) := (Loading.unload name).run ⟨w.space, l⟩
  match found with
  | none => (none, l, w)
  | some c => (some c, after.loader, { w with space := after.space }.classUnloaded c.no)

/-! ## Class values -/

def value? (i : Nat) : Option (ClassValue α) := w.values[i]?

def setValue (i : Nat) (v : ClassValue α) : World α := { w with values := w.values.set i v }

/-- Add a class value under the next free number. -/
def addValue (v : ClassValue α) : World α := { w with values := w.values ++ [v] }

/-! ## Class values with slots -/

/-- The slots of the classes that are in use. The slots of all other classes have gone with them. -/
def slotsInUse (h : Holdings) : SlotTable α := w.slots.sweep (w.classesInUse h).contains

/-- Add a class value with slots. -/
def addSlots : World α := { w with slots := w.slots.create }

/-- Ask a class value for the value of a class. -/
def getSlot (h : Holdings) (i : ValueNo) (c : ClassNo) (compute : Nat → α) : Option (α × World α) :=
  ((w.slotsInUse h).get w.space (w.classesInUse h).contains i c compute).map fun r =>
    (r.1, { w with slots := r.2 })

/-- Remove the value of a class, if there is one. -/
def removeSlot (i : ValueNo) (c : ClassNo) : Option α × World α :=
  (w.slots.slot? c i, { w with slots := w.slots.clear c i })

/-- Drop a class value. -/
def dropSlots (h : Holdings) (i : ValueNo) : World α :=
  { w with slots := (w.slotsInUse h).drop (w.classesInUse h).contains i }

end Metaobject.World
