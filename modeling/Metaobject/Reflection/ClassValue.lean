import Metaobject.ClassTable.Basic
import Metaobject.Reflection.ClassSpace
import Metaobject.Settings

/-!
# Class values

A class value keeps one computed value for each class. It has one of two backends. With slots the
value is kept on the class and goes when the class is unloaded. With a map it is kept beside the
class, in one of several segments; a value of an unloaded class is not seen any more, and goes when
the next value is written into its segment.

A class value with slots is taken by itself here. `SlotTable` has the slots that several class
values share.
-/

namespace Metaobject

/-- Where the values are kept. -/
inductive ValueBackend where
  | slot
  /-- A map with this many segments: a power of two, or none. -/
  | map (segments : Nat)
deriving DecidableEq, Repr

namespace ValueBackend

/-- How many bytes an empty segment takes. -/
def segmentSize : Nat := 40

/-- The backend with the given storage. A map has the next power of two of segments, if all of them
together have addresses. -/
def of (storage : ValueStorage) (segments : Nat) : Except Fault ValueBackend :=
  match storage with
  | .slot => return slot
  | .map =>
    let count := powerOfTwoFrom segments
    if count * segmentSize < Nat.pow 2 63 then return map count else throw (.tooManySegments count)

/-- The backend that settings ask for, if no word asks for a storage. -/
def ofSettings (s : RuntimeSettings) : Except Fault ValueBackend :=
  of (s.chosenStorage none) s.segmentCount

end ValueBackend

/-- The segment of a class. Consecutive numbers are spread by multiplication with a constant near
2^64 divided by the golden ratio. -/
def segmentOf (segments : Nat) (c : ClassNo) : Nat :=
  c * 0x9E3779B97F4A7C15 % UInt64.size / UInt32.size % segments

/-- One value for each class. -/
structure ClassValue (α : Type) where
  backend : ValueBackend
  entries : List (ClassNo × α) := []
  /-- How many values were computed. -/
  computations : Nat := 0

namespace ClassValue

variable {α : Type}

/-- The class value itself, if it can be asked for values: a map without segments cannot. -/
def asked (v : ClassValue α) : Except Fault (ClassValue α) :=
  if v.backend = .map 0 then throw .noSegments else return v

/-- The value of a class, if it is there. Unloaded classes have none. -/
def find? (v : ClassValue α) (space : ClassSpace) (c : ClassNo) : Option α :=
  if space.isLoaded c then v.entries.lookup c else none

/-- Keep a value that has just been computed. Nothing is kept for an unloaded class. Writing into a
segment of a map removes what unloaded classes have left there. -/
def store (v : ClassValue α) (space : ClassSpace) (c : ClassNo) (value : α) : ClassValue α :=
  let kept := match v.backend with
    | .slot => v.entries
    | .map segments =>
      v.entries.filter fun (d, _) => space.isLoaded d ||
        segmentOf segments d != segmentOf segments c
  { v with
    entries := if space.isLoaded c then kept ++ [(c, value)] else v.entries
    computations := v.computations + 1 }

/-- The value of a class. It is computed, from the number of values computed before, if it is not
there. -/
def get (v : ClassValue α) (space : ClassSpace) (c : ClassNo) (compute : Nat → α) :
    α × ClassValue α :=
  match v.find? space c with
  | some value => (value, v)
  | none =>
    let value := compute v.computations
    (value, v.store space c value)

/-- Remove the value of a class, if there is one. -/
def remove (v : ClassValue α) (c : ClassNo) : Option α × ClassValue α :=
  (v.entries.lookup c, { v with entries := v.entries.filter (·.1 != c) })

/-- What remains when a class is unloaded: its slot goes, a map keeps its entry for now. -/
def classUnloaded (v : ClassValue α) (c : ClassNo) : ClassValue α :=
  match v.backend with
  | .slot => { v with entries := v.entries.filter (·.1 != c) }
  | .map _ => v

/-- How many values a map holds for classes that are loaded and in use. Slots cannot be counted. -/
def count? (v : ClassValue α) (space : ClassSpace) (inUse : List ClassNo) : Option Nat :=
  match v.backend with
  | .slot => none
  | .map _ => some (v.entries.filter fun (c, _) => space.isLoaded c && inUse.contains c).length

end ClassValue

end Metaobject
