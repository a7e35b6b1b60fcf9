import Metaobject.Reflection.ClassSpace

/-!
# Slots

A class value with slots keeps what it computes on the classes themselves. All class values share
the classes: on every class each of them has one slot, under its own number. A class that is
unloaded, or not in use any more, loses all its slots. A class value that is dropped empties its own
slots, and for that it notes on which classes it has written.
-/

namespace Metaobject

/-- The number of a class value with slots. No two class values get the same number. -/
abbrev ValueNo := Nat

/-- What a class value itself keeps. -/
structure SlotBook where
  /-- The classes on which it has written, as far as they were not found gone. Classes whose slot is
  empty by now stay. -/
  written : List ClassNo := []
  /-- How many values were computed. -/
  computations : Nat := 0
deriving DecidableEq, Repr

/-- Note that something was written on a class, and forget the classes that are gone. -/
def SlotBook.note (b : SlotBook) (inUse : ClassNo → Bool) (c : ClassNo) : SlotBook :=
  let kept := b.written.filter inUse
  { b with written := if c ∈ kept then kept else kept ++ [c] }

/-- The slots of all classes, and the class values that write into them. The values of all of them
have one type. -/
structure SlotTable (α : Type) where
  /-- What is in the slots, by class and class value. -/
  slots : List ((ClassNo × ValueNo) × α) := []
  /-- The class values in use. -/
  books : List (ValueNo × SlotBook) := []
  /-- The number of the next class value. -/
  next : ValueNo := 0

namespace SlotTable

variable {α : Type}

def book? (t : SlotTable α) (i : ValueNo) : Option SlotBook := t.books.lookup i

/-- What a class holds for a class value. -/
def slot? (t : SlotTable α) (c : ClassNo) (i : ValueNo) : Option α := t.slots.lookup (c, i)

/-- Add a class value, under the next number. -/
def create (t : SlotTable α) : SlotTable α :=
  { t with books := t.books ++ [(t.next, {})], next := t.next + 1 }

/-- Replace what a class value keeps. -/
def setBook (t : SlotTable α) (i : ValueNo) (b : SlotBook) : SlotTable α :=
  { t with books := t.books.map fun entry => if entry.1 = i then (entry.1, b) else entry }

/-- Put a value into a slot if it is empty; what is in the slot then comes with the table. An
unloaded class has no slots, and the value comes back as it is. -/
def fill (t : SlotTable α) (space : ClassSpace) (c : ClassNo) (i : ValueNo) (x : α) :
    α × SlotTable α :=
  if space.isLoaded c then
    match t.slot? c i with
    | some y => (y, t)
    | none => (x, { t with slots := t.slots ++ [((c, i), x)] })
  else (x, t)

/-- Empty a slot. -/
def clear (t : SlotTable α) (c : ClassNo) (i : ValueNo) : SlotTable α :=
  { t with slots := t.slots.filter (·.1 != (c, i)) }

/-- Only these classes keep their slots. -/
def sweep (t : SlotTable α) (keeps : ClassNo → Bool) : SlotTable α :=
  { t with slots := t.slots.filter fun slot => keeps slot.1.1 }

/-- The value of a class. It is computed, from the number of values computed before, if its slot is
empty, and noted if it stays there. There is no answer from a class value that is not in use. -/
def get (t : SlotTable α) (space : ClassSpace) (inUse : ClassNo → Bool) (i : ValueNo) (c : ClassNo)
    (compute : Nat → α) : Option (α × SlotTable α) :=
  (t.book? i).map fun b =>
    match t.slot? c i with
    | some x => (x, t)
    | none =>
      let (seen, t) := t.fill space c i (compute b.computations)
      let b := { b with computations := b.computations + 1 }
      (seen, t.setBook i (if (t.slot? c i).isSome then b.note inUse c else b))

/-- Drop a class value. Its slots are emptied on the classes it has noted, as far as these are in
use. -/
def drop (t : SlotTable α) (inUse : ClassNo → Bool) (i : ValueNo) : SlotTable α :=
  let written := (t.book? i).elim [] (·.written)
  let t := (written.filter inUse).foldl (fun t c => t.clear c i) t
  { t with books := t.books.filter (·.1 != i) }

end SlotTable

end Metaobject
