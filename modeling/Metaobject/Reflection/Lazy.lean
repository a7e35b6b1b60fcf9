/-!
# Revocable values

A lazy value is computed on first use and kept until memory runs short. Then it is taken back, and
the next use computes it again. Soft values are taken back under high pressure only, weak ones under
any.
-/

namespace Metaobject

/-- How easily a value is taken back. -/
inductive Strength where
  | soft
  | weak
deriving DecidableEq, Repr

/-- How short memory is. -/
inductive Pressure where
  | low
  | high
deriving DecidableEq, Repr

/-- Whether values of this strength are taken back. -/
def Pressure.reclaims : Pressure → Strength → Bool
  | .high, _ => true
  | .low, .weak => true
  | .low, .soft => false

/-- A value that is computed on demand. -/
structure Lazy (α : Type) where
  strength : Strength
  value : Option α := none
  /-- How often a held value was dropped. -/
  generation : Nat := 0
  /-- How often the value was computed. -/
  computations : Nat := 0

namespace Lazy

variable {α : Type}

def isComputed (l : Lazy α) : Bool := l.value.isSome

/-- A lazy value can be taken back from the moment it was first computed. -/
def isRegistered (l : Lazy α) : Bool := 0 < l.computations

/-- Hold a value that has just been computed. -/
def fill (l : Lazy α) (v : α) : Lazy α :=
  { l with value := some v, computations := l.computations + 1 }

/-- Drop the held value, if there is one. -/
def clear (l : Lazy α) : Lazy α :=
  if l.isComputed then { l with value := none, generation := l.generation + 1 } else l

/-- Whether a value is taken back under this pressure. -/
def isReclaimed (l : Lazy α) (p : Pressure) : Bool :=
  l.isRegistered && p.reclaims l.strength && l.isComputed

/-- The value after memory ran short. -/
def reclaim (l : Lazy α) (p : Pressure) : Lazy α := if l.isReclaimed p then l.clear else l

end Lazy

/-! ## Pools -/

/-- Lazy values that are taken back together. -/
structure LazyPool (α : Type) where
  /-- The values in use, by number. -/
  members : List (Nat × Lazy α) := []
  /-- The number of the next value. -/
  next : Nat := 0
  /-- The values that were ever computed, as far as they have not been found gone. -/
  registered : List Nat := []
  /-- How many values were taken back so far. -/
  reclaimed : Nat := 0
  /-- The values that are being computed. -/
  computing : List Nat := []

namespace LazyPool

variable {α : Type}

def get? (p : LazyPool α) (n : Nat) : Option (Lazy α) := p.members.lookup n

/-- Add a value that is not computed yet. -/
def create (p : LazyPool α) (s : Strength) : LazyPool α :=
  { p with members := (p.next, { strength := s }) :: p.members, next := p.next + 1 }

/-- Remove a value. -/
def drop (p : LazyPool α) (n : Nat) : LazyPool α :=
  { p with members := p.members.filter (·.1 != n) }

/-- Replace a value. -/
def put (p : LazyPool α) (n : Nat) (l : Lazy α) : LazyPool α :=
  { p with members := p.members.map fun (m, old) => if m = n then (m, l) else (m, old) }

/-- Let a lazy value hold what has just been computed. It is registered with the pool the first
time. -/
def fill (p : LazyPool α) (n : Nat) (v : α) : LazyPool α :=
  match p.get? n with
  | none => p
  | some l =>
    let filled := p.put n (l.fill v)
    if l.isRegistered then filled else { filled with registered := filled.registered ++ [n] }

/-- The computation of a value begins. -/
def enter (p : LazyPool α) (n : Nat) : LazyPool α := { p with computing := n :: p.computing }

/-- The computation of a value is over. -/
def leave (p : LazyPool α) (n : Nat) : LazyPool α :=
  { p with computing := p.computing.filter (· != n) }

/-- What a lazy value holds, or else what is computed for it, which it holds from then on. The
computation may use the pool itself; if it fails, nothing is added to what it did. There is no
answer for a value that is not in use, and none for a value that is being computed: such a request
would wait for itself. -/
def getOrTryFill {m : Type → Type} [Monad m] {ε : Type} (n : Nat)
    (compute : StateT (LazyPool α) m (Except ε α)) : StateT (LazyPool α) m (Option (Except ε α)) :=
  fun p =>
  match p.get? n with
  | none => return (none, p)
  | some l =>
    match l.value with
    | some v => return (some (.ok v), p)
    | none =>
      if n ∈ p.computing then return (none, p)
      else do
        match ← compute.run (p.enter n) with
        | (.error e, q) => return (some (.error e), q.leave n)
        | (.ok v, q) => return (some (.ok v), (q.fill n v).leave n)

/-- Drop what a lazy value holds; whether it held anything comes with the pool. -/
def clear (p : LazyPool α) (n : Nat) : LazyPool α × Bool :=
  match p.get? n with
  | none => (p, false)
  | some l => (p.put n l.clear, l.isComputed)

/-- The registered values that are still in use. -/
def live (p : LazyPool α) : List Nat := p.registered.filter fun n => (p.get? n).isSome

/-- Go through the lazy values with these numbers and clear those that the pressure allows. The
count of those that held anything comes with the pool. -/
def takeBack (pressure : Pressure) : List Nat → LazyPool α → LazyPool α × Nat
  | [], p => (p, 0)
  | n :: ns, p =>
    if (p.get? n).any (pressure.reclaims ·.strength) then
      let (p, held) := p.clear n
      let (p, count) := takeBack pressure ns p
      (p, if held then count + 1 else count)
    else takeBack pressure ns p

/-- Take back what the pressure allows; the count of values taken back comes with the pool.
Registered values that are not in use any more are forgotten. -/
def reclaim (p : LazyPool α) (pressure : Pressure) : LazyPool α × Nat :=
  let (p, cleared) := takeBack pressure p.live { p with registered := p.live }
  ({ p with reclaimed := p.reclaimed + cleared }, cleared)

end LazyPool

end Metaobject
