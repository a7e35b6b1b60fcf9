import Metaobject.Reflection.Error
import Metaobject.Reflection.LoadedClass

/-!
# What changes about loaded classes

Loaded classes never change; what does change is kept beside them. A class may be unloaded, and a
member that is not public may be made accessible, if the access policy permits it.
-/

namespace Metaobject

/-- What tells a member apart from all others. -/
inductive MemberId where
  /-- A declared field: the class and the index in it. -/
  | field (owner : ClassNo) (index : Nat)
  | method (owner : ClassNo) (index : Nat)
  | constructor (owner : ClassNo) (index : Nat)
  /-- A method that was added at run time. -/
  | added (serial : Nat)
deriving DecidableEq, Repr

/-- Whether a member may be made accessible, given the names of its class and of itself. -/
abbrev AccessPolicy := String → String → Bool

/-- What is known about all classes together. -/
structure ClassSpace where
  /-- The number of the next class. -/
  next : ClassNo := 1
  unloaded : List ClassNo := []
  /-- Members that are not public but were made accessible. -/
  widened : List MemberId := []
  /-- How many methods were added at run time. -/
  addedMethods : Nat := 0
deriving DecidableEq, Repr

namespace ClassSpace

def isLoaded (s : ClassSpace) (c : ClassNo) : Bool := c ∉ s.unloaded

/-- Whether a member with these modifiers is accessible. -/
def isAccessible (s : ClassSpace) (id : MemberId) (m : Modifiers) : Bool :=
  m.isPublic || id ∈ s.widened

/-- Make a member accessible. Accessible members stay so; any other needs the permission of the
policy. -/
def widen (s : ClassSpace) (permits : AccessPolicy) (owner member : String) (id : MemberId)
    (m : Modifiers) : Except AccessDenied ClassSpace :=
  if s.isAccessible id m then .ok s
  else if permits owner member then .ok { s with widened := id :: s.widened }
  else .error ⟨owner, member⟩

/-- Make a member accessible, or leave it as it is if that is not permitted. -/
def tryWiden (s : ClassSpace) (permits : AccessPolicy) (owner member : String) (id : MemberId)
    (m : Modifiers) : ClassSpace :=
  match s.widen permits owner member id m with
  | .ok s => s
  | .error _ => s

def markUnloaded (s : ClassSpace) (c : ClassNo) : ClassSpace :=
  { s with unloaded := c :: s.unloaded }

@[simp]
theorem isLoaded_markUnloaded (s : ClassSpace) (c d : ClassNo) :
    (s.markUnloaded c).isLoaded d = (d != c && s.isLoaded d) := by
  simp [isLoaded, markUnloaded, bne, Bool.beq_eq_decide_eq]

end ClassSpace

/-- The name that policies and messages use for constructors. -/
def constructorName : String := "<init>"

end Metaobject
