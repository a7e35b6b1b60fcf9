import Metaobject.Reflection.ClassSpace

/-!
# Members

Handles for the fields, methods and constructors of loaded classes. A handle knows its class and its
signature; two handles are the same member if their identities agree.

Methods whose name starts with `this$` or `super$` serve the metaobject protocol and are kept apart
from the others.
-/

namespace Metaobject

/-- A member of a loaded class. -/
structure Handle (σ : Type) where
  id : MemberId
  owner : LoadedClass
  signature : σ

abbrev FieldHandle := Handle FieldSignature

abbrev MethodHandle := Handle MethodSignature

abbrev ConstructorHandle := Handle ConstructorSignature

/-- The handles of a list of declared members. -/
def Handle.declared {σ : Type} (owner : LoadedClass) (mkId : ClassNo → Nat → MemberId)
    (members : List σ) : List (Handle σ) :=
  members.zipIdx.map fun (s, i) => ⟨mkId owner.no i, owner, s⟩

/-- Whether a member with this many parameters takes this many arguments. With variable arguments
the last parameter takes any number of them. Arguments are counted in words of 64 bits, in which one
more than the largest is zero. -/
def acceptsArity (params : Nat) (varargs : Bool) (arity : Nat) : Bool :=
  if varargs then params ≤ (arity + 1) % UInt64.size else arity == params

/-- How many elements stand before the first one that does not satisfy `p`, found by halving the
list. The elements that satisfy `p` have to stand before all others. -/
def partitionPoint {α : Type} (p : α → Bool) (l : List α) : Nat :=
  if l.length ≤ 1 then l.countP p
  else if l[l.length / 2]?.any p then l.length / 2 + partitionPoint p (l.drop (l.length / 2))
  else partitionPoint p (l.take (l.length - l.length / 2))
termination_by l.length
decreasing_by all_goals simp only [List.length_drop, List.length_take]; omega

namespace FieldHandle

def name (h : FieldHandle) : String := h.signature.name

def text (h : FieldHandle) : String := s!"{h.signature.type} {h.owner.name}.{h.signature.name}"

end FieldHandle

namespace ConstructorHandle

def arity (h : ConstructorHandle) : Nat := h.signature.arity

def accepts (h : ConstructorHandle) (arity : Nat) : Bool :=
  acceptsArity h.arity h.signature.modifiers.isVarargs arity

def text (h : ConstructorHandle) : String :=
  h.owner.name ++ "(" ++ ", ".intercalate h.signature.params ++ ")"

end ConstructorHandle

namespace MethodHandle

def name (h : MethodHandle) : String := h.signature.name

def arity (h : MethodHandle) : Nat := h.signature.arity

def isStatic (h : MethodHandle) : Bool := h.signature.modifiers.isStatic

def isAbstract (h : MethodHandle) : Bool := h.signature.modifiers.isAbstract

def isVarargs (h : MethodHandle) : Bool := h.signature.modifiers.isVarargs

/-- Whether the method serves the metaobject protocol. -/
def isProtocol (h : MethodHandle) : Bool := h.name.startsWith "this$" || h.name.startsWith "super$"

/-- Bridge methods, and overloads that only repeat another one, are not shown. -/
def isShown (h : MethodHandle) : Bool :=
  !h.signature.modifiers.isBridge && !h.name.toList.contains '+'

def accepts (h : MethodHandle) (arity : Nat) : Bool := acceptsArity h.arity h.isVarargs arity

def text (h : MethodHandle) : String :=
  h.owner.name ++ "." ++ h.name ++ "(" ++ ", ".intercalate h.signature.params ++ ")"

/-- The order of methods: by name, then number of parameters, then parameter types. -/
def naturalLe (a b : MethodHandle) : Bool :=
  if a.name ≠ b.name then a.name < b.name
  else if a.arity ≠ b.arity then a.arity < b.arity
  else !decide (b.signature.params < a.signature.params)

/-- The order of protocol methods: by name alone. -/
def nameLe (a b : MethodHandle) : Bool := !decide (b.name < a.name)

/-- The methods of a name, in a list that is sorted by name. -/
def nameRange (sorted : List MethodHandle) (name : String) : List MethodHandle :=
  let rest := sorted.drop (partitionPoint (·.name < name) sorted)
  rest.take (partitionPoint (·.name == name) rest)

/-- How well a method fits a number of arguments that it accepts; less is better. Concrete methods
come before abstract ones, and among those an exact fit before variable arguments. -/
def rank (h : MethodHandle) (arity : Nat) : Nat :=
  (if h.isAbstract then 2 else 0) + (if h.arity == arity && !h.isVarargs then 0 else 1)

/-- The first of the best methods for a number of arguments. -/
def select (arity : Nat) (candidates : List MethodHandle) : Option MethodHandle :=
  let fitting := candidates.filter (·.accepts arity)
  fitting.find? fun h => fitting.all fun other => h.rank arity ≤ other.rank arity

end MethodHandle

/-- Any member. -/
inductive MemberHandle where
  | method (h : MethodHandle)
  | constructor (h : ConstructorHandle)
  | field (h : FieldHandle)

namespace MemberHandle

def id : MemberHandle → MemberId
  | method h => h.id
  | constructor h => h.id
  | field h => h.id

/-- The class that the member was found in. -/
def owner : MemberHandle → LoadedClass
  | method h => h.owner
  | constructor h => h.owner
  | field h => h.owner

def isMethod : MemberHandle → Bool
  | method _ => true
  | _ => false

/-- Whether the member takes this many arguments; fields take none at all. -/
def accepts? : MemberHandle → Nat → Option Bool
  | method h, arity => some (h.accepts arity)
  | constructor h, arity => some (h.accepts arity)
  | field _, _ => none

end MemberHandle

end Metaobject
