/-!
# Failures of reflection

What can go wrong when classes are defined, looked at or called, and how each failure is worded.
-/

namespace Metaobject

/-- Why a class cannot be defined or described. -/
inductive ReflectionError where
  | classUnloaded (name : String)
  | cacheDropped (name : String)
  | duplicateClass (name : String)
  | missingDependency (name missing : String)
  | invalidDefinition (name reason : String)
deriving DecidableEq, Repr

def ReflectionError.message : ReflectionError → String
  | classUnloaded name => s!"Class {name} has been unloaded"
  | cacheDropped name => s!"Reflection cache dropped while describing {name}"
  | duplicateClass name => s!"Class {name} is already defined"
  | missingDependency name missing => s!"Cannot define {name}: {missing} is not loaded"
  | invalidDefinition name reason => s!"Cannot define {name}: {reason}"

/-- Why a call finds no member. -/
inductive DispatchError where
  | missingMethod (owner name : String) (arity : Nat)
  | missingConstructor (owner : String) (arity : Nat)
  | reflection (e : ReflectionError)
deriving DecidableEq, Repr

def DispatchError.message : DispatchError → String
  | missingMethod owner name arity =>
    s!"No signature of method {owner}.{name}() is applicable for {arity} argument(s)"
  | missingConstructor owner arity =>
    s!"Could not find matching constructor for {owner} with {arity} argument(s)"
  | reflection e => e.message

/-- A member that may not be made accessible. -/
structure AccessDenied where
  owner : String
  member : String
deriving DecidableEq, Repr

def AccessDenied.message (e : AccessDenied) : String :=
  s!"Access denied: cannot make {e.owner}.{e.member} accessible"

end Metaobject
