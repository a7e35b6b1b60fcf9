import Metaobject.TypeRef

/-!
# Dispatch strategies

What the emitter has to do for a call expression: bind it to a known member, call the closure in a
field, go through a numbered call site, or fall back to reflection for a stated reason.
-/

namespace Metaobject

/-- A method that a call is bound to. -/
structure MethodTarget where
  owner : ClassId
  name : String
  arity : Nat
  isStatic : Bool
deriving DecidableEq, Repr, Inhabited

/-- What is known about a call location when it is compiled. -/
structure SiteKey where
  /-- Type of the receiver expression, where it is evident. -/
  receiver : Option TypeRef
  name : String
  implicitThis : Bool
  isStatic : Bool
deriving DecidableEq, Repr, Inhabited

/-- Why a call is dispatched by reflection. -/
inductive ReflectiveReason where
  | dynamicName
  | spreadArguments
  | superCall
  | cachingDisabled
  | ambiguousConstructor
  | unknownConstructor
deriving DecidableEq, Repr

/-- How a call expression is dispatched. -/
inductive Dispatch where
  /-- Bound to a method. -/
  | direct (target : MethodTarget)
  /-- Bound to the constructor with this index in its class. -/
  | directConstructor (owner : ClassId) (index : Nat)
  /-- Calls the closure held by the field of this name. -/
  | closureField (name : String)
  /-- Goes through a numbered call site. -/
  | callSite (index : Nat) (key : SiteKey)
  | reflective (reason : ReflectiveReason)
deriving DecidableEq, Repr

def Dispatch.isReflective : Dispatch → Bool
  | .reflective _ => true
  | _ => false

end Metaobject
