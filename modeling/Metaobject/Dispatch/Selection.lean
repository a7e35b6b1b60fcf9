import Metaobject.ClassTable.Builtin
import Metaobject.ClassTable.Ancestors

/-!
# Choosing a dispatch strategy

How each kind of call is dispatched, given where it stands. A call that goes through a call site
only fixes the key of the site; its number is given when the site is registered.

A method call with a known target and no spread argument is bound to it. A call with a computed name
is reflective. A call on the current object may mean the closure in a field. Any other call goes
through a call site, unless it spreads arguments, calls a superclass method, or caching is switched
off.
-/

namespace Metaobject

/-- Where a call stands. -/
structure CallContext where
  /-- The class whose code contains the call. -/
  classId : ClassId
  /-- Whether the code is static. -/
  inStatic : Bool
deriving DecidableEq, Repr

/-- What is chosen for a call. -/
inductive Choice where
  /-- A strategy that needs no call site. -/
  | settled (d : Dispatch)
  /-- A call site with this key. -/
  | site (key : SiteKey)
deriving DecidableEq, Repr

namespace ClassTable

variable (t : ClassTable)

/-- Whether an unqualified call means the closure in a field: there is a field of the name whose
type derives from closures, and no method that fits. -/
def callsClosureField (id : ClassId) (name : String) (arity : Nat) : Bool :=
  (((t.findField id name).bind fun (_, f) => (t.resolve f.type).classId?).any
    (t.isDerivedFrom · Builtin.closure))
    && (t.findMethod id name arity).isNone

/-- The type of a receiver, where it is evident. -/
def receiverType? (ctx : CallContext) : Expr → Option TypeRef
  | .var name binding _ =>
    if name = "this" then some (t.typeRef ctx.classId)
    else
      match binding with
      | some (.field owner field) => (t.findField owner field).map fun (_, f) => t.resolve f.type
      | _ => none
  | .classRef type _ => some (t.resolve type)
  | .constant v _ => (Builtin.constantClass v).map t.typeRef
  | .field owner name _ => (t.findField owner name).map fun (_, f) => t.resolve f.type
  | .construct (.new type) _ _ _ => some (t.resolve type)
  | _ => none

/-- The choice for a method call. -/
def methodChoice (caching : Bool) (ctx : CallContext) (object : Expr) (method : MethodName)
    (args : List Expr) (implicitThis : Bool) (target : Option MethodTarget) : Choice :=
  let spread := args.any Expr.isSpread
  match target.filter fun _ => !spread, method with
  | some target, _ => .settled (.direct target)
  | none, .computed _ => .settled (.reflective .dynamicName)
  | none, .named name =>
    if implicitThis && t.callsClosureField ctx.classId name args.length
      then .settled (.closureField name)
    else if spread then .settled (.reflective .spreadArguments)
    else if object.isSuper then .settled (.reflective .superCall)
    else if !caching then .settled (.reflective .cachingDisabled)
    else .site ⟨t.receiverType? ctx object, name, implicitThis, ctx.inStatic⟩

/-! ## Calls on a known class -/

/-- Whether a method takes this many arguments by collecting the last ones. -/
def acceptsVarargs (m : Method) (name : String) (arity : Nat) : Bool :=
  m.name == name && m.modifiers.isVarargs && 0 < m.arity && m.arity ≤ arity + 1

/-- The nearest method along the superclasses that collects arguments. A class that is its own
superclass ends the search; on any longer cycle it would never end. -/
def findVarargs (name : String) (arity : Nat) :
    Nat → ClassId → Except Fault (Option (ClassId × Method))
  | 0, id => .error (.endlessSearch id)
  | fuel + 1, id =>
    match t.get? id with
    | none => .ok none
    | some c =>
      match c.methods.find? (acceptsVarargs · name arity), c.superId? with
      | some m, _ => .ok (some (id, m))
      | none, none => .ok none
      | none, some parent => if parent = id then .ok none else findVarargs name arity fuel parent

/-- The method that a call on a known class is bound to: one with this many parameters, or else one
that collects arguments. -/
def findApplicable (id : ClassId) (name : String) (arity : Nat) :
    Except Fault (Option (ClassId × Method)) :=
  match t.findMethod id name arity with
  | some found => .ok (some found)
  | none => t.findVarargs name arity (t.size + 1) id

/-- The choice for a call on a known class. -/
def staticChoice (caching : Bool) (owner : ClassId) (method : String) (args : List Expr) :
    Except Fault Choice := do
  if args.any Expr.isSpread then return .settled (.reflective .spreadArguments)
  else
    match ← t.findApplicable owner method args.length with
    | some (declaring, m) => return .settled (.direct ⟨declaring, m.name, m.arity, m.isStatic⟩)
    | none =>
      if caching then return .site ⟨some (t.typeRef owner), method, false, true⟩
      else return .settled (.reflective .cachingDisabled)

/-! ## Constructor calls -/

/-- The class whose constructor is called. -/
def constructedClass? (ctx : CallContext) : ConstructorKind → Option ClassId
  | .new type => (t.resolve type).classId?
  | .super => t.superclassOf ctx.classId
  | .this => some ctx.classId

/-- The choice for a constructor call: the only constructor with this many parameters. -/
def constructorChoice (ctx : CallContext) (kind : ConstructorKind) (args : List Expr) : Dispatch :=
  if args.any Expr.isSpread then .reflective .spreadArguments
  else
    match (t.constructedClass? ctx kind).bind t.get? with
    | none => .reflective .unknownConstructor
    | some c =>
      match c.constructors.zipIdx.filter fun (k, _) => k.arity == args.length with
      | [] => .reflective .unknownConstructor
      | [(_, index)] => .directConstructor c.id index
      | _ => .reflective .ambiguousConstructor

/-- The choice for a call expression; other expressions have none. -/
def choice? (caching : Bool) (ctx : CallContext) : Expr → Except Fault (Option Choice)
  | .call object method args implicitThis _ target _ _ =>
    return some (t.methodChoice caching ctx object method args implicitThis target)
  | .staticCall owner _ method args _ _ => return some (← t.staticChoice caching owner method args)
  | .construct kind args _ _ => return some (.settled (t.constructorChoice ctx kind args))
  | _ => return none

end ClassTable

end Metaobject
