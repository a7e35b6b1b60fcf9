import Metaobject.ClassTable.Basic
import Metaobject.Problem.Basic

/-!
# Enum constants

The initializer of an enum constant lists the arguments of its construction. A class literal among
them that names a body of the enum is the constant's own class, and a named argument spoils the
constant. `plannedConstants` is what is left to build, and `constantProblems` is what is wrong.
-/

namespace Metaobject

/-- An enum constant that can be built. -/
structure PlannedConstant where
  name : String
  ordinal : Int32
  /-- The class to build: the enum itself, or the constant's own body. -/
  owner : ClassId
  args : List Expr

/-- The arguments that the initializer of an enum constant lists. A single expression is a list of
one. -/
def Field.constantArgs (f : Field) : List Expr :=
  match f.init with
  | some (.list es _) => es
  | some e => [e]
  | none => []

/-- The span of a named argument. -/
def Expr.namedArgument? : Expr → Option Span
  | .entry e => some e.span
  | _ => none

namespace ClassTable

variable (t : ClassTable)

/-- Whether a class is the body of a constant of the given enum. -/
def isBodyOf (enumId body : ClassId) : Bool :=
  (t.get? body).any fun c => c.kind = .constantBody && c.superId? == some enumId

/-- The body of a constant that a class literal names. -/
def bodyLiteral? (enumId : ClassId) : Expr → Option ClassId
  | .classRef type _ => type.classId?.filter (t.isBodyOf enumId)
  | _ => none

/-- The constant's own class; of several, the one named last. -/
def constantBody? (enumId : ClassId) (f : Field) : Option ClassId :=
  f.constantArgs.reverse.findSome? (t.bodyLiteral? enumId)

/-- The arguments that are passed on to the constructor. -/
def callArgs (enumId : ClassId) (f : Field) : List Expr :=
  f.constantArgs.filter fun e => (t.bodyLiteral? enumId e).isNone && e.namedArgument?.isNone

/-- The constants of an enum that can be built. A constant keeps its ordinal when others drop out.
Ordinals have 32 bits: after `Int32.maxValue` they go on with `Int32.minValue`. -/
def plannedConstants (c : ClassDecl) : List PlannedConstant :=
  c.enumConstants.zipIdx.filterMap fun (f, place) =>
    if (f.constantArgs.findSome? Expr.namedArgument?).isSome then none
    else some ⟨f.name, .ofNat place, (t.constantBody? c.id f).getD c.id, t.callArgs c.id f⟩

/-- Whether some constant of the enum has a class of its own. -/
def hasConstantBodies (c : ClassDecl) : Bool :=
  c.enumConstants.any fun f => (t.constantBody? c.id f).isSome

/-- Whether the body of a constant implements an abstract method of its enum. -/
def implements (body : Option ClassId) (m : Method) : Bool :=
  ((body.bind t.get?).bind (·.method? m.name m.arity)).any (!·.isAbstract)

/-- What is wrong with one constant: a named argument, then the abstract methods that it leaves
open. -/
def constantProblemsAt (c : ClassDecl) (f : Field) : List Problem :=
  let named := (f.constantArgs.findSome? Expr.namedArgument?).toList.map
    (⟨.mapStyleInitializer c.name f.name, ·⟩)
  let missing := (c.methods.filter (·.isAbstract)).filter (!t.implements (t.constantBody? c.id f) ·)
  named ++ missing.map fun m => ⟨.abstractMethod f.name m.descriptor, f.span⟩

/-- What is wrong with the constants of an enum. -/
def constantProblems (c : ClassDecl) : List Problem :=
  c.enumConstants.flatMap (t.constantProblemsAt c)

/-- The enums of a unit in the order they are completed: bodies of constants before the enums. -/
def enumOrder : List ClassId :=
  let ofKind (kind : ClassKind) :=
    (t.classes.filter fun c => !c.builtin && c.kind = kind).map (·.id)
  ofKind .constantBody ++ ofKind .enum

end ClassTable

end Metaobject
