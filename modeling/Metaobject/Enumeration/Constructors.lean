import Metaobject.ClassTable.Builtin
import Metaobject.FreshName
import Metaobject.Tree.Build
import Metaobject.Tree.Visit

/-!
# Constructors of enums

The base class of enums wants the name and the ordinal of every constant. Each constructor of an
enum takes them as two hidden parameters in front, and hands them on to the constructor it calls
first. An enum without constructors gets one that takes a map and one that takes nothing; the body
of a constant repeats the constructors of its enum.
-/

namespace Metaobject

namespace Enumeration

/-! ## Hidden parameters -/

/-- Names for the hidden parameters of a constructor that occur nowhere in it. -/
def hiddenNames (k : Constructor) : String × String :=
  let taken := Block.variableNames k.body ++ k.params.map (·.name)
  let name := freshName taken "__str"
  (name, freshName (taken ++ [name]) "__int")

/-- The body of a constructor that hands on the hidden parameters: to the `this(...)` call it starts
with, or else to the base class. With `forward`, its own parameters are handed on too. -/
def passHidden (hidden : List Expr) (forward : List Expr) : Block → Block
  | .expr (.construct .this args d s) :: rest =>
    .expr (.construct .this (hidden ++ args) d s) :: rest
  | body => .expr (.superCall (hidden ++ forward)) :: body

/-- Put the hidden parameters in front. A constructor that starts with `super(...)` is left alone,
and so is one that has them already. -/
def addHidden (forward : Bool) (k : Constructor) : Constructor :=
  if k.hiddenParams || (k.body.head?.bind Stmt.expr?).any Expr.isSuperConstruct then k
  else
    let (name, ordinal) := hiddenNames k
    let own := if forward then k.params.map fun p => Expr.param p.name else []
    { k with
      params := .plain name Builtin.stringType :: .plain ordinal Builtin.intType :: k.params
      body := passHidden [.param name, .param ordinal] own k.body
      hiddenParams := true }

/-! ## Default constructors -/

private def namedArgs : String := "__namedArgs"

private def mapParam : Param := .plain namedArgs (.resolved Builtin.map "Map")

private def plainConstructor (modifiers : Modifiers) (params : List Param) (body : Block) :
    Constructor :=
  ⟨modifiers, params, body, false, [], .synthetic⟩

/-- What a constant that was given a null map is told. -/
def nullMessage (enumName : String) : String :=
  s!"One of the enum constants for enum {enumName} was initialized with null. "
    ++ "Please use a non-null value or define your own constructor."

/-- The constructors of an enum that declares none: one that takes a map and rejects null, one that
passes an empty map to it. -/
def enumConstructors (enumName : String) : List Constructor :=
  let reject : Stmt := .throwing
    (.newInstance (.resolved Builtin.illegalArgument "IllegalArgumentException")
      [.string (nullMessage enumName)])
  [plainConstructor .privateOnly [mapParam] [.onlyIf (.op .eq (.param namedArgs) .null) [reject]],
    plainConstructor .privateOnly [] [.expr (.thisCall [.emptyMap])]]

/-- The constructors of a body whose enum declares none. -/
def bodyConstructors : List Constructor :=
  [plainConstructor .publicOnly [mapParam] [], plainConstructor .publicOnly [] []]

/-- A constructor of a body with the parameters of a constructor of its enum, the hidden ones
apart. -/
def repeated (k : Constructor) : Constructor :=
  plainConstructor .publicOnly (if k.hiddenParams then k.params.drop 2 else k.params) []

/-- The constructors that a class without any gets. -/
def defaultConstructors (t : ClassTable) (c : ClassDecl) : List Constructor :=
  if c.kind = .constantBody then
    match (c.superId?.bind t.get?).map (·.constructors) with
    | none | some [] => bodyConstructors
    | some ks => ks.map repeated
  else enumConstructors c.name

/-- An enum or a body of a constant with its constructors complete. -/
def completeConstructors (t : ClassTable) (c : ClassDecl) : ClassDecl :=
  let ks := if c.constructors.isEmpty then defaultConstructors t c else c.constructors
  { c with constructors := ks.map (addHidden (c.kind = .constantBody)) }

end Enumeration

/-- Complete the constructors of a class; classes that are no enum of the source stay as they
are. -/
def ClassTable.completeConstructors (t : ClassTable) (id : ClassId) : Except Fault ClassTable := do
  let c ← t.get id
  if !c.isEnum || c.builtin then return t
  else return t.set id (Enumeration.completeConstructors t c)

end Metaobject
