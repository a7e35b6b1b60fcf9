import Metaobject.ClassTable.Builtin
import Metaobject.Enumeration.Constants
import Metaobject.Tree.Build

/-!
# Members of enums

An enum gets the array of its constants, markers for the first and the last one, the methods
`values`, `next`, `previous` and `valueOf`, the construction method `$INIT`, and a static
initializer that builds the constants. Members that the source declares are left alone. An enum that
has its array is complete; the body of a constant only needs `$INIT`.
-/

namespace Metaobject

namespace Enumeration

/-! ## Names -/

def valuesField : String := "$VALUES"

def minField : String := "MIN_VALUE"

def maxField : String := "MAX_VALUE"

def initMethod : String := "$INIT"

/-! ## Members -/

/-- The array of constants, and the markers of the first and the last one if there are any
constants. -/
def addFields (hasConstants : Bool) (self : TypeRef) (c : ClassDecl) : ClassDecl :=
  let values : Field :=
    ⟨valuesField, { Modifiers.privateStaticFinal with isSynthetic := true }, .array self, none, [],
      .synthetic⟩
  let markers := if hasConstants then [minField, maxField] else []
  let c := c.addField values
  let missing := markers.filter fun name => (c.field? name).isNone
  { c with
    fields := c.fields ++ missing.map fun name =>
      ⟨name, .publicStaticFinal, self, none, [], .synthetic⟩ }

private def publicStatic : Modifiers where
  isPublic := true
  isStatic := true

/-- A method that moves the ordinal by one and goes round at the end. -/
private def stepMethod (name : String) (self : TypeRef) (step : BinaryOp) (outside : Expr)
    (back : Expr) (values : Expr) : Method where
  name
  modifiers := .publicOnly
  returnType := self
  body := some [
    .declareAs "ordinal" Builtin.intType (.op step (.callThis "ordinal" []) (.int 1)),
    .onlyIf outside [.expr (.set (.name "ordinal") back)],
    .returning (.item values (.name "ordinal"))]

/-- The methods `values`, `next`, `previous` and `valueOf` of the enum with this number and type. -/
def companions (id : ClassId) (self : TypeRef) : List Method :=
  let values : Expr := .fieldOf id valuesField
  let length : Expr := .prop values "length"
  let ordinal : Expr := .name "ordinal"
  [ { name := "values", modifiers := publicStatic, returnType := .array self,
      body := some [.returning (.callOn values "clone" [])] },
    stepMethod "next" self .add (.op .ge ordinal length) (.int 0) values,
    stepMethod "previous" self .sub (.op .lt ordinal (.int 0)) (.op .sub length (.int 1)) values,
    { name := "valueOf", modifiers := publicStatic, returnType := self,
      params := [.plain "name" Builtin.stringType],
      body := some [.returning
        (.callStatic Builtin.enumBase "Enum" "valueOf" [.literal self, .param "name"])] } ]

/-- Add the companion methods that the class does not declare itself. -/
def addCompanions (id : ClassId) (self : TypeRef) (c : ClassDecl) : ClassDecl :=
  { c with
    methods := c.methods ++ (companions id self).filter fun m => !c.hasMethod m.name m.arity }

/-- Add `$INIT`, through which all constants are constructed, unless the class has one. -/
def addInit (self : TypeRef) (isFinal : Bool) (c : ClassDecl) : ClassDecl :=
  if c.hasMethod initMethod 1 then c
  else c.addMethod {
    name := initMethod
    modifiers :=
      { isPublic := true, isStatic := true, isSynthetic := true, isVarargs := true, isFinal }
    returnType := self
    params := [.plain "para" (.array Builtin.objectType)]
    body := some [.returning (.thisCall [.spreadOf (.param "para")])] }

/-! ## Static initializer -/

private def store (id : ClassId) (name : String) (value : Expr) : Stmt :=
  .expr (.set (.fieldOf id name) value)

/-- Build every constant through `$INIT` of its class. -/
def constructions (t : ClassTable) (id : ClassId) (planned : List PlannedConstant) : List Stmt :=
  planned.map fun p =>
    store id p.name (.callStatic p.owner (t.typeRef p.owner).text initMethod
      (.string p.name :: .int p.ordinal :: p.args))

/-- Set the markers of the first and the last constant. -/
def markerStores (id : ClassId) (planned : List PlannedConstant) : List Stmt :=
  match planned.head?, planned.getLast? with
  | some first, some last =>
    [store id minField (.fieldOf id first.name), store id maxField (.fieldOf id last.name)]
  | _, _ => []

/-- Fill the array of constants. -/
def arrayStore (id : ClassId) (self : TypeRef) (planned : List PlannedConstant) : Stmt :=
  store id valuesField (.arrayOf self (planned.map fun p => .fieldOf id p.name))

/-- Put the construction of the constants before the static initializer of the source. -/
def addStaticInit (t : ClassTable) (id : ClassId) (self : TypeRef) (planned : List PlannedConstant)
    (c : ClassDecl) : ClassDecl :=
  { c with staticInit :=
      constructions t id planned ++ markerStores id planned ++ arrayStore id self planned ::
        c.staticInit }

/-! ## The whole enum -/

/-- An enum that may be specialized is not final, and one with abstract methods is abstract. -/
def openModifiers (hasBodies hasAbstract : Bool) (m : Modifiers) : Modifiers :=
  { m with
    isFinal := m.isFinal && !(hasBodies || hasAbstract)
    isAbstract := m.isAbstract || hasAbstract }

/-- The constants are built by the static initializer, so their own initializers go. -/
def dropInitializers (c : ClassDecl) : ClassDecl :=
  { c with fields := c.fields.map fun f => if f.isEnumConstant then { f with init := none } else f }

/-- An enum with all its members. -/
def complete (t : ClassTable) (id : ClassId) (c : ClassDecl) : ClassDecl :=
  let self := t.typeRef id
  let planned := t.plannedConstants c
  let hasBodies := t.hasConstantBodies c
  let hasAbstract := c.methods.any (·.isAbstract)
  let c := addStaticInit t id self planned
    (addInit self (!hasBodies) (addCompanions id self (addFields (!planned.isEmpty) self c)))
  dropInitializers { c with modifiers := openModifiers hasBodies hasAbstract c.modifiers }

end Enumeration

/-- Give a class its enum members; classes that are no enum of the source stay as they are. -/
def ClassTable.addEnumMembers (t : ClassTable) (id : ClassId) :
    Except Fault (ClassTable × List Problem) := do
  let c ← t.get id
  if !c.isEnum || c.builtin then return (t, [])
  else if c.isUnscopedBody then return (t.set id (Enumeration.addInit (t.typeRef id) true c), [])
  else if (c.field? Enumeration.valuesField).isSome then return (t, [])
  else return (t.set id (Enumeration.complete t id c), t.constantProblems c)

end Metaobject
