import Metaobject.ClassTable.Builtin
import Metaobject.Text.Basic
import Metaobject.Tree.Build

/-!
# Closure classes

A closure expression becomes a class of its own, inside the class it stands in. The variables it
takes from around it are passed to the constructor and kept in private fields, each with an
accessor, and its body becomes the method `doCall`.
-/

namespace Metaobject

/-- A closure expression. -/
structure Closure where
  params : List Param
  body : Block
  captured : List Capture
  span : Span

/-- The closure that an expression is, if it is one. -/
def Expr.closure? : Expr → Option Closure
  | .closure params body captured span => some ⟨params, body, captured, span⟩
  | _ => none

/-- How many closures have been numbered so far, per enclosing class. -/
abbrev ClosureCounters := List (ClassId × Nat)

namespace ClosureClass

/-! ## Names -/

/-- The name of the closure class with this number. -/
def numberedName (outer method : String) (number : Nat) : String :=
  s!"{outer}$_{method}_closure{number}"

/-- The first number after `last` whose name the table does not know, after at most `fuel` steps. -/
def nextNumber (t : ClassTable) (outer method : String) : Nat → Nat → Nat
  | 0, last => last + 1
  | fuel + 1, last =>
    if (t.lookup (numberedName outer method (last + 1))).isSome
      then nextNumber t outer method fuel (last + 1)
    else last + 1

/-- The name of the accessor of a captured variable. -/
def accessorName (name : String) : String := "get" ++ Text.capitalize name

/-! ## Members -/

private def outerInstance : String := "_outerInstance"

private def thisObject : String := "_thisObject"

/-- The field that keeps a captured variable. -/
def captureField (v : Capture) : Field := ⟨v.name, .privateOnly, v.type, none, [], .synthetic⟩

/-- The method that reads a captured variable. -/
def accessor (id : ClassId) (v : Capture) : Method where
  name := accessorName v.name
  modifiers := .publicOnly
  returnType := v.type
  body := some [.returning (.fieldOf id v.name)]

/-- The constructor stores the captured variables after it has passed on the two objects every
closure has. -/
def constructor (id : ClassId) (captured : List Capture) : Constructor where
  modifiers := .publicOnly
  params := .plain outerInstance Builtin.objectType :: .plain thisObject Builtin.objectType
    :: captured.map fun v => .plain v.name v.type
  body := .expr (.superCall [.param outerInstance, .param thisObject])
    :: captured.map fun v => .expr (.set (.fieldOf id v.name) (.param v.name))

/-- The parameters of a closure; one that declares none has the parameter `it`, which may be left
out. -/
def callParams (params : List Param) : List Param :=
  if params.isEmpty then [⟨"it", Builtin.objectType, some .null, [], .synthetic⟩] else params

/-- The method that holds the body of the closure. -/
def callMethod (closure : Closure) : Method where
  name := "doCall"
  modifiers := .publicOnly
  returnType := Builtin.objectType
  params := callParams closure.params
  body := some closure.body

/-- The class of a closure, which has the number `id` and stands in the class `outer`. -/
def declaration (id outer : ClassId) (name : String) (closure : Closure) : ClassDecl :=
  { ClassDecl.empty name .ordinary with
    superclass := some (.resolved Builtin.closure "Closure")
    modifiers := { isPublic := true, isFinal := true, isSynthetic := true }
    fields := closure.captured.map captureField
    methods := closure.captured.map (accessor id) ++ [callMethod closure]
    constructors := [constructor id closure.captured]
    outer := some outer
    span := closure.span }

end ClosureClass

/-- Add the class of a closure that stands in a method of `outer`. It gets the next free number of
that class. -/
def ClassTable.addClosureClass (t : ClassTable) (counters : ClosureCounters) (outer : ClassId)
    (method : String) (closure : Closure) : Except Fault (ClassTable × ClosureCounters) := do
  let outerName := (← t.get outer).name
  let last := (counters.lookup outer).getD 0
  let number := ClosureClass.nextNumber t outerName method t.size last
  let name := ClosureClass.numberedName outerName method number
  let c := ClosureClass.declaration t.size outer name closure
  return (t.add c, (outer, number) :: counters.filter (·.1 != outer))

end Metaobject
