import Metaobject.ClassTable.Builtin
import Metaobject.ClassTable.Ancestors
import Metaobject.Problem.Basic
import Metaobject.Tree.Printer

/-!
# Attribute values

The type of an attribute is simple (a primitive, its wrapper or the string class), the class of
class objects, an enum, an annotation type, or an array of these. What a single value has to be is
decided by the sort of the type below the array brackets.
-/

namespace Metaobject

/-- What kind of value an attribute takes. -/
inductive AttributeSort where
  /-- A literal of a primitive, wrapper or string type. -/
  | simple (type : ClassId)
  /-- A class literal or a closure. -/
  | classLiteral
  /-- A constant of an enum. -/
  | enum (type : ClassId)
  /-- A usage of an annotation type. -/
  | annotationUse (type : ClassId)
  /-- No value is right. -/
  | unsupported
deriving DecidableEq, Repr

namespace ClassTable

variable (t : ClassTable)

/-- The sort of a type that is not an array. -/
def attributeSort : TypeRef → AttributeSort
  | .resolved id _ =>
    if t.isSimple id then .simple id
    else if id = Builtin.classObject then .classLiteral
    else if t.isEnum id || t.isDerivedFrom id Builtin.enumBase then .enum id
    else if t.isAnnotationType id then .annotationUse id
    else .unsupported
  | _ => .unsupported

/-- What is wrong with a value of a simple type: it has to be a literal that boxes to the right
class. -/
def simpleCause (site : AttributeSite) (type : ClassId) : Expr → Except Fault (Option Cause)
  | .constant v _ => do
    let expected := Builtin.wrapperOf type
    match Builtin.constantClass v with
    | none => return some (.attributeTypeMismatch site (← t.get expected).name "null")
    | some found =>
      if t.isDerivedFrom found expected then return none
      else return some (.attributeTypeMismatch site (← t.get expected).name (← t.get found).name)
  | .field _ name _ => return some (.notInlineConstant site (← t.get type).name (.field name))
  | .property object name span =>
    return some
      (.notInlineConstant site (← t.get type).name
      (.property (Expr.property object name span).text))
  | _ => return some (.notInlineConstant site (← t.get type).name .other)

/-- The class that a value names a constant of. -/
def enumOwner? : Expr → Option ClassId
  | .property (.classRef type _) _ _ => (t.resolve type).classId?
  | .field owner _ _ => some owner
  | _ => none

/-- What is wrong with a value of an enum type: it has to name a constant of a class that derives
from the enum. -/
def enumCause (site : AttributeSite) (type : ClassId) (value : Expr) :
    Except Fault (Option Cause) := do
  match t.enumOwner? value with
  | none => return some (.enumExpected site (← t.get type).name)
  | some owner =>
    if t.isDerivedFrom owner type then return none
    else return some (.enumTypeMismatch site (← t.get type).name (← t.get owner).name)

/-- What is wrong with a value of a class type: it has to be a class literal or a closure. -/
def classLiteralCause (site : AttributeSite) : Expr → Option Cause
  | .classRef .. | .closure .. => none
  | _ => some (.classOrClosureExpected site)

/-- What is wrong with a value that is no usage of the wanted annotation type. -/
def scalarCause (site : AttributeSite) (type : TypeRef) (value : Expr) :
    Except Fault (Option Cause) := do
  match t.attributeSort type with
  | .simple id => t.simpleCause site id value
  | .classLiteral => return classLiteralCause site value
  | .enum id => t.enumCause site id value
  | .annotationUse id => return some (.annotationExpected site (← t.get id).name)
  | .unsupported => return some (.unexpectedAttributeType site type.text)

mutual

/-- Properties of enum class literals that name no constant of the enum, in an attribute value. -/
def unknownConstants : Expr → Except Fault (List Problem)
  | .list es _ => unknownConstantsAll es
  | .property (.classRef type _) name span =>
    match (t.resolve type).classId? with
    | none => return []
    | some id => do
      let c ← t.get id
      if c.isEnum && !c.enumConstants.any (·.name == name) then
        return [⟨.unknownEnumConstant c.name name, span⟩]
      else return []
  | _ => return []

/-- The same for the elements of a list. -/
def unknownConstantsAll : List Expr → Except Fault (List Problem)
  | [] => return []
  | e :: es => return (← unknownConstants e) ++ (← unknownConstantsAll es)

end

end ClassTable

end Metaobject
