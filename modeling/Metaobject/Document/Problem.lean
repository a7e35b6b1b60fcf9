import Metaobject.Document.Basic
import Metaobject.Problem.Log

/-!
# Documents of problems

A problem is written with its code, the word for its kind of cause, its message and its span. It is
read from the word, the span and the texts that the cause carries; missing texts are empty.
-/

namespace Metaobject

namespace Cause

/-- The word for a kind of cause. -/
def kindWord : Cause → String
  | notAnAnnotationType .. => "NotAnAnnotation"
  | missingAttribute .. => "MissingAttribute"
  | unknownEnumConstant .. => "InvalidEnumConstant"
  | unknownAttribute .. => "UnknownAttribute"
  | attributeTypeMismatch .. => "AttributeTypeMismatch"
  | notInlineConstant .. => "NotInlineConstant"
  | closureInList .. => "ClosureNotAllowedInList"
  | classOrClosureExpected .. => "ClassOrClosureExpected"
  | enumExpected .. => "EnumExpected"
  | enumTypeMismatch .. => "EnumTypeMismatch"
  | annotationExpected .. => "AnnotationExpected"
  | unexpectedAttributeType .. => "UnexpectedAttributeType"
  | notAnnotationConstant .. => "NotAnnotationConstant"
  | circularReference .. => "CircularReference"
  | mapStyleInitializer .. => "UnsupportedEnumInitializer"
  | abstractMethod .. => "AbstractMethodNotImplemented"

/-- What stands where a constant was expected. -/
def nonConstantOf (j : Json) : Reading NonConstant := do
  let text ← j.text "text"
  match ← j.text? "const_kind" with
  | some "property" => return .property text
  | some "field" => return .field text
  | _ => return .other

def ofDocument (j : Json) : Reading Cause := do
  let site : AttributeSite := ⟨← j.text "annotation", ← j.text "attribute"⟩
  let enum ← j.text "enum_name"
  let constant ← j.text "constant"
  let expected ← j.text "expected"
  let found ← j.text "found"
  match ← j.text "kind" with
  | "NotAnAnnotation" => return notAnAnnotationType (← j.text "name")
  | "MissingAttribute" => return missingAttribute site
  | "InvalidEnumConstant" => return unknownEnumConstant enum constant
  | "UnknownAttribute" => return unknownAttribute site
  | "AttributeTypeMismatch" => return attributeTypeMismatch site expected found
  | "NotInlineConstant" => return notInlineConstant site expected (← nonConstantOf j)
  | "ClosureNotAllowedInList" => return closureInList site.name
  | "ClassOrClosureExpected" => return classOrClosureExpected site
  | "EnumExpected" => return enumExpected site expected
  | "EnumTypeMismatch" => return enumTypeMismatch site expected found
  | "AnnotationExpected" => return annotationExpected site expected
  | "UnexpectedAttributeType" => return unexpectedAttributeType site (← j.text "ty")
  | "NotAnnotationConstant" => return notAnnotationConstant found
  | "CircularReference" => return circularReference site.owner
  | "UnsupportedEnumInitializer" => return mapStyleInitializer enum constant
  | "AbstractMethodNotImplemented" => return abstractMethod constant (← j.text "method")
  | _ => Json.expected "kind of problem"

end Cause

namespace Problem

def document (p : Problem) : Json :=
  .object [
    ("code", .string p.cause.code),
    ("kind", .string p.cause.kindWord),
    ("msg", .string p.cause.message),
    ("s", p.span.document)]

def ofDocument (j : Json) : Reading Problem := return ⟨← Cause.ofDocument j, ← Span.ofEntry j⟩

end Problem

end Metaobject
