import Metaobject.Source

/-!
# Problems

What the passes find wrong with a unit. A problem is a cause at a place; the cause fixes its message
and its code. Codes `E4...` are about annotations, codes `E5...` about enums.
-/

namespace Metaobject

/-- An attribute of an annotation usage, as messages name it. -/
structure AttributeSite where
  /-- The annotation type, as the usage writes it. -/
  owner : String
  name : String
deriving DecidableEq, Repr

/-- What stands where a constant was expected. -/
inductive NonConstant where
  /-- A property `Owner.NAME`, given by its text. -/
  | property (text : String)
  /-- A direct field reference, given by the name of the field. -/
  | field (name : String)
  | other
deriving DecidableEq, Repr

/-- What is wrong. -/
inductive Cause where
  | notAnAnnotationType (name : String)
  | missingAttribute (site : AttributeSite)
  | unknownEnumConstant (enum constant : String)
  | unknownAttribute (site : AttributeSite)
  | attributeTypeMismatch (site : AttributeSite) (expected found : String)
  | notInlineConstant (site : AttributeSite) (expected : String) (found : NonConstant)
  | closureInList (name : String)
  | classOrClosureExpected (site : AttributeSite)
  | enumExpected (site : AttributeSite) (expected : String)
  | enumTypeMismatch (site : AttributeSite) (expected found : String)
  | annotationExpected (site : AttributeSite) (expected : String)
  | unexpectedAttributeType (site : AttributeSite) (type : String)
  | notAnnotationConstant (found : String)
  | circularReference (owner : String)
  | mapStyleInitializer (enum constant : String)
  | abstractMethod (constant method : String)
deriving DecidableEq, Repr

namespace Cause

/-- The wording of a problem. -/
def message : Cause → String
  | notAnAnnotationType name => s!"{name} is not an annotation"
  | missingAttribute ⟨owner, name⟩ =>
    s!"No explicit/default value found for annotation attribute '{name}' in @{owner}"
  | unknownEnumConstant enum constant => s!"No enum const {enum}.{constant}"
  | unknownAttribute ⟨owner, name⟩ => s!"'{name}' is not part of the annotation {owner}"
  | attributeTypeMismatch ⟨owner, name⟩ expected found =>
    s!"Attribute '{name}' should have type '{expected}'; but found type '{found}' in @{owner}"
  | notInlineConstant ⟨owner, _⟩ expected (.property text) =>
    s!"Expected '{text}' to be an inline constant of type {expected} " ++
      s!"not a property expression in @{owner}"
  | notInlineConstant ⟨owner, _⟩ expected (.field name) =>
    s!"Expected '{name}' to be an inline constant of type {expected} " ++
      s!"not a field expression in @{owner}"
  | notInlineConstant ⟨owner, _⟩ expected .other =>
    s!"Expected an inline constant expression of type {expected} in @{owner}"
  | closureInList name =>
    s!"Annotation list attributes must use list notation [el1, el2]; found a closure for '{name}'"
  | classOrClosureExpected ⟨owner, name⟩ =>
    s!"Only classes and closures can be used for attribute '{name}' in @{owner}"
  | enumExpected ⟨owner, name⟩ expected =>
    s!"Expected enum value for attribute '{name}' of type {expected} in @{owner}"
  | enumTypeMismatch ⟨owner, name⟩ expected found =>
    s!"Attribute '{name}' should have type '{expected}' (Enum); " ++
      s!"but found type '{found}' in @{owner}"
  | annotationExpected ⟨owner, name⟩ expected =>
    s!"Expected annotation of type '{expected}' for attribute '{name}' in @{owner}"
  | unexpectedAttributeType ⟨owner, name⟩ type =>
    s!"Unexpected type {type} for attribute '{name}' in @{owner}"
  | notAnnotationConstant found => s!"Found '{found}' when expecting an annotation constant"
  | circularReference owner => s!"Circular reference discovered in {owner}"
  | mapStyleInitializer enum constant =>
    s!"Map-style initializer is not supported for enum constant {enum}.{constant}"
  | abstractMethod constant method =>
    s!"Can't have an abstract method in enum constant {constant}. Implement method '{method}'."

/-- The stable code of a problem. -/
def code : Cause → String
  | notAnAnnotationType .. => "E4001"
  | missingAttribute .. => "E4002"
  | unknownEnumConstant .. => "E4003"
  | unknownAttribute .. => "E4004"
  | attributeTypeMismatch .. => "E4005"
  | notInlineConstant .. => "E4006"
  | closureInList .. => "E4007"
  | classOrClosureExpected .. => "E4008"
  | enumExpected .. => "E4009"
  | enumTypeMismatch .. => "E4010"
  | annotationExpected .. => "E4011"
  | unexpectedAttributeType .. => "E4012"
  | notAnnotationConstant .. => "E4013"
  | circularReference .. => "E4014"
  | mapStyleInitializer .. => "E5001"
  | abstractMethod .. => "E5002"

end Cause

/-- A cause at a place in the source. -/
structure Problem where
  cause : Cause
  span : Span
deriving DecidableEq, Repr

end Metaobject
