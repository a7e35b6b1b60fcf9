import Metaobject.Problem.Log

/-!
# Diagnostics

A diagnostic is a message for a person or an editor: how bad it is, what is wrong, where, and what
may help. Every problem has one.
-/

namespace Metaobject

inductive Severity where
  | error
  | warning
  | note
  | help
  | bug
deriving DecidableEq, Repr

/-- The word for a severity. -/
def Severity.text : Severity → String
  | error => "error"
  | warning => "warning"
  | note => "note"
  | help => "help"
  | bug => "bug"

/-- A marked place in a source file, with what is to be said about it. -/
structure Label where
  /-- The number of the file. -/
  file : Nat
  span : Span
  message : String
deriving DecidableEq, Repr

/-- A message with its places and notes. -/
structure Diagnostic where
  severity : Severity
  message : String
  code : Option String := none
  labels : List Label := []
  notes : List String := []
deriving DecidableEq, Repr

/-- A note that suggests what to do. -/
def Diagnostic.helpNote (text : String) : String := "help: " ++ text

namespace Cause

/-- What is said at the place of a problem. -/
def label : Cause → String
  | notAnAnnotationType _ => "not an annotation type"
  | missingAttribute _ => "missing attribute value"
  | unknownEnumConstant .. => "unknown enum constant"
  | unknownAttribute _ => "unknown attribute"
  | attributeTypeMismatch _ expected found => s!"expected '{expected}', found '{found}'"
  | notInlineConstant .. => "not a constant"
  | closureInList _ => "closure in list position"
  | classOrClosureExpected _ => "expected a class or closure literal"
  | enumExpected .. => "expected an enum constant"
  | enumTypeMismatch _ expected found => s!"expected '{expected}', found '{found}'"
  | annotationExpected _ expected => s!"expected @{expected}"
  | unexpectedAttributeType .. => "unsupported attribute type"
  | notAnnotationConstant _ => "expected an annotation constant"
  | circularReference _ => "cycle starts here"
  | mapStyleInitializer .. => "named arguments are not supported here"
  | abstractMethod .. => "missing implementation"

/-- What is said below the place of a problem. -/
def notes : Cause → List String
  | missingAttribute ⟨_, name⟩ =>
    [Diagnostic.helpNote s!"supply a value for '{name}' or declare a default"]
  | unknownEnumConstant enum _ => [s!"'{enum}' declares no constant with this name"]
  | notInlineConstant .. =>
    [Diagnostic.helpNote
      "only literals and static final fields with literal initializers are inlined"]
  | closureInList _ => [Diagnostic.helpNote "wrap the closure in a list: [\x7b -> ... \x7d]"]
  | circularReference _ =>
    ["annotation attribute defaults may not reference their own annotation type"]
  | mapStyleInitializer .. =>
    [Diagnostic.helpNote "pass the values positionally and declare a matching constructor"]
  | _ => []

end Cause

/-- The diagnostic of a problem in the file with this number. -/
def Problem.diagnostic (p : Problem) (file : Nat) : Diagnostic where
  severity := .error
  message := p.cause.message
  code := some p.cause.code
  labels := [⟨file, p.span, p.cause.label⟩]
  notes := p.cause.notes

/-- The diagnostics of the recorded problems, in order. -/
def ProblemLog.diagnostics (log : ProblemLog) (file : Nat) : List Diagnostic :=
  log.recorded.map (·.diagnostic file)

end Metaobject
