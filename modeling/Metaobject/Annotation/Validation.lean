import Metaobject.Annotation.Attribute
import Metaobject.Annotation.Folding
import Metaobject.Problem.Log

/-!
# Validation of annotation usages

A usage is checked once. Its type has to be an annotation type; every attribute without a default
needs a value; a constant that is named in an enum has to exist; and every value has to fit the type
of its attribute, after folding.

Checking also brings the values into normal form: references are folded, and a single value of an
array attribute is put into a list. The two sides are kept apart. `problems` finds what is wrong,
and `normalized` is the usage afterwards.
-/

namespace Metaobject

/-- A single value of an array type stands for the list that holds it, once for each array level. -/
def Expr.wrapped (e : Expr) : TypeRef → Expr
  | .array c => .list [e.wrapped c] e.span
  | _ => e

/-- The annotation type that a reference is bound to. -/
def ClassTable.annotationId? (t : ClassTable) (type : TypeRef) : Option ClassId :=
  (t.resolve type).classId?.filter t.isAnnotationType

/-- Attributes without a default that a usage gives no value for. -/
def ClassDecl.missingAttributes (c : ClassDecl) (members : List (String × Expr)) :
    List AttributeSite :=
  (c.methods.filter fun m => m.default.isNone && !members.any (·.1 == m.name)).map fun m =>
    ⟨c.name, m.name⟩

/-- The type that an annotation type declares for an attribute. -/
def ClassTable.attributeType? (t : ClassTable) (c : ClassDecl) (name : String) : Option TypeRef :=
  (c.method? name 0).map fun m => t.resolve m.returnType

/-- Fold a value, if folding is switched on. -/
def ClassTable.foldIf (t : ClassTable) (inline : Bool) (e : Expr) : Expr :=
  if inline then t.fold e else e

section

variable (t : ClassTable) (inline : Bool)

/-- The problem of a single value, placed at the value. -/
def ClassTable.scalarProblems (site : AttributeSite) (type : TypeRef) (value : Expr) :
    Except Fault (List Problem) := do
  return (← t.scalarCause site type value).toList.map (⟨·, value.span⟩)

mutual

/-- What is wrong with an attribute value. -/
def Expr.attributeProblems (site : AttributeSite) (type : TypeRef) :
    Expr → Except Fault (List Problem)
  | .list es s =>
    match type with
    | .array c => Expr.attributeProblemsAll site c es
    | _ => t.scalarProblems site type (.list es s)
  | .closure ps body cs s =>
    if type.isArray then return [⟨.closureInList site.name, s⟩]
    else t.scalarProblems site type (.closure ps body cs s)
  | .annotationUse a =>
    match t.attributeSort type.base with
    | .annotationUse id =>
      if (t.resolve a.type).classId? = some id then a.problems
      else t.scalarProblems site type.base (.annotationUse a)
    | _ => t.scalarProblems site type.base (.annotationUse a)
  | e => t.scalarProblems site type.base (t.foldIf inline e)

/-- What is wrong with the elements of a list, all of one type. -/
def Expr.attributeProblemsAll (site : AttributeSite) (type : TypeRef) :
    List Expr → Except Fault (List Problem)
  | [] => return []
  | e :: es =>
    return (← e.attributeProblems site type) ++ (← Expr.attributeProblemsAll site type es)

/-- What is wrong with a usage; nothing, if it has been checked before. -/
def AnnotationUse.problems : AnnotationUse → Except Fault (List Problem)
  | ⟨type, members, validated, span⟩ =>
    if validated then return []
    else
      match t.annotationId? type with
      | none => return [⟨.notAnAnnotationType type.text, span⟩]
      | some id => do
        let c ← t.get id
        let missing := (c.missingAttributes members).map fun site => ⟨.missingAttribute site, span⟩
        let unknown ← t.unknownConstantsAll (members.map (·.2))
        return missing ++ unknown ++ (← AnnotationUse.memberProblems type.text c members)

/-- What is wrong with the members of a usage, one after the other. -/
def AnnotationUse.memberProblems (owner : String) (c : ClassDecl) :
    List (String × Expr) → Except Fault (List Problem)
  | [] => return []
  | (name, value) :: rest => do
    let found ← match t.attributeType? c name with
      | none => pure [⟨.unknownAttribute ⟨owner, name⟩, value.span⟩]
      | some type => value.attributeProblems ⟨owner, name⟩ type
    return found ++ (← AnnotationUse.memberProblems owner c rest)

end

mutual

/-- An attribute value in normal form. -/
def Expr.normalizedAt (type : TypeRef) : Expr → Expr
  | .list es s =>
    match type with
    | .array c => .list (Expr.normalizedAllAt c es) s
    | _ => t.foldIf inline (.list es s)
  | .closure ps body cs s => .closure ps body cs s
  | .annotationUse a =>
    match t.attributeSort type.base with
    | .annotationUse id =>
      (if (t.resolve a.type).classId? = some id then Expr.annotationUse a.normalized
        else .annotationUse a).wrapped type
    | _ => Expr.wrapped (.annotationUse a) type
  | e => (t.foldIf inline e).wrapped type

/-- The elements of a list in normal form, all of one type. -/
def Expr.normalizedAllAt (type : TypeRef) : List Expr → List Expr
  | [] => []
  | e :: es => e.normalizedAt type :: Expr.normalizedAllAt type es

/-- The usage after it has been checked. -/
def AnnotationUse.normalized : AnnotationUse → AnnotationUse
  | ⟨type, members, validated, span⟩ =>
    if validated then ⟨type, members, validated, span⟩
    else
      match (t.annotationId? type).bind t.get? with
      | none => ⟨type, members, true, span⟩
      | some c => ⟨type, AnnotationUse.normalizedMembers c members, true, span⟩

/-- The members of a usage in normal form; unknown ones stay as they are. -/
def AnnotationUse.normalizedMembers (c : ClassDecl) : List (String × Expr) → List (String × Expr)
  | [] => []
  | (name, value) :: rest =>
    let value' := match t.attributeType? c name with
      | none => value
      | some type => value.normalizedAt type
    (name, value') :: AnnotationUse.normalizedMembers c rest

end

/-- Check a usage and write its problems into the log. -/
def AnnotationUse.validate (a : AnnotationUse) (log : ProblemLog) :
    Except Fault (AnnotationUse × ProblemLog) := do
  return (a.normalized t inline, log.addAll (← a.problems t inline))

/-- Check a usage as `validate` does, and answer whether the log is as long as before. -/
def AnnotationUse.judge (a : AnnotationUse) (log : ProblemLog) :
    Except Fault (Bool × AnnotationUse × ProblemLog) := do
  let checked ← a.validate t inline log
  return (checked.2.size == log.size, checked)

end

end Metaobject
