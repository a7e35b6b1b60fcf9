import Metaobject.Annotation.Validation

/-!
# Cycles among attribute defaults

The default of an annotation-typed attribute is itself an annotation, which may leave attributes to
their defaults. An annotation type must not come back to itself along such defaults. The search goes
through the defaults of one annotation type after another and never enters a type twice on one path.
-/

namespace Metaobject.ClassTable

variable (t : ClassTable)

/-- Problems of a default `start` for an attribute of type `type`, where a way back to `goal` is
looked for. -/
def cyclesFrom (goal : ClassId) : Nat → List ClassId → TypeRef → Expr → Except Fault (List Problem)
  | 0, _, _, _ => return []
  | fuel + 1, path, type, start =>
    match t.annotationId? type, start with
    | none, _ => return []
    | some expected, .annotationUse usage =>
      match (t.resolve usage.type).classId? with
      | none => return []
      | some current =>
        if current = goal then do return [⟨.circularReference (← t.get goal).name, usage.span⟩]
        else if current ≠ expected ∨ current ∈ path then return []
        else do
          let c ← t.get current
          let found ← c.methods.mapM fun m =>
            if (t.resolve m.returnType).classId? = some goal then
              return [⟨.circularReference c.name, usage.span⟩]
            else
              match m.default with
              | none => return []
              | some value => cyclesFrom goal fuel (current :: path) m.returnType value
          return found.flatten
    | some _, e => return [⟨.notAnnotationConstant e.text, e.span⟩]

/-- Ways back to `goal` from the default `start` of an attribute of type `type`. -/
def cycleProblems (goal : ClassId) (type : TypeRef) (start : Expr) : Except Fault (List Problem) :=
  t.cyclesFrom goal (t.size + 1) [] type start

/-- Ways back to an annotation type from the defaults of its own attributes. Other classes have
none. -/
def definitionProblems (id : ClassId) : Except Fault (List Problem) := do
  if t.isAnnotationType id then
    let c ← t.get id
    let found ← c.methods.mapM fun m =>
      match m.default with
      | none => return []
      | some value => t.cycleProblems id m.returnType value
    return found.flatten
  else return []

end Metaobject.ClassTable
