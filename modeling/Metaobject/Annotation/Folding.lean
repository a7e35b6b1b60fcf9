import Metaobject.ClassTable.Ancestors

/-!
# Folding of inline constants

In an annotation value, a reference to a static final field stands for the literal that the field
holds, if its initializer is a literal or refers in turn to such a field. Fields of enums are never
folded, and a field that leads back to itself has no value. A list is folded element by element;
nothing else is looked into.
-/

namespace Metaobject

namespace ClassTable

variable (t : ClassTable)

/-- The class and field name that an expression refers to, if it refers to a field at all. -/
def fieldReference? : Expr → Option (ClassId × String)
  | .property (.classRef type _) name _ => (t.resolve type).classId?.map (·, name)
  | .field owner name _ => some (owner, name)
  | .var _ (some (.field owner name)) _ => some (owner, name)
  | _ => none

/-- The literal that a field stands for, where the fields `visiting` are already being followed. -/
def fieldConstant? : Nat → List (ClassId × String) → ClassId × String → Option Constant
  | 0, _, _ => none
  | fuel + 1, visiting, (owner, name) =>
    if t.isEnum owner then none
    else
      match t.findField owner name with
      | none => none
      | some (declaring, f) =>
        if f.isStatic && f.isFinal && (declaring, name) ∉ visiting then
          match f.init with
          | none => none
          | some (.constant v _) => some v
          | some e =>
            (t.fieldReference? e).bind (fieldConstant? fuel ((declaring, name) :: visiting))
        else none

/-- The number of fields in the table, which bounds the length of a chain of references without
repetition. -/
def fieldCount : Nat := (t.classes.flatMap (·.fields)).length

/-- The literal that an expression refers to through fields. -/
def referredConstant? (e : Expr) : Option Constant :=
  (t.fieldReference? e).bind (t.fieldConstant? (t.fieldCount + 1) [])

mutual

/-- Replace references by the literals they stand for. A literal takes the span of its reference. -/
def fold : Expr → Expr
  | .list es s => .list (foldAll es) s
  | e =>
    match t.referredConstant? e with
    | some v => .constant v e.span
    | none => e

/-- Fold every element of a list. -/
def foldAll : List Expr → List Expr
  | [] => []
  | e :: es => fold e :: foldAll es

end

mutual

/-- Whether folding replaces anything. -/
def folds : Expr → Bool
  | .list es _ => foldsAny es
  | e => (t.referredConstant? e).isSome

/-- Whether folding replaces anything in one of the elements. -/
def foldsAny : List Expr → Bool
  | [] => false
  | e :: es => folds e || foldsAny es

end

end ClassTable

end Metaobject
