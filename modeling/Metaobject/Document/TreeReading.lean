import Metaobject.Document.Tree
import Metaobject.Tree.Build

/-!
# Reading trees from documents

The documents of `Expr.document` and its companions, read back. Types and classes are bound by a
class table. A call without a receiver is one on `this`, and no call has a dispatch marker yet. The
functions named `read` take fuel, which bounds the depth of the documents they read.
-/

namespace Metaobject

def BinaryOp.ofText (s : String) : Reading BinaryOp :=
  Json.found "operator" ([.add, .sub, .eq, .ne, .lt, .le, .gt, .ge].find? fun o => o.text == s)

def Json.asChar (j : Json) : Reading Char := do
  match (← j.asText).toList with
  | [c] => return c
  | _ => Json.expected "character"

/-- The literal of the given kind, if it is a kind of literals. -/
def Constant.ofDocument? (kind : String) (j : Json) : Reading (Option Constant) := do
  match kind with
  | "null" => return some null
  | "bool" => return some (bool (← j.flag "v"))
  | "char" => return some (char (← j.one "v" Json.asChar))
  | "int" => return some (int (Int32.ofInt (← j.orElse "v" Json.asInt 0)))
  | "long" => return some (long (Int64.ofInt (← j.orElse "v" Json.asLarge 0)))
  | "float" => return some (float (UInt32.ofNat (← j.orElse "v" Json.asLarge 0).toNat))
  | "double" => return some (double (UInt64.ofNat (← j.orElse "v" Json.asLarge 0).toNat))
  | "str" => return some (string (← j.text "v"))
  | _ => return none

section

variable (t : ClassTable)

def Binding.ofDocument (j : Json) : Reading Binding := do
  match j with
  | .string "param" => return parameter
  | .string "local" => return localVar
  | _ => return field (← j.one "owner" t.classOf) (← j.text "name")

def Capture.ofDocument (j : Json) : Reading Capture :=
  return ⟨← j.text "name", ← j.one "ty" (TypeRef.ofDocument t)⟩

def ConstructorKind.ofDocument (j : Json) : Reading ConstructorKind := do
  match ← j.text "kind" with
  | "new" => return new (← j.one "ty" (TypeRef.ofDocument t))
  | "super" => return super
  | "this" => return this
  | _ => Json.expected "kind of constructor call"

mutual

/-- An expression from its document. -/
def Expr.read : Nat → Json → Reading Expr
  | 0, _ => Json.expected "expression"
  | fuel + 1, j => do
    let s ← Span.ofEntry j
    let part (key : String) := j.one key (Expr.read fuel)
    let parts (key : String) := j.each key (Expr.read fuel)
    let kind ← j.text "k"
    match ← Constant.ofDocument? kind j, kind with
    | some v, _ => return .constant v s
    | none, "var" => return .var (← j.text "name") (← j.maybe "acc" (Binding.ofDocument t)) s
    | none, "prop" => return .property (← part "obj") (← j.text "name") s
    | none, "field" => return .field (← j.one "owner" t.classOf) (← j.text "name") s
    | none, "class" => return .classRef (← j.one "ty" (TypeRef.ofDocument t)) s
    | none, "closure" =>
      return .closure (← j.each "params" (Param.read fuel)) (← j.each "body" (Stmt.read fuel))
        (← j.each "captured" (Capture.ofDocument t)) s
    | none, "list" => return .list (← parts "els") s
    | none, "map" => return .map (← j.each "entries" (MapEntry.read fuel)) s
    | none, "entry" => return .entry (← MapEntry.read fuel j)
    | none, "anno" => return .annotationUse (← j.one "a" (AnnotationUse.read fuel))
    | none, "call" =>
      return .call (← j.orElse "obj" (Expr.read fuel) Expr.thisVar)
        (← j.one "name" (MethodName.read fuel))
        (← parts "args") (← j.flag "implicit") (← j.flag "safe")
          (← j.maybe "target" (MethodTarget.ofDocument t)) none s
    | none, "scall" =>
      let owner ← j.one "owner" t.classOf
      return .staticCall owner (← j.orElse "owner_name" Json.asText (t.typeRef owner).text)
        (← j.text "method")
        (← parts "args") none s
    | none, "ctor" => return .construct (← ConstructorKind.ofDocument t j) (← parts "args") none s
    | none, "bin" => return .binary (← BinaryOp.ofText (← j.text "op")) (← part "l") (← part "r") s
    | none, "tern" => return .ternary (← part "c") (← part "t") (← part "e") s
    | none, "index" => return .index (← part "obj") (← part "i") s
    | none, "spread" => return .spread (← part "e") s
    | none, "array" => return .array (← j.one "ty" (TypeRef.ofDocument t)) (← parts "els") s
    | none, "assign" => return .assign (← part "target") (← part "value") s
    | none, _ => Json.expected "kind of expression"

def MethodName.read : Nat → Json → Reading MethodName
  | _, .string n => return .named n
  | 0, _ => Json.expected "method name"
  | fuel + 1, j => return .computed (← j.one "dyn" (Expr.read fuel))

def MapEntry.read : Nat → Json → Reading MapEntry
  | 0, _ => Json.expected "map entry"
  | fuel + 1, j =>
    return ⟨← j.one "key" (Expr.read fuel), ← j.one "value" (Expr.read fuel), ← Span.ofEntry j⟩

/-- A statement from its document. -/
def Stmt.read : Nat → Json → Reading Stmt
  | 0, _ => Json.expected "statement"
  | fuel + 1, j => do
    let s ← Span.ofEntry j
    let part (key : String) := j.one key (Expr.read fuel)
    match ← j.text "k" with
    | "expr" => return .expr (← part "e")
    | "decl" =>
      return .declare (← j.text "name") (← j.one "ty" (TypeRef.ofDocument t))
        (← j.maybe "init" (Expr.read fuel)) s
    | "return" => return .ret (← j.maybe "v" (Expr.read fuel)) s
    | "if" =>
      let other ← j.maybe "else" fun b => do (← b.asItems).mapM (Stmt.read fuel)
      return .cond (← part "c") (← j.each "then" (Stmt.read fuel)) other s
    | "throw" => return .throw (← part "v") s
    | "block" => return .block (← j.each "b" (Stmt.read fuel))
    | _ => Json.expected "kind of statement"

def Param.read : Nat → Json → Reading Param
  | 0, _ => Json.expected "parameter"
  | fuel + 1, j =>
    return ⟨← j.text "name", ← j.one "ty" (TypeRef.ofDocument t),
      ← j.maybe "default" (Expr.read fuel),
      ← j.each "annos" (AnnotationUse.read fuel), ← Span.ofEntry j⟩

/-- An annotation usage from its document. A member that is given twice has its last value in its
first place. -/
def AnnotationUse.read : Nat → Json → Reading AnnotationUse
  | 0, _ => Json.expected "annotation"
  | fuel + 1, j => do
    let members ← j.each "members" fun m => do
      match ← m.asItems with
      | [name, value] => return (← name.asText, ← Expr.read fuel value)
      | _ => Json.expected "member"
    let bare : AnnotationUse :=
      ⟨← j.one "ty" (TypeRef.ofDocument t), [], ← j.flag "validated", ← Span.ofEntry j⟩
    return members.foldl (fun a (name, value) => a.setMember name value) bare

end

/-- Enough fuel to read a document: a node may read its own object once more. -/
def Json.fuel (j : Json) : Nat := 2 * j.depth

def Expr.ofDocument (j : Json) : Reading Expr := Expr.read t j.fuel j

def Stmt.ofDocument (j : Json) : Reading Stmt := Stmt.read t j.fuel j

def Block.ofDocument (j : Json) : Reading Block := do (← j.asItems).mapM (Stmt.ofDocument t)

def Param.ofDocument (j : Json) : Reading Param := Param.read t j.fuel j

def AnnotationUse.ofDocument (j : Json) : Reading AnnotationUse := AnnotationUse.read t j.fuel j

end

end Metaobject
