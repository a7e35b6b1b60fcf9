import Metaobject.Document.TreeReading

/-!
# Documents of declarations

Classes and their members as objects, and back. Lists without elements and flags that are not set
are left out.
-/

namespace Metaobject

/-! ## Writing -/

def Field.document (f : Field) : Json :=
  .object ([("name", .string f.name), ("mods", f.modifiers.document), ("ty", f.type.document)]
    ++ Json.optional "init" Expr.document f.init
    ++ Json.nonempty "annos" AnnotationUse.document f.annotations
    ++ f.span.entry)

def Method.document (m : Method) : Json :=
  .object
    ([("name", .string m.name), ("mods", m.modifiers.document), ("ret", m.returnType.document),
      ("params", .array (Param.documents m.params))]
    ++ Json.optional "body" Block.document m.body ++ Json.optional "default" Expr.document m.default
    ++ Json.nonempty "annos" AnnotationUse.document m.annotations ++ m.span.entry)

def Constructor.document (k : Constructor) : Json :=
  .object ([("mods", k.modifiers.document), ("params", .array (Param.documents k.params)),
      ("body", Block.document k.body), ("hidden", .bool k.hiddenParams)]
    ++ Json.nonempty "annos" AnnotationUse.document k.annotations ++ k.span.entry)

/-- The word for each kind of class. -/
def ClassKind.words : List (String × ClassKind) :=
  [("class", .ordinary), ("interface", .interface), ("annotation", .annotationType),
    ("enum", .enum), ("body", .constantBody), ("primitive", .primitive)]

def ClassKind.word (k : ClassKind) : String := ((words.find? (·.2 = k)).map (·.1)).getD ""

def ClassDecl.document (c : ClassDecl) : Json :=
  .object ([("id", .number c.id), ("name", .string c.name), ("kind", .string c.kind.word),
      ("mods", c.modifiers.document), ("scope", .bool c.hasScope)]
    ++ Json.optional "super" TypeRef.document c.superclass ++ Json.nonempty "interfaces"
      TypeRef.document c.interfaces
    ++ Json.nonempty "fields" Field.document c.fields
    ++ Json.nonempty "methods" Method.document c.methods
    ++ Json.nonempty "ctors" Constructor.document c.constructors ++ Json.nonempty "sinit"
      Stmt.document c.staticInit
    ++ Json.nonempty "annos" AnnotationUse.document c.annotations ++ Json.optional "outer"
      (.number ·) c.outer
    ++ Json.flagged "builtin" c.builtin ++ Json.flagged "checked" c.definitionChecked
    ++ c.span.entry)

/-! ## Reading -/

section

variable (t : ClassTable)

private def usesOf (j : Json) : Reading (List AnnotationUse) :=
  j.each "annos" (AnnotationUse.ofDocument t)

private def paramsOf (j : Json) : Reading (List Param) := j.each "params" (Param.ofDocument t)

private def modifiersOr (j : Json) (default : Modifiers) : Reading Modifiers :=
  j.orElse "mods" Modifiers.ofDocument default

def Field.ofDocument (j : Json) : Reading Field :=
  return ⟨← j.text "name", ← modifiersOr j {}, ← j.one "ty" (TypeRef.ofDocument t),
    ← j.maybe "init" (Expr.ofDocument t), ← usesOf t j, ← Span.ofEntry j⟩

/-- A method, or an attribute of an annotation type if the document says so. -/
def Method.ofDocument (j : Json) : Reading Method := do
  let name ← j.text "name"
  let type ← j.one "ret" (TypeRef.ofDocument t)
  let default ← j.maybe "default" (Expr.ofDocument t)
  let annotations ← usesOf t j
  let span ← Span.ofEntry j
  if ← j.flag "attr" then return { ofAttribute name type default with annotations, span }
  else return ⟨name, ← modifiersOr j .publicOnly, type, ← paramsOf t j,
    ← j.maybe "body" (Block.ofDocument t), default, annotations, span⟩

def Constructor.ofDocument (j : Json) : Reading Constructor :=
  return ⟨← modifiersOr j .publicOnly, ← paramsOf t j, ← j.orElse "body" (Block.ofDocument t) [],
    ← j.flag "hidden", ← usesOf t j, ← Span.ofEntry j⟩

def ClassKind.ofDocument (j : Json) : Reading ClassKind := do
  Json.found "kind of class" (words.lookup (← j.asText))

/-- The class without its members. -/
def ClassDecl.headerOfDocument (j : Json) : Reading ClassDecl :=
  return .empty (← j.text "name") (← j.orElse "kind" ClassKind.ofDocument .ordinary)

/-- The class with its members. Its number is the given one. -/
def ClassDecl.ofDocument (id : ClassId) (j : Json) : Reading ClassDecl := do
  let header ← headerOfDocument j
  return { header with
    id
    modifiers := ← modifiersOr j header.modifiers
    superclass := ← j.maybe "super" (TypeRef.ofDocument t)
    interfaces := ← j.each "interfaces" (TypeRef.ofDocument t)
    fields := ← j.each "fields" (Field.ofDocument t)
    methods := ← j.each "methods" (Method.ofDocument t)
    constructors := ← j.each "ctors" (Constructor.ofDocument t)
    staticInit := ← j.each "sinit" (Stmt.ofDocument t)
    annotations := ← usesOf t j
    hasScope := ← j.orElse "scope" Json.asBool (header.kind != .constantBody)
    outer := ← j.maybe "outer" t.classOf
    builtin := ← j.flag "builtin"
    definitionChecked := ← j.flag "checked"
    span := ← Span.ofEntry j }

end

/-- Add classes to a table. All of them are known by name before the members of the first are read.
The numbers of the new classes come with the table. -/
def ClassTable.addDocuments (t : ClassTable) (js : List Json) :
    Reading (ClassTable × List ClassId) := do
  let ids := List.range' t.size js.length
  let t ← js.foldlM (fun t j => return t.add (← ClassDecl.headerOfDocument j)) t
  let t ← (js.zip ids).foldlM (fun t (j, id) => return t.set id (← ClassDecl.ofDocument t id j)) t
  return (t, ids)

end Metaobject
