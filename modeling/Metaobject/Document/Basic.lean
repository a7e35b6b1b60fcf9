import Metaobject.ClassTable.Basic
import Metaobject.Document.Access

/-!
# Documents of spans, modifiers and types

A span is a list of its four numbers, and the synthetic span is left out. Modifiers are their bits.
A type is written as a text that shows how it is bound. It is read from a plain name, which is bound
by the class table on the spot, or from an object that says how it is bound.
-/

namespace Metaobject

namespace Span

def document (s : Span) : Json :=
  .array [.number s.start, .number s.stop, .number s.line, .number s.column]

def ofDocument (j : Json) : Reading Span := do
  match ← j.asItems with
  | [start, stop, line, column] =>
    return ⟨← start.asNat, ← stop.asNat, ← line.asNat, ← column.asNat⟩
  | _ => Json.expected "span"

/-- The entry for the span of a node. -/
def entry (s : Span) : List (String × Json) := if s = synthetic then [] else [("s", s.document)]

/-- The span of a node. -/
def ofEntry (j : Json) : Reading Span := j.orElse "s" ofDocument synthetic

end Span

namespace Modifiers

def document (m : Modifiers) : Json := .number m.bits

def ofDocument (j : Json) : Reading Modifiers := return ofBits (← j.asNat)

end Modifiers

namespace TypeRef

/-- The text of a type in documents. -/
def boundText : TypeRef → String
  | resolved id name => name ++ "#" ++ toString id
  | array c => c.boundText ++ "[]"
  | unresolved name => "?" ++ name

def document (type : TypeRef) : Json := .string type.boundText

/-- The type with a name that is given backwards; every `[]` at its end makes an array. -/
def ofReversedName (t : ClassTable) : List Char → TypeRef
  | ']' :: '[' :: rest => array (ofReversedName t rest)
  | cs => t.typeNamed (String.ofList cs.reverse)

/-- A type from a document that is nested at most `fuel` levels deep. -/
def read (t : ClassTable) : Nat → Json → Reading TypeRef
  | _, .string name => return ofReversedName t name.toList.reverse
  | 0, _ => Json.expected "type"
  | fuel + 1, j => do
    match ← j.text? "u", j.get? "a", ← j.maybe "id" Json.asNat, ← j.text? "name" with
    | some name, _, _, _ => return unresolved name
    | none, some component, _, _ => return array (← read t fuel component)
    | none, none, some id, some name => return resolved id name
    | none, none, some id, none => return t.typeRef id
    | none, none, none, _ => Json.expected "type"

def ofDocument (t : ClassTable) (j : Json) : Reading TypeRef := read t j.depth j

end TypeRef

namespace ClassTable

/-- The class that a document refers to: by number, or by name. -/
def classOf (t : ClassTable) : Json → Reading ClassId
  | .string name => Json.found name (t.lookup name)
  | j => j.asNat

end ClassTable

end Metaobject
