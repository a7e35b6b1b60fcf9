import Metaobject.Diagnostic.Basic
import Metaobject.Document.Basic

/-!
# Documents of diagnostics

A diagnostic as a JSON document for editors, with lines and columns in place of byte offsets, and
diagnostics that are read from documents.
-/

namespace Metaobject

/-! ## For editors

Labels in files that are not known are left out. -/

/-- A label as a JSON object, if its file is known. -/
def Label.document? (files : List SourceFile) (l : Label) : Option Json := do
  let file ← files[l.file]?
  let start := file.location l.span.start
  let stop := file.location l.span.stop
  return .object [
    ("file", .string file.path),
    ("start_line", .number start.line),
    ("start_column", .number start.column),
    ("end_line", .number stop.line),
    ("end_column", .number stop.column),
    ("message", .string l.message),
    ("style", .string "primary")]

/-- A diagnostic as a JSON object. -/
def Diagnostic.document (files : List SourceFile) (d : Diagnostic) : Json :=
  .object [
    ("code", (d.code.map Json.string).getD .null),
    ("severity", .string d.severity.text),
    ("message", .string d.message),
    ("labels", .array (d.labels.filterMap (·.document? files))),
    ("notes", .array (d.notes.map .string))]

/-! ## Reading -/

def Severity.ofDocument (j : Json) : Reading Severity := do
  let word ← j.asText
  Json.found "severity" ([.error, .warning, .note, .help, .bug].find? fun s => s.text == word)

def Label.ofDocument (j : Json) : Reading Label :=
  return ⟨← j.nat "file", ← Span.ofEntry j, ← j.text "message"⟩

/-- A diagnostic. What may help comes after the notes. -/
def Diagnostic.ofDocument (j : Json) : Reading Diagnostic :=
  return {
    severity := ← j.orElse "severity" Severity.ofDocument .error
    message := ← j.text "message"
    code := ← j.text? "code"
    labels := ← j.each "labels" Label.ofDocument
    notes := (← j.texts "notes") ++ ((← j.text? "help").map helpNote).toList }

end Metaobject
