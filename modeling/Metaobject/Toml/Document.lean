import Metaobject.Toml.Scalar
import Metaobject.Toml.Table

/-!
# TOML documents

A document is a sequence of lines: headers, which open the table that the following lines belong to,
and assignments of values to keys. `document?` reads a whole text.
-/

namespace Metaobject.Toml

/-- How deeply arrays and inline tables may be nested, and how many parts a key may have. -/
def nestingLimit : Nat := 79

/-! ## Values -/

/-- The elements of an array, after its opening bracket or a comma. -/
def elements? (value? : Reader Value) : Nat → Reader (List Value)
  | 0, _ => none
  | fuel + 1, cs =>
    match skipLines (cs.length + 1) cs with
    | ']' :: cs => some ([], cs)
    | cs => do
      let (v, cs) ← value? cs
      match skipLines (cs.length + 1) cs with
      | ',' :: cs =>
        let (vs, cs) ← elements? value? fuel cs
        return (v :: vs, cs)
      | ']' :: cs => return ([v], cs)
      | _ => none

/-- A key, an equals sign and a value. -/
def assignment? (value? : Reader Value) : Reader (List String × Value) := fun cs => do
  let (key, cs) ← key? nestingLimit cs
  let cs ← mark? '=' (skipBlanks cs)
  let (v, cs) ← value? (skipBlanks cs)
  return ((key, v), cs)

/-- The entries of an inline table, from its first key on. -/
def inlineEntries? (value? : Reader Value) : Nat → Entries → Reader Entries
  | 0, _, _ => none
  | fuel + 1, es, cs => do
    let ((key, v), cs) ← assignment? value? (skipBlanks cs)
    let es ← Entries.put true v key es
    match skipBlanks cs with
    | ',' :: cs => inlineEntries? value? fuel es cs
    | '\x7d' :: cs => return (es, cs)
    | _ => none

/-- A word that is a Boolean, a number or a date. -/
def scalar? (cs : List Char) : Option (Value × List Char) :=
  let (w, rest) := word cs
  if w = "true".toList then some (.boolean true, rest)
  else if w = "false".toList then some (.boolean false, rest)
  else
    match integer? w with
    | some n => some (.integer n, rest)
    | none =>
      if isFloat w then some (.float, rest)
      else if isDateTime w then some (.dateTime, rest)
      else none

/-- A value, with at most `depth` levels of arrays and inline tables. -/
def value? : Nat → Reader Value
  | depth, cs =>
    match cs with
    | '"' :: _ | '\x27' :: _ => (string? cs).map fun (s, cs) => (.string s, cs)
    | '[' :: cs =>
      match depth with
      | 0 => none
      | depth + 1 =>
        (elements? (value? depth) (cs.length + 1) cs).map fun (vs, cs) => (.array vs, cs)
    | '\x7b' :: cs =>
      match depth with
      | 0 => none
      | depth + 1 =>
        match skipBlanks cs with
        | '\x7d' :: cs => some (.table .inline [], cs)
        | cs =>
          (inlineEntries? (value? depth) (cs.length + 1) [] cs).map fun (es, cs) =>
            (.table .inline es, cs)
    | cs => scalar? cs

/-! ## Lines -/

/-- What is read so far: all entries, and the path of the table that is open. -/
structure Progress where
  entries : Entries := []
  path : List String := []

/-- Read one line, without its end. -/
def line? (p : Progress) (cs : List Char) : Option (Progress × List Char) :=
  match skipBlanks cs with
  | '[' :: '[' :: cs => do
    let (path, cs) ← key? nestingLimit (skipBlanks cs)
    let cs ← mark? ']' (← mark? ']' (skipBlanks cs))
    return (⟨← p.entries.atHeader Entries.openElement path, path⟩, cs)
  | '[' :: cs => do
    let (path, cs) ← key? nestingLimit (skipBlanks cs)
    let cs ← mark? ']' (skipBlanks cs)
    return (⟨← p.entries.atHeader Entries.openTable path, path⟩, cs)
  | cs =>
    if (lineEnd? cs).isSome then some (p, cs)
    else do
      let ((key, v), cs) ← assignment? (value? nestingLimit) cs
      return ({ p with entries := ← p.entries.within (Entries.put true v key) p.path }, cs)

/-- Read lines to the end of the text, at most `fuel` of them. -/
def lines? : Nat → Progress → List Char → Option Entries
  | 0, _, _ => none
  | _ + 1, p, [] => some p.entries
  | fuel + 1, p, cs => do
    let (p, cs) ← line? p cs
    lines? fuel p (← lineEnd? cs)

/-- The entries of a document. A byte-order mark in front is skipped. -/
def document? (text : String) : Option Entries :=
  let cs := match text.toList with
    | '\ufeff' :: cs => cs
    | cs => cs
  lines? (cs.length + 1) {} cs

end Metaobject.Toml
