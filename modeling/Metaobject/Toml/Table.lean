/-!
# Tables of TOML

A table can come into being in several ways, and the way decides what may still be added to it. A
table opened by a header is fixed once its section ends, and an inline table at once. Tables that
only stand on the path of a header may still be opened, and tables that only stand on the path of a
dotted key may get further dotted keys.
-/

namespace Metaobject.Toml

/-- How a table came into being. -/
inductive TableForm where
  /-- Opened by a header of its own. -/
  | header
  /-- On the path of another table's header. -/
  | implied
  /-- On the path of a dotted key. -/
  | dotted
  /-- Written in braces. -/
  | inline
deriving DecidableEq, Repr

/-- A value. Floats and dates are not kept. -/
inductive Value where
  | string (value : String)
  | integer (value : Int)
  | boolean (value : Bool)
  | float
  | dateTime
  | array (elements : List Value)
  | table (form : TableForm) (entries : List (String × Value))
  /-- An array of tables opened by headers, the last one first. -/
  | tables (entries : List (List (String × Value)))

/-- The entries of a table. -/
abbrev Entries := List (String × Value)

namespace Entries

/-- Replace the value of a key that is there. -/
def replace (key : String) (v : Value) (es : Entries) : Entries :=
  es.map fun (k, old) => if k = key then (k, v) else (k, old)

/-- Add a value under a dotted key. The tables on the way are created or have to be open to dotted
keys; the last of them must have been created by dotted keys, unless the key has a single part
(`atTop`). -/
def put (atTop : Bool) (v : Value) : List String → Entries → Option Entries
  | [], _ => none
  | [key], es => if atTop && (es.lookup key).isNone then some (es ++ [(key, v)]) else none
  | key :: path, es =>
    match es.lookup key with
    | none => (put true v path []).map fun sub => es ++ [(key, .table .dotted sub)]
    | some (.table .dotted sub) =>
      (put true v path sub).map fun sub => replace key (.table .dotted sub) es
    | some (.table .implied sub) =>
      (put false v path sub).map fun sub => replace key (.table .implied sub) es
    | some (.tables (last :: before)) =>
      (put false v path last).map fun last => replace key (.tables (last :: before)) es
    | some _ => none

/-- Change the table at the path of a header. Tables on the way are created; an array of tables
means its last one. -/
def within (change : Entries → Option Entries) : List String → Entries → Option Entries
  | [], es => change es
  | key :: path, es =>
    match es.lookup key with
    | none => (within change path []).map fun sub => es ++ [(key, .table .implied sub)]
    | some (.table .inline _) => none
    | some (.table form sub) =>
      (within change path sub).map fun sub => replace key (.table form sub) es
    | some (.tables (last :: before)) =>
      (within change path last).map fun last => replace key (.tables (last :: before)) es
    | some _ => none

/-- Open the table with this name: a new one, or one that was only implied. -/
def openTable (key : String) (es : Entries) : Option Entries :=
  match es.lookup key with
  | none => some (es ++ [(key, .table .header [])])
  | some (.table .implied sub) => some (replace key (.table .header sub) es)
  | some _ => none

/-- Open a further table of the array with this name. -/
def openElement (key : String) (es : Entries) : Option Entries :=
  match es.lookup key with
  | none => some (es ++ [(key, .tables [[]])])
  | some (.tables ts) => some (replace key (.tables ([] :: ts)) es)
  | some _ => none

/-- Apply a change of the entry that a header names. -/
def atHeader (change : String → Entries → Option Entries) (path : List String) (es : Entries) :
    Option Entries := do
  within (change (← path.getLast?)) path.dropLast es

end Entries

end Metaobject.Toml
