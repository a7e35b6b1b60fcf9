import Metaobject.Json

/-!
# Parts of documents

How documents are taken apart and put together. An entry that is missing and an entry that is null
are the same: the part is not there.
-/

namespace Metaobject

/-- What was expected where a document has something else. -/
structure Malformed where
  expected : String
deriving DecidableEq, Repr, Inhabited

/-- Reading a document may fail. -/
abbrev Reading := Except Malformed

namespace Json

def expected {α : Type} (what : String) : Reading α := .error ⟨what⟩

/-- What was found, which has to be something. -/
def found {α : Type} (what : String) : Option α → Reading α
  | some a => .ok a
  | none => expected what

/-! ## Values -/

def asText : Json → Reading String
  | string s => .ok s
  | _ => expected "text"

def asInt : Json → Reading Int
  | number n => .ok n
  | _ => expected "number"

def asNat : Json → Reading Nat
  | number (.ofNat n) => .ok n
  | _ => expected "natural number"

def asBool : Json → Reading Bool
  | bool b => .ok b
  | _ => expected "boolean"

def asItems : Json → Reading (List Json)
  | array es => .ok es
  | _ => expected "list"

def asTexts (j : Json) : Reading (List String) := do (← j.asItems).mapM asText

/-- A number of any size, which may be written as text. -/
def asLarge : Json → Reading Int
  | number n => .ok n
  | string s => found "number" s.toInt?
  | _ => expected "number"

/-! ## Entries -/

/-- The value of an entry, if it is there. -/
def get? (key : String) : Json → Option Json
  | object entries =>
    match entries.lookup key with
    | some null => none
    | found => found
  | _ => none

def get (j : Json) (key : String) : Reading Json := found key (j.get? key)

section

variable {α : Type} (j : Json) (key : String) (read : Json → Reading α)

/-- Read an entry that has to be there. -/
def one : Reading α := do read (← j.get key)

/-- Read an entry that may be missing. -/
def maybe : Reading (Option α) := (j.get? key).mapM read

/-- Read an entry, or take a default if it is missing. -/
def orElse (default : α) : Reading α := return (← j.maybe key read).getD default

/-- Read each element of an entry; a missing entry has none. -/
def each : Reading (List α) := do (← (j.get? key).elim (.ok []) asItems).mapM read

end

/-- A text that is empty if it is missing. -/
def text (j : Json) (key : String) : Reading String := j.orElse key asText ""

def text? (j : Json) (key : String) : Reading (Option String) := j.maybe key asText

/-- A number that is zero if it is missing. -/
def nat (j : Json) (key : String) : Reading Nat := j.orElse key asNat 0

/-- A Boolean that is false if it is missing. -/
def flag (j : Json) (key : String) : Reading Bool := j.orElse key asBool false

def texts (j : Json) (key : String) : Reading (List String) := j.each key asText

/-! ## Depth -/

mutual

/-- How deep a document is nested. -/
def depth : Json → Nat
  | array es => depthOfAll es + 1
  | object es => depthOfEntries es + 1
  | _ => 1

def depthOfAll : List Json → Nat
  | [] => 0
  | e :: es => max e.depth (depthOfAll es)

def depthOfEntries : List (String × Json) → Nat
  | [] => 0
  | (_, e) :: es => max e.depth (depthOfEntries es)

end

/-! ## Building -/

def ofTexts (ss : List String) : Json := array (ss.map string)

/-- Null, or the document of a value. -/
def ofOption {α : Type} (write : α → Json) (value : Option α) : Json := (value.map write).getD null

/-- An entry that is left out if there is no value. -/
def optional {α : Type} (key : String) (write : α → Json) (value : Option α) :
    List (String × Json) :=
  (value.map fun v => (key, write v)).toList

/-- An entry that is left out if the list is empty. -/
def nonempty {α : Type} (key : String) (write : α → Json) (values : List α) :
    List (String × Json) :=
  if values.isEmpty then [] else [(key, array (values.map write))]

/-- An entry that is left out if it is false. -/
def flagged (key : String) (value : Bool) : List (String × Json) :=
  if value then [(key, bool true)] else []

end Json

end Metaobject
