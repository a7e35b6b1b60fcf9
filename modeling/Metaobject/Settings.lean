import Metaobject.Text.Basic
import Metaobject.Toml.Document

/-!
# Settings

What a unit is compiled with, and how the reflection layer stores its class values. Settings come
from a TOML text, in which missing keys take their defaults and unknown keys are ignored, and from
single values that override it.
-/

namespace Metaobject

/-- Settings of the compiler passes. -/
structure CompilerSettings where
  /-- How many problems are recorded; zero means all of them. -/
  tolerance : Nat := 0
  /-- Whether annotation values are folded. -/
  inlineConstants : Bool := true
  /-- Whether calls may go through numbered call sites. -/
  callSiteCaching : Bool := true
deriving DecidableEq, Repr

/-- Where class values are kept: in slots of the class, or in a map beside it. -/
inductive ValueStorage where
  | slot
  | map
deriving DecidableEq, Repr

/-- Settings of the reflection layer. -/
structure RuntimeSettings where
  /-- The storage of class values, where it is fixed. -/
  storage : Option ValueStorage := none
  /-- How many segments the map has, as written. -/
  segments : Nat := 16
deriving DecidableEq, Repr

/-- The least power of two that is not below `n`, as a word of 64 bits: it is zero where there is no
such word. -/
def powerOfTwoFrom (n : Nat) : Nat :=
  if n ≤ 1 then 1 else Nat.pow 2 ((n - 1).log2 + 1) % UInt64.size

/-- How many segments the map has: a power of two, or zero where the number is too large for one. -/
def RuntimeSettings.segmentCount (s : RuntimeSettings) : Nat := powerOfTwoFrom s.segments

/-! ## Values of settings -/

/-- A number that is not negative. -/
def Toml.Value.natural? : Toml.Value → Option Nat
  | .integer (.ofNat n) => some n
  | _ => none

def Toml.Value.boolean? : Toml.Value → Option Bool
  | .boolean b => some b
  | _ => none

/-- The storage with this name. -/
def ValueStorage.ofName? (name : String) : Option ValueStorage :=
  if name = "slot" then some .slot else if name = "map" then some .map else none

/-- A storage: its name, or the name as the only key of a table whose value is empty. -/
def Toml.Value.storage? : Toml.Value → Option ValueStorage
  | .string name => ValueStorage.ofName? name
  | .table _ [(name, .table _ [])] => ValueStorage.ofName? name
  | .table _ [(name, .array [])] => ValueStorage.ofName? name
  | _ => none

/-- The value of a key, or the default if the key is missing. A value of the wrong kind fails. -/
def Toml.Entries.read {α : Type} (es : Toml.Entries) (key : String) (read? : Toml.Value → Option α)
    (default : α) : Option α :=
  match es.lookup key with
  | none => some default
  | some v => read? v

/-! ## Whole texts -/

/-- Compiler settings from a TOML text. -/
def CompilerSettings.ofToml? (text : String) : Option CompilerSettings := do
  let es ← Toml.document? text
  return {
    tolerance := ← es.read "tolerance" Toml.Value.natural? 0
    inlineConstants := ← es.read "inline_constants" Toml.Value.boolean? true
    callSiteCaching := ← es.read "call_site_caching" Toml.Value.boolean? true }

/-- Runtime settings from a TOML text. -/
def RuntimeSettings.ofToml? (text : String) : Option RuntimeSettings := do
  let es ← Toml.document? text
  return {
    storage := ← es.read "class_value_strategy" (fun v => v.storage?.map some) none
    segments := ← es.read "class_value_segments" Toml.Value.natural? 16 }

/-! ## Overrides -/

/-- An override whose value cannot be read. -/
structure InvalidSetting where
  key : String
  value : String
deriving DecidableEq, Repr

def InvalidSetting.message (e : InvalidSetting) : String :=
  s!"Invalid value '{e.value}' for {e.key}"

/-- A 64-bit number: digits, with at most one plus sign in front. -/
def word64? (s : String) : Option Nat :=
  let digits := match s.toList with
    | '+' :: cs => cs
    | cs => cs
  if digits.isEmpty || !digits.all Char.isDigit then none
  else
    let n := Toml.decimalValue digits
    if n < UInt64.size then some n else none

/-- A switch: one of the usual words for on and off, in any case and between blanks. -/
def switch? (s : String) : Option Bool :=
  let word := Text.lowerAscii (Text.trimBlank s)
  if word ∈ ["1", "true", "yes", "on"] then some true
  else if word ∈ ["0", "false", "no", "off"] then some false
  else none

/-- The override of a setting, or its present value if there is none. -/
def overridden {α : Type} (lookup : String → Option String) (name : String)
    (read? : String → Option α) (present : α) : Except InvalidSetting α :=
  let key := "TERN_COMPILER_" ++ name
  match lookup key with
  | none => .ok present
  | some value =>
    match read? value with
    | some v => .ok v
    | none => .error ⟨key, value⟩

/-- Compiler settings with the overrides that a lookup knows; the first one that cannot be read
fails. -/
def CompilerSettings.override (s : CompilerSettings) (lookup : String → Option String) :
    Except InvalidSetting CompilerSettings := do
  return {
    tolerance := ← overridden lookup "TOLERANCE" word64? s.tolerance
    inlineConstants := ← overridden lookup "INLINE_CONSTANTS" switch? s.inlineConstants
    callSiteCaching := ← overridden lookup "CALL_SITE_CACHING" switch? s.callSiteCaching }

/-- The storage that a word asks for: the map if it says so, and slots in any other case. -/
def ValueStorage.detect (word : Option String) : ValueStorage :=
  if word.any fun w => Text.lowerAscii (Text.trimBlank w) = "map" then .map else .slot

/-- The storage that is used: the fixed one, or the one that a word asks for. -/
def RuntimeSettings.chosenStorage (s : RuntimeSettings) (word : Option String) : ValueStorage :=
  s.storage.getD (ValueStorage.detect word)

end Metaobject
