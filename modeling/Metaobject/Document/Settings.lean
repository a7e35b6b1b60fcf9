import Metaobject.Document.Access
import Metaobject.Settings

/-!
# Documents of settings

The numbers of settings may need all 64 bits and are written as texts.
-/

namespace Metaobject

def ValueStorage.name : ValueStorage → String
  | slot => "slot"
  | map => "map"

def ValueStorage.ofDocument (j : Json) : Reading ValueStorage := do
  Json.found "storage" (ofName? (← j.asText))

namespace CompilerSettings

def document (s : CompilerSettings) : Json :=
  .object [
    ("tolerance", .string (toString s.tolerance)),
    ("inline_constants", .bool s.inlineConstants),
    ("call_site_caching", .bool s.callSiteCaching)]

/-- Settings in which what is missing has its default. -/
def ofDocument (j : Json) : Reading CompilerSettings :=
  return {
    tolerance := (← j.orElse "tolerance" Json.asLarge 0).toNat
    inlineConstants := ← j.orElse "inline_constants" Json.asBool true
    callSiteCaching := ← j.orElse "call_site_caching" Json.asBool true }

end CompilerSettings

namespace RuntimeSettings

/-- The settings as written and as they are used, if no word asks for a storage. -/
def document (s : RuntimeSettings) : Json :=
  .object [
    ("pinned", .ofOption (fun v => .string v.name) s.storage),
    ("raw_segments", .string (toString s.segments)),
    ("strategy", .string (s.chosenStorage none).name),
    ("segments", .string (toString s.segmentCount))]

def ofDocument (j : Json) : Reading RuntimeSettings :=
  return {
    storage := ← j.maybe "strategy" ValueStorage.ofDocument
    segments := ← j.orElse "segments" Json.asNat 16 }

end RuntimeSettings

end Metaobject
