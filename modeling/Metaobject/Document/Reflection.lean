import Metaobject.Document.Basic
import Metaobject.Reflection.Summary

/-!
# Documents of the reflection layer

Definitions of classes are read; loaded classes, members and failures are written. What a document
says about access is taken from the class space.
-/

namespace Metaobject

/-! ## Definitions -/

def FieldSignature.ofDocument (j : Json) : Reading FieldSignature := do
  match ← j.asItems with
  | [name, type, mods] => return ⟨← name.asText, ← type.asText, ← Modifiers.ofDocument mods⟩
  | _ => Json.expected "field"

def MethodSignature.ofDocument (j : Json) : Reading MethodSignature := do
  match ← j.asItems with
  | [name, params, type, mods] =>
    return ⟨← name.asText, ← params.asTexts, ← type.asText, ← Modifiers.ofDocument mods⟩
  | _ => Json.expected "method"

def ConstructorSignature.ofDocument (j : Json) : Reading ConstructorSignature := do
  match ← j.asItems with
  | [params, mods] => return ⟨← params.asTexts, ← Modifiers.ofDocument mods⟩
  | _ => Json.expected "constructor"

def ClassDefinition.ofDocument (j : Json) : Reading ClassDefinition := do
  let default := if ← j.flag "interface" then interfaceModifiers else .publicOnly
  return {
    name := ← j.text "name"
    modifiers := ← j.orElse "mods" Modifiers.ofDocument default
    superclass := ← j.text? "super"
    interfaces := ← j.texts "interfaces"
    fields := ← j.each "fields" FieldSignature.ofDocument
    methods := ← j.each "methods" MethodSignature.ofDocument
    constructors := ← j.each "ctors" ConstructorSignature.ofDocument }

/-- A policy: a word for permitting or denying everything, or a list of the members that are
denied. -/
def AccessPolicy.ofDocument : Json → Reading AccessPolicy
  | .string "permit" => return fun _ _ => true
  | .string "deny" => return fun _ _ => false
  | j => do
    let denied ← j.asTexts
    return fun owner member => !denied.contains (owner ++ "." ++ member)

/-! ## Classes and members -/

section

variable (space : ClassSpace)

def LoadedClass.document (c : LoadedClass) : Json :=
  let accessible (id : MemberId) (m : Modifiers) : Json := .bool (space.isAccessible id m)
  .object [
    ("name", .string c.name),
    ("mods", c.modifiers.document),
    ("interface", .bool c.isInterface),
    ("root", .bool c.isRoot),
    ("loaded", .bool (space.isLoaded c.no)),
    ("super", .ofOption (fun p => .string p.name) c.superclass),
    ("interfaces", .ofTexts (c.interfaces.map (·.name))),
    ("fields", .array (c.fields.zipIdx.map fun (f, i) =>
      .array [.string f.name, .string f.type, f.modifiers.document,
        accessible (.field c.no i) f.modifiers])),
    ("methods", .array (c.methods.zipIdx.map fun (m, i) =>
      .array [.string m.name, .ofTexts m.params, .string m.returnType, m.modifiers.document,
        accessible (.method c.no i) m.modifiers, .bool m.modifiers.isBridge])),
    ("ctors", .array (c.constructors.zipIdx.map fun (k, i) =>
      .array [.ofTexts k.params, k.modifiers.document,
        accessible (.constructor c.no i) k.modifiers]))]

/-- One letter for each telling property of a method. -/
def MethodHandle.letters (h : MethodHandle) : String :=
  let flags := [('s', h.isStatic), ('a', h.isAbstract), ('v', h.isVarargs), ('m', h.isProtocol)]
  String.ofList ((flags.filter (·.2)).map (·.1))

def MemberHandle.document : MemberHandle → Json
  | method h =>
    .object [
      ("m", .string h.text),
      ("ret", .string h.signature.returnType),
      ("mods", h.signature.modifiers.document),
      ("arity", .number h.arity),
      ("acc", .bool (space.isAccessible h.id h.signature.modifiers)),
      ("flags", .string h.letters)]
  | constructor h =>
    .object [
      ("c", .string h.text),
      ("mods", h.signature.modifiers.document),
      ("arity", .number h.arity),
      ("acc", .bool (space.isAccessible h.id h.signature.modifiers))]
  | field h =>
    .object [
      ("f", .string h.text),
      ("mods", h.signature.modifiers.document),
      ("static", .bool h.signature.modifiers.isStatic),
      ("acc", .bool (space.isAccessible h.id h.signature.modifiers))]

end

/-- The counts of a call site: hits, misses, invalidations, and the number of its entries. -/
def CallSite.counts (s : CallSite) : Json :=
  .array [.number s.hits, .number s.misses, .number s.invalidations, .number s.entries.length]

/-- The state of a lazy text. -/
def Lazy.document (l : Lazy String) : Json :=
  .object [
    ("held", .ofOption .string l.value),
    ("computed", .bool l.isComputed),
    ("generation", .number l.generation),
    ("computations", .number l.computations),
    ("debug", .string l.summary)]

/-! ## Failures -/

def failureEntries (kind message : String) : List (String × Json) :=
  [("error", .string kind), ("message", .string message)]

def ReflectionError.kindWord : ReflectionError → String
  | classUnloaded .. => "ClassUnloaded"
  | cacheDropped .. => "CacheDropped"
  | duplicateClass .. => "DuplicateClass"
  | missingDependency .. => "MissingDependency"
  | invalidDefinition .. => "InvalidDefinition"

def ReflectionError.entries (e : ReflectionError) : List (String × Json) :=
  failureEntries e.kindWord e.message

def DispatchError.kindWord : DispatchError → String
  | missingMethod .. => "MissingMethod"
  | missingConstructor .. => "MissingConstructor"
  | reflection e => "Reflection." ++ e.kindWord

def DispatchError.entries (e : DispatchError) : List (String × Json) :=
  failureEntries e.kindWord e.message

end Metaobject
