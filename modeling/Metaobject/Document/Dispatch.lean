import Metaobject.Dispatch.Marking
import Metaobject.Document.Basic

/-!
# Documents of dispatch strategies
-/

namespace Metaobject

namespace MethodTarget

def document (m : MethodTarget) : Json :=
  .object [
    ("owner", .number m.owner),
    ("name", .string m.name),
    ("arity", .number m.arity),
    ("static", .bool m.isStatic)]

def ofDocument (t : ClassTable) (j : Json) : Reading MethodTarget :=
  return ⟨← j.one "owner" t.classOf, ← j.text "name", ← j.nat "arity", ← j.flag "static"⟩

end MethodTarget

def SiteKey.document (k : SiteKey) : Json :=
  .object [
    ("recv", .ofOption TypeRef.document k.receiver),
    ("name", .string k.name),
    ("implicit", .bool k.implicitThis),
    ("static", .bool k.isStatic)]

def SiteTable.entries (s : SiteTable) : List (String × Json) :=
  [("owner", .string s.owner), ("keys", .array (s.keys.map SiteKey.document))]

def ReflectiveReason.text : ReflectiveReason → String
  | dynamicName => "DynamicName"
  | spreadArguments => "SpreadArguments"
  | superCall => "SuperCall"
  | cachingDisabled => "CachingDisabled"
  | ambiguousConstructor => "AmbiguousConstructor"
  | unknownConstructor => "UnknownConstructor"

def Dispatch.document : Dispatch → Json
  | direct target => .object [("d", .string "direct"), ("target", target.document)]
  | directConstructor owner index =>
    .object [("d", .string "ctor"), ("owner", .number owner), ("index", .number index)]
  | closureField name => .object [("d", .string "closure_field"), ("name", .string name)]
  | callSite index key =>
    .object [("d", .string "site"), ("index", .number index), ("key", key.document)]
  | reflective reason => .object [("d", .string "reflective"), ("reason", .string reason.text)]

end Metaobject
