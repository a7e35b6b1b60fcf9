import Metaobject.Reflection.CallSite
import Metaobject.Reflection.Loader
import Metaobject.Text.Quoted

/-!
# Summaries

One line about each object of the reflection layer, for logs: the kind of object and its most
telling properties.
-/

namespace Metaobject

/-- A kind of object with its properties. -/
def summary (kind : String) (properties : List (String × String)) : String :=
  kind ++ " \x7b " ++ ", ".intercalate (properties.map fun (name, value) =>
    name ++ ": " ++ value) ++ " \x7d"

/-- A Boolean in summaries. -/
def truthText (b : Bool) : String := if b then "true" else "false"

def Strength.text : Strength → String
  | soft => "Soft"
  | weak => "Weak"

def ValueBackend.text : ValueBackend → String
  | slot => "Slot"
  | map _ => "Map"

def Loader.summary (l : Loader) : String :=
  Metaobject.summary "ClassLoader" [("classes", toString l.size)]

/-- What a record says about its class. -/
def ClassRecord.descriptorSummary (d : ClassRecord) : String :=
  summary "ClassDescriptor" [
    ("class", Text.quoted d.cls.name),
    ("methods_cached", truthText d.methods.isComputed),
    ("hierarchy_cached", truthText d.hierarchy.isComputed)]

/-- What a record says about changes at run time. -/
def ClassRecord.infoSummary (d : ClassRecord) : String :=
  summary "ClassInfo" [
    ("class", Text.quoted d.cls.name),
    ("version", toString d.version),
    ("dynamic_methods", toString d.added.length)]

def ReflectionCache.summary (k : ReflectionCache) : String :=
  Metaobject.summary "ReflectionCache" [
    ("strategy", k.infos.backend.text),
    ("modification_count", toString k.changes)]

def CallSite.summary (s : CallSite) : String :=
  Metaobject.summary "CallSite" [
    ("index", toString s.index),
    ("name", Text.quoted s.name),
    ("entries", toString s.entries.length),
    ("stats", Metaobject.summary "CallSiteStats" [
      ("hits", toString s.hits),
      ("misses", toString s.misses),
      ("invalidations", toString s.invalidations)])]

def Lazy.summary {α : Type} (l : Lazy α) : String :=
  Metaobject.summary "LazyReference" [
    ("strength", l.strength.text),
    ("computed", truthText l.isComputed),
    ("generation", toString l.generation)]

def LazyPool.summary {α : Type} (p : LazyPool α) : String :=
  Metaobject.summary "ReferenceManager" [
    ("entries", toString p.registered.length),
    ("reclaimed", toString p.reclaimed)]

end Metaobject
