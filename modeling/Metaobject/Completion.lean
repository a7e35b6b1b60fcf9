import Metaobject.Annotation.Cycle
import Metaobject.Dispatch.Marking
import Metaobject.Enumeration.Constructors
import Metaobject.Enumeration.Members
import Metaobject.Settings

/-!
# Completion of a unit

The passes over the source classes of a unit, in order: members of enums, annotations, constructors
of enums, marking of calls. Between the passes, and between classes while annotations are checked,
work stops as soon as the problem log is full.
-/

namespace Metaobject

/-- The classes and the problems of a unit. -/
structure CompilationUnit where
  table : ClassTable
  log : ProblemLog

/-! ## Annotations of a class -/

namespace ClassDecl

/-- The annotation usages of a class in the order they are checked. -/
def annotationUses (c : ClassDecl) : List AnnotationUse :=
  let ofParams (ps : List Param) := ps.flatMap (·.annotations)
  c.annotations ++ c.fields.flatMap (·.annotations)
    ++ c.methods.flatMap (fun m => m.annotations ++ ofParams m.params)
    ++ c.constructors.flatMap (fun k => k.annotations ++ ofParams k.params)

/-- Change every annotation usage of a class. -/
def mapAnnotationUses (f : AnnotationUse → AnnotationUse) (c : ClassDecl) : ClassDecl :=
  let onParams (ps : List Param) := ps.map fun p => { p with annotations := p.annotations.map f }
  { c with
    annotations := c.annotations.map f
    fields := c.fields.map fun d => { d with annotations := d.annotations.map f }
    methods :=
      c.methods.map fun m =>
      { m with annotations := m.annotations.map f, params := onParams m.params }
    constructors := c.constructors.map fun k =>
      { k with annotations := k.annotations.map f, params := onParams k.params } }

end ClassDecl

namespace CompilationUnit

/-! ## Passes -/

/-- Give the enums their members. -/
def addEnumMembers (u : CompilationUnit) (ids : List ClassId) : Except Fault CompilationUnit :=
  ids.foldlM (fun u id => do
    let (table, found) ← u.table.addEnumMembers id
    return ⟨table, u.log.addAll found⟩) u

/-- Check the annotation usages of a class. -/
def validateClass (inline : Bool) (u : CompilationUnit) (id : ClassId) :
    Except Fault CompilationUnit := do
  let c ← u.table.get id
  let found ← c.annotationUses.mapM (·.problems u.table inline)
  return ⟨u.table.set id (c.mapAnnotationUses (·.normalized u.table inline)),
    u.log.addAll found.flatten⟩

/-- Check the annotation usages of one class after the other, until the log is full. -/
def validateClasses (inline : Bool) : List ClassId → CompilationUnit → Except Fault CompilationUnit
  | [], u => return u
  | id :: ids, u => do
    let u ← u.validateClass inline id
    if u.log.isFull then return u else validateClasses inline ids u

/-- Look for cycles among the defaults of an annotation type, unless that was done before. -/
def checkDefinition (u : CompilationUnit) (id : ClassId) : Except Fault CompilationUnit := do
  let c ← u.table.get id
  if c.isAnnotationType && !c.definitionChecked then
    let found ← u.table.definitionProblems id
    return ⟨u.table.set id { c with definitionChecked := true }, u.log.addAll found⟩
  else return u

/-- Complete the constructors of the enums. -/
def completeConstructors (u : CompilationUnit) (ids : List ClassId) :
    Except Fault CompilationUnit := do
  return { u with table := ← ids.foldlM (fun t id => t.completeConstructors id) u.table }

/-- Mark the calls of one class after the other and collect the site tables. -/
def markClasses (caching : Bool) : List ClassId → CompilationUnit →
    Except Fault (CompilationUnit × List (ClassId × SiteTable))
  | [], u => return (u, [])
  | id :: ids, u => do
    let (table, sites) ← u.table.markClass caching id
    let (u, rest) ← markClasses caching ids { u with table }
    return (u, (id, sites) :: rest)

/-- Run all passes. The site tables are those of the marked classes, in class order; there are none
if a pass filled the log. -/
def complete (settings : CompilerSettings) (u : CompilationUnit) :
    Except Fault (CompilationUnit × List (ClassId × SiteTable)) := do
  let enums := u.table.enumOrder
  let u ← u.addEnumMembers enums
  if u.log.isFull then return (u, [])
  let u ← validateClasses settings.inlineConstants u.table.sourceIds u
  if u.log.isFull then return (u, [])
  let u ← u.table.sourceIds.foldlM checkDefinition u
  if u.log.isFull then return (u, [])
  let u ← u.completeConstructors enums
  u.markClasses settings.callSiteCaching u.table.sourceIds

end CompilationUnit

end Metaobject
