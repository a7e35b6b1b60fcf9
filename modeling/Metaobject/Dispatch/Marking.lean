import Metaobject.Declaration.Walk
import Metaobject.Dispatch.Selection

/-!
# Marking calls

Every call in the code of a class gets the marker of its dispatch strategy. Calls that go through
call sites are numbered in the order in which the walk meets them, and the keys of the sites form
the site table of the class. Each call location has a number of its own, even if two keys agree.
-/

namespace Metaobject

/-- The call sites of one class, by number. -/
structure SiteTable where
  owner : String
  keys : List SiteKey := []
deriving DecidableEq, Repr

namespace SiteTable

def size (s : SiteTable) : Nat := s.keys.length

def get? (s : SiteTable) (index : Nat) : Option SiteKey := s.keys[index]?

/-- The method name of each site. -/
def names (s : SiteTable) : List String := s.keys.map (·.name)

end SiteTable

/-- A computation that registers call sites. -/
abbrev Marking := StateT (List SiteKey) (Except Fault)

/-- The marker of a choice. A call site takes the next free number. -/
def Choice.register : Choice → Marking Dispatch
  | .settled d => return d
  | .site key => do
    let keys ← get
    set (keys ++ [key])
    return .callSite keys.length key

namespace ClassTable

variable (t : ClassTable) (caching : Bool)

/-- The marker for a call expression in its context; `previous` for any other expression. -/
def marker (ctx : CallContext) (e : Expr) (previous : Option Dispatch) :
    Marking (Option Dispatch) := do
  match ← t.choice? caching ctx e with
  | none => return previous
  | some c => return some (← c.register)

/-- The walk that marks calls in one context. -/
def markingWalk (ctx : CallContext) : Transformer Marking := { mark := t.marker caching ctx }

/-- Mark the calls in field initializers, constructors, methods and the static initializer, in this
order. -/
def markMembers (c : ClassDecl) : Marking ClassDecl := do
  let walk (inStatic : Bool) := t.markingWalk caching ⟨c.id, inStatic⟩
  let fields ← c.fields.mapM fun f => do
    match f.init with
    | none => return f
    | some e => return { f with init := some (← e.transform (walk f.isStatic)) }
  let constructors ← c.constructors.mapM fun k =>
    return { k with body := ← Stmt.transformAll (walk false) k.body }
  let methods ← c.methods.mapM fun m => do
    match m.body with
    | none => return m
    | some body => return { m with body := some (← Stmt.transformAll (walk m.isStatic) body) }
  let staticInit ← Stmt.transformAll (walk true) c.staticInit
  return { c with fields, constructors, methods, staticInit }

/-- Mark a class of the table; its site table comes with it. -/
def markClass (id : ClassId) : Except Fault (ClassTable × SiteTable) := do
  let c ← t.get id
  let (marked, keys) ← (t.markMembers caching c).run []
  return (t.set id marked, ⟨c.name, keys⟩)

end ClassTable

end Metaobject
