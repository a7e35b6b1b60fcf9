import Metaobject.Declaration
import Metaobject.Tree.Transform
import Metaobject.Tree.Visit

/-!
# Walking a class

A walk over a class meets its fields, constructors, methods and static initializer in this order,
and inside them the nodes of their initializers and bodies.
-/

namespace Metaobject

/-- Something met on the walk over a class. -/
inductive ClassVisit where
  | classDecl (c : ClassDecl)
  | field (f : Field)
  | constructor (k : Constructor)
  | method (m : Method)
  | node (v : Visit)

namespace ClassDecl

/-- What a walk over a class meets, the class itself first. -/
def visits (c : ClassDecl) : List ClassVisit :=
  .classDecl c ::
    (c.fields.flatMap fun f => .field f :: (f.init.elim [] Expr.visits).map .node)
    ++ (c.constructors.flatMap fun k => .constructor k :: (Block.visits k.body).map .node)
    ++ (c.methods.flatMap fun m => .method m :: (m.body.elim [] Block.visits).map .node)
    ++ (Stmt.visitsAll c.staticInit).map .node

/-- Transform the constructor bodies, the method bodies and the static initializer. -/
def transformBodies {m : Type → Type} [Monad m] (w : Transformer m) (c : ClassDecl) :
    m ClassDecl := do
  let constructors ← c.constructors.mapM fun k =>
    return { k with body := ← Block.transform w k.body }
  let methods ← c.methods.mapM fun f => do
    match f.body with
    | none => return f
    | some body => return { f with body := some (← Block.transform w body) }
  let staticInit ← Stmt.transformAll w c.staticInit
  return { c with constructors, methods, staticInit }

end ClassDecl

end Metaobject
