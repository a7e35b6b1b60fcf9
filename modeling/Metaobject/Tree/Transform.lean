import Metaobject.Tree.Visit

/-!
# Transforming the tree

One walk serves every pass that changes trees in place. It runs the hooks of a `Transformer`: one
that only looks at the blocks, statements and expressions met, one that may rename a variable, and
one that chooses the dispatch marker of a call. A call is handled before what stands inside it.
-/

namespace Metaobject

/-- What a transforming walk does at a node. The hooks left out change nothing. -/
structure Transformer (m : Type → Type) [Monad m] where
  /-- Runs at every node, before anything else. -/
  look : Visit → m Unit := fun _ => pure ()
  /-- The new name of a variable. -/
  rename : String → m String := pure
  /-- The dispatch marker of a call expression, given the call and its present marker. -/
  mark : Expr → Option Dispatch → m (Option Dispatch) := fun _ d => pure d

section

variable {m : Type → Type} [Monad m]

mutual

/-- Transform an expression. -/
def Expr.transform (w : Transformer m) : Expr → m Expr
  | .constant v s => do
    w.look (.expr (.constant v s))
    return .constant v s
  | .var n b s => do
    w.look (.expr (.var n b s))
    return .var (← w.rename n) b s
  | .property o n s => do
    w.look (.expr (.property o n s))
    return .property (← o.transform w) n s
  | .field o n s => do
    w.look (.expr (.field o n s))
    return .field o n s
  | .classRef ty s => do
    w.look (.expr (.classRef ty s))
    return .classRef ty s
  | .closure ps body cs s => do
    w.look (.expr (.closure ps body cs s))
    w.look (.block body)
    return .closure ps (← Stmt.transformAll w body) cs s
  | .list es s => do
    w.look (.expr (.list es s))
    return .list (← Expr.transformAll w es) s
  | .map es s => do
    w.look (.expr (.map es s))
    return .map (← MapEntry.transformAll w es) s
  | .entry e => do
    w.look (.expr (.entry e))
    return .entry (← e.transform w)
  | .annotationUse a => do
    w.look (.expr (.annotationUse a))
    return .annotationUse a
  | .call o n args i sf t d s => do
    w.look (.expr (.call o n args i sf t d s))
    let d ← w.mark (.call o n args i sf t d s) d
    return .call (← o.transform w) (← n.transform w) (← Expr.transformAll w args) i sf t d s
  | .staticCall o on n args d s => do
    w.look (.expr (.staticCall o on n args d s))
    let d ← w.mark (.staticCall o on n args d s) d
    return .staticCall o on n (← Expr.transformAll w args) d s
  | .construct k args d s => do
    w.look (.expr (.construct k args d s))
    let d ← w.mark (.construct k args d s) d
    return .construct k (← Expr.transformAll w args) d s
  | .binary op l r s => do
    w.look (.expr (.binary op l r s))
    return .binary op (← l.transform w) (← r.transform w) s
  | .ternary c t e s => do
    w.look (.expr (.ternary c t e s))
    return .ternary (← c.transform w) (← t.transform w) (← e.transform w) s
  | .index o i s => do
    w.look (.expr (.index o i s))
    return .index (← o.transform w) (← i.transform w) s
  | .spread e s => do
    w.look (.expr (.spread e s))
    return .spread (← e.transform w) s
  | .array ty es s => do
    w.look (.expr (.array ty es s))
    return .array ty (← Expr.transformAll w es) s
  | .assign t v s => do
    w.look (.expr (.assign t v s))
    return .assign (← t.transform w) (← v.transform w) s

/-- Transform several expressions from left to right. -/
def Expr.transformAll (w : Transformer m) : List Expr → m (List Expr)
  | [] => return []
  | e :: es => return (← e.transform w) :: (← Expr.transformAll w es)

/-- Transform the expression that computes a method name. -/
def MethodName.transform (w : Transformer m) : MethodName → m MethodName
  | .named n => return .named n
  | .computed e => return .computed (← e.transform w)

/-- Transform the key, then the value. -/
def MapEntry.transform (w : Transformer m) : MapEntry → m MapEntry
  | ⟨k, v, s⟩ => return ⟨← k.transform w, ← v.transform w, s⟩

/-- Transform several map entries. -/
def MapEntry.transformAll (w : Transformer m) : List MapEntry → m (List MapEntry)
  | [] => return []
  | e :: es => return (← e.transform w) :: (← MapEntry.transformAll w es)

/-- Transform a statement. -/
def Stmt.transform (w : Transformer m) : Stmt → m Stmt
  | .expr e => do
    w.look (.stmt (.expr e))
    return .expr (← e.transform w)
  | .declare n ty none s => do
    w.look (.stmt (.declare n ty none s))
    return .declare n ty none s
  | .declare n ty (some e) s => do
    w.look (.stmt (.declare n ty (some e) s))
    return .declare n ty (some (← e.transform w)) s
  | .ret none s => do
    w.look (.stmt (.ret none s))
    return .ret none s
  | .ret (some e) s => do
    w.look (.stmt (.ret (some e) s))
    return .ret (some (← e.transform w)) s
  | .cond c t none s => do
    w.look (.stmt (.cond c t none s))
    let c ← c.transform w
    w.look (.block t)
    return .cond c (← Stmt.transformAll w t) none s
  | .cond c t (some e) s => do
    w.look (.stmt (.cond c t (some e) s))
    let c ← c.transform w
    w.look (.block t)
    let t ← Stmt.transformAll w t
    w.look (.block e)
    return .cond c t (some (← Stmt.transformAll w e)) s
  | .throw e s => do
    w.look (.stmt (.throw e s))
    return .throw (← e.transform w) s
  | .block b => do
    w.look (.stmt (.block b))
    w.look (.block b)
    return .block (← Stmt.transformAll w b)

/-- Transform the statements of a block in order. -/
def Stmt.transformAll (w : Transformer m) : List Stmt → m (List Stmt)
  | [] => return []
  | s :: ss => return (← s.transform w) :: (← Stmt.transformAll w ss)

end

/-- Transform a block. -/
def Block.transform (w : Transformer m) (b : Block) : m Block := do
  w.look (.block b)
  Stmt.transformAll w b

end

end Metaobject
