import Metaobject.Tree.Basic

/-!
# Visiting the tree

The nodes of a tree in the order in which a walk meets them: a node before what stands inside it,
and parts from left to right. The walk enters closure bodies, computed method names and the
arguments of every call. It does not enter annotations, nor the parameters of a closure.

`Expr.visits`, `Stmt.visits` and `Block.visits` list what is met; everything read off a walk is a
function of that list.
-/

namespace Metaobject

/-- A node met on a walk. -/
inductive Visit where
  | block (body : Block)
  | stmt (s : Stmt)
  | expr (e : Expr)

mutual

/-- The nodes of an expression, the expression itself first. -/
def Expr.visits : Expr → List Visit
  | .constant v s => [.expr (.constant v s)]
  | .var n b s => [.expr (.var n b s)]
  | .property o n s => .expr (.property o n s) :: o.visits
  | .field o n s => [.expr (.field o n s)]
  | .classRef ty s => [.expr (.classRef ty s)]
  | .closure ps body cs s => .expr (.closure ps body cs s) :: .block body :: Stmt.visitsAll body
  | .list es s => .expr (.list es s) :: Expr.visitsAll es
  | .map es s => .expr (.map es s) :: MapEntry.visitsAll es
  | .entry e => .expr (.entry e) :: e.visits
  | .annotationUse a => [.expr (.annotationUse a)]
  | .call o m args i sf t d s =>
    .expr (.call o m args i sf t d s) :: (o.visits ++ m.visits ++ Expr.visitsAll args)
  | .staticCall o on m args d s => .expr (.staticCall o on m args d s) :: Expr.visitsAll args
  | .construct k args d s => .expr (.construct k args d s) :: Expr.visitsAll args
  | .binary op l r s => .expr (.binary op l r s) :: (l.visits ++ r.visits)
  | .ternary c t e s => .expr (.ternary c t e s) :: (c.visits ++ t.visits ++ e.visits)
  | .index o i s => .expr (.index o i s) :: (o.visits ++ i.visits)
  | .spread e s => .expr (.spread e s) :: e.visits
  | .array ty es s => .expr (.array ty es s) :: Expr.visitsAll es
  | .assign t v s => .expr (.assign t v s) :: (t.visits ++ v.visits)

/-- The nodes of several expressions, one after the other. -/
def Expr.visitsAll : List Expr → List Visit
  | [] => []
  | e :: es => e.visits ++ Expr.visitsAll es

/-- The nodes of a method name: those of the expression that computes it. -/
def MethodName.visits : MethodName → List Visit
  | .named _ => []
  | .computed e => e.visits

/-- The nodes of a map entry: those of its key, then those of its value. -/
def MapEntry.visits : MapEntry → List Visit
  | ⟨k, v, _⟩ => k.visits ++ v.visits

/-- The nodes of several map entries. -/
def MapEntry.visitsAll : List MapEntry → List Visit
  | [] => []
  | e :: es => e.visits ++ MapEntry.visitsAll es

/-- The nodes of a statement, the statement itself first. -/
def Stmt.visits : Stmt → List Visit
  | .expr e => .stmt (.expr e) :: e.visits
  | .declare n ty none s => [.stmt (.declare n ty none s)]
  | .declare n ty (some e) s => .stmt (.declare n ty (some e) s) :: e.visits
  | .ret none s => [.stmt (.ret none s)]
  | .ret (some e) s => .stmt (.ret (some e) s) :: e.visits
  | .cond c t none s => .stmt (.cond c t none s) :: (c.visits ++ .block t :: Stmt.visitsAll t)
  | .cond c t (some e) s =>
    .stmt (.cond c t (some e) s) ::
      (c.visits ++ .block t :: Stmt.visitsAll t ++ .block e :: Stmt.visitsAll e)
  | .throw e s => .stmt (.throw e s) :: e.visits
  | .block b => .stmt (.block b) :: .block b :: Stmt.visitsAll b

/-- The nodes of several statements, one after the other. -/
def Stmt.visitsAll : List Stmt → List Visit
  | [] => []
  | s :: ss => s.visits ++ Stmt.visitsAll ss

end

/-- The nodes of a block, the block itself first. -/
def Block.visits (b : Block) : List Visit := .block b :: Stmt.visitsAll b

namespace Visit

/-- The expression met, if it is one. -/
def expr? : Visit → Option Expr
  | expr e => some e
  | _ => none

/-- The variable met, if it is one. -/
def varName? : Visit → Option String
  | expr (.var n _ _) => some n
  | _ => none

/-- The variable name met: a reference to it or its declaration. -/
def variableName? : Visit → Option String
  | expr (.var n _ _) => some n
  | stmt (.declare n _ _ _) => some n
  | _ => none

end Visit

/-- The names of the variables that a block refers to or declares, each once, in the order in which
they are met. -/
def Block.variableNames (b : Block) : List String :=
  (b.visits.filterMap Visit.variableName?).eraseDups

end Metaobject
