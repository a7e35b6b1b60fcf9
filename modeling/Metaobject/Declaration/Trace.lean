import Metaobject.Declaration.Walk
import Metaobject.Tree.Kind

/-!
# Traces of walks

What a walk over a class meets, as lines of text. A trace shows the order of a walk.
-/

namespace Metaobject

/-- The lines for an expression: one for every expression, and a second one for variables, calls and
closures. -/
def Expr.traceLines (e : Expr) : List String :=
  ("expr " ++ e.kindWord) :: match e with
    | .var name _ _ => ["variable " ++ name]
    | .call _ method .. => ["call " ++ method.known?.getD "<dynamic>"]
    | .construct kind .. => ["ctor " ++ kind.word]
    | .closure params .. => ["closure/" ++ toString params.length]
    | _ => []

/-- The lines for something met on a walk. -/
def ClassVisit.traceLines : ClassVisit → List String
  | classDecl c => ["class " ++ c.name]
  | field f => ["field " ++ f.name]
  | constructor k => ["constructor/" ++ toString k.arity]
  | method m => ["method " ++ m.name ++ "/" ++ toString m.arity]
  | node (.block b) => ["block " ++ toString b.length]
  | node (.stmt s) => ["stmt " ++ s.kindWord]
  | node (.expr e) => e.traceLines

namespace ClassDecl

/-- The trace of a walk over a class. -/
def trace (c : ClassDecl) : List String := c.visits.flatMap ClassVisit.traceLines

/-- The variables that a walk over a class meets. -/
def varNames (c : ClassDecl) : List String :=
  c.visits.filterMap fun
    | .node v => v.varName?
    | _ => none

/-- Rename the variables in the bodies of a class. The kinds of the expressions met come with it. -/
def renameVariables (rename : String → String) (c : ClassDecl) : ClassDecl × List String :=
  let walk : Transformer (StateM (List String)) := {
    look := fun v => v.expr?.forM fun e => modify (e.kindWord :: ·)
    rename := fun name => return rename name }
  let (c, kinds) := (c.transformBodies walk).run []
  (c, kinds.reverse)

end ClassDecl

end Metaobject
