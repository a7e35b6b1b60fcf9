import Mathlib.Logic.Basic
import Metaobject.Tree.Visit

/-!
# The variables that a block names

A variable is named where it is read or assigned and where it is declared. `Expr.NamesVar` and
`Stmt.NamesVar` say for every form of expression and statement where a name may stand: in receivers,
computed method names and arguments, in nested blocks and branches, and in the bodies of closures.
Annotations and the parameters of closures are no code of the block.

* `Block.mem_variableNames_iff`: the names collected from a block are those that it names.
-/

namespace Metaobject

/-! ## Naming a variable -/

mutual

/-- Whether an expression names a variable. -/
def Expr.NamesVar (n : String) : Expr → Prop
  | .constant .. | .field .. | .classRef .. | .annotationUse _ => False
  | .var name _ _ => name = n
  | .property o _ _ => o.NamesVar n
  | .closure _ body _ _ => Stmt.AnyNamesVar n body
  | .list es _ => Expr.AnyNamesVar n es
  | .map es _ => MapEntry.AnyNamesVar n es
  | .entry e => e.NamesVar n
  | .call o m args _ _ _ _ _ => o.NamesVar n ∨ m.NamesVar n ∨ Expr.AnyNamesVar n args
  | .staticCall _ _ _ args _ _ => Expr.AnyNamesVar n args
  | .construct _ args _ _ => Expr.AnyNamesVar n args
  | .binary _ l r _ => l.NamesVar n ∨ r.NamesVar n
  | .ternary c t e _ => c.NamesVar n ∨ t.NamesVar n ∨ e.NamesVar n
  | .index o i _ => o.NamesVar n ∨ i.NamesVar n
  | .spread e _ => e.NamesVar n
  | .array _ es _ => Expr.AnyNamesVar n es
  | .assign t v _ => t.NamesVar n ∨ v.NamesVar n

/-- One of the expressions names the variable. -/
def Expr.AnyNamesVar (n : String) : List Expr → Prop
  | [] => False
  | e :: es => e.NamesVar n ∨ Expr.AnyNamesVar n es

/-- Whether the expression that computes a method name names a variable. -/
def MethodName.NamesVar (n : String) : MethodName → Prop
  | .named _ => False
  | .computed e => e.NamesVar n

def MapEntry.NamesVar (n : String) : MapEntry → Prop
  | ⟨k, v, _⟩ => k.NamesVar n ∨ v.NamesVar n

def MapEntry.AnyNamesVar (n : String) : List MapEntry → Prop
  | [] => False
  | e :: es => e.NamesVar n ∨ MapEntry.AnyNamesVar n es

/-- Whether a statement names a variable; a declaration names the variable that it declares. -/
def Stmt.NamesVar (n : String) : Stmt → Prop
  | .expr e => e.NamesVar n
  | .declare name _ none _ => name = n
  | .declare name _ (some e) _ => name = n ∨ e.NamesVar n
  | .ret none _ => False
  | .ret (some e) _ => e.NamesVar n
  | .cond c t none _ => c.NamesVar n ∨ Stmt.AnyNamesVar n t
  | .cond c t (some e) _ => c.NamesVar n ∨ Stmt.AnyNamesVar n t ∨ Stmt.AnyNamesVar n e
  | .throw e _ => e.NamesVar n
  | .block b => Stmt.AnyNamesVar n b

/-- One of the statements names the variable. -/
def Stmt.AnyNamesVar (n : String) : List Stmt → Prop
  | [] => False
  | s :: ss => s.NamesVar n ∨ Stmt.AnyNamesVar n ss

end

/-! ## What a walk collects -/

/-- A walk meets a reference to the variable or its declaration. -/
def MeetsVar (n : String) (vs : List Visit) : Prop := ∃ v ∈ vs, v.variableName? = some n

section

variable {n : String} {vs ws : List Visit}

@[simp] theorem meetsVar_nil : MeetsVar n [] ↔ False := by simp [MeetsVar]

@[simp] theorem meetsVar_cons {v : Visit} :
    MeetsVar n (v :: vs) ↔ v.variableName? = some n ∨ MeetsVar n vs := by
  simp [MeetsVar]

@[simp] theorem meetsVar_append : MeetsVar n (vs ++ ws) ↔ MeetsVar n vs ∨ MeetsVar n ws := by
  simp [MeetsVar, or_and_right, exists_or]

end

mutual

/-- A walk over an expression meets the variables that the expression names. -/
theorem Expr.meetsVar_visits_iff (n : String) : (e : Expr) → (MeetsVar n e.visits ↔ e.NamesVar n)
  | .constant .. | .var .. | .field .. | .classRef .. | .annotationUse _ => by
    simp [Expr.visits, Expr.NamesVar, Visit.variableName?]
  | .property o .. =>
    by simp [Expr.visits, Expr.NamesVar, Visit.variableName?, o.meetsVar_visits_iff n]
  | .closure _ body _ _ => by
    simp [Expr.visits, Expr.NamesVar, Visit.variableName?, Stmt.meetsVar_visitsAll_iff n body]
  | .list es _ =>
    by simp [Expr.visits, Expr.NamesVar, Visit.variableName?, Expr.meetsVar_visitsAll_iff n es]
  | .map es _ =>
    by simp [Expr.visits, Expr.NamesVar, Visit.variableName?, MapEntry.meetsVar_visitsAll_iff n es]
  | .entry e => by simp [Expr.visits, Expr.NamesVar, Visit.variableName?, e.meetsVar_visits_iff n]
  | .call o m args .. => by
    simp [Expr.visits, Expr.NamesVar, Visit.variableName?, o.meetsVar_visits_iff n,
      m.meetsVar_visits_iff n, Expr.meetsVar_visitsAll_iff n args]
  | .staticCall _ _ _ args .. => by
    simp [Expr.visits, Expr.NamesVar, Visit.variableName?, Expr.meetsVar_visitsAll_iff n args]
  | .construct _ args .. => by
    simp [Expr.visits, Expr.NamesVar, Visit.variableName?, Expr.meetsVar_visitsAll_iff n args]
  | .binary _ l r _ => by
    simp [Expr.visits, Expr.NamesVar, Visit.variableName?, l.meetsVar_visits_iff n,
      r.meetsVar_visits_iff n]
  | .ternary c t e _ => by
    simp [Expr.visits, Expr.NamesVar, Visit.variableName?, c.meetsVar_visits_iff n,
      t.meetsVar_visits_iff n, e.meetsVar_visits_iff n]
  | .index o i _ => by
    simp [Expr.visits, Expr.NamesVar, Visit.variableName?, o.meetsVar_visits_iff n,
      i.meetsVar_visits_iff n]
  | .spread e _ =>
    by simp [Expr.visits, Expr.NamesVar, Visit.variableName?, e.meetsVar_visits_iff n]
  | .array _ es _ => by
    simp [Expr.visits, Expr.NamesVar, Visit.variableName?, Expr.meetsVar_visitsAll_iff n es]
  | .assign t v _ => by
    simp [Expr.visits, Expr.NamesVar, Visit.variableName?, t.meetsVar_visits_iff n,
      v.meetsVar_visits_iff n]

theorem Expr.meetsVar_visitsAll_iff (n : String) :
    (es : List Expr) → (MeetsVar n (Expr.visitsAll es) ↔ Expr.AnyNamesVar n es)
  | [] => by simp [Expr.visitsAll, Expr.AnyNamesVar]
  | e :: es => by
    simp [Expr.visitsAll, Expr.AnyNamesVar, e.meetsVar_visits_iff n,
      Expr.meetsVar_visitsAll_iff n es]

theorem MethodName.meetsVar_visits_iff (n : String) :
    (m : MethodName) → (MeetsVar n m.visits ↔ m.NamesVar n)
  | .named _ => by simp [MethodName.visits, MethodName.NamesVar]
  | .computed e => by simp [MethodName.visits, MethodName.NamesVar, e.meetsVar_visits_iff n]

theorem MapEntry.meetsVar_visits_iff (n : String) :
    (e : MapEntry) → (MeetsVar n e.visits ↔ e.NamesVar n)
  | ⟨k, v, _⟩ => by
    simp [MapEntry.visits, MapEntry.NamesVar, k.meetsVar_visits_iff n, v.meetsVar_visits_iff n]

theorem MapEntry.meetsVar_visitsAll_iff (n : String) :
    (es : List MapEntry) → (MeetsVar n (MapEntry.visitsAll es) ↔ MapEntry.AnyNamesVar n es)
  | [] => by simp [MapEntry.visitsAll, MapEntry.AnyNamesVar]
  | e :: es => by
    simp [MapEntry.visitsAll, MapEntry.AnyNamesVar, e.meetsVar_visits_iff n,
      MapEntry.meetsVar_visitsAll_iff n es]

/-- A walk over a statement meets the variables that the statement names. -/
theorem Stmt.meetsVar_visits_iff (n : String) : (s : Stmt) → (MeetsVar n s.visits ↔ s.NamesVar n)
  | .expr e => by simp [Stmt.visits, Stmt.NamesVar, Visit.variableName?, e.meetsVar_visits_iff n]
  | .declare _ _ none _ => by simp [Stmt.visits, Stmt.NamesVar, Visit.variableName?]
  | .declare _ _ (some e) _ =>
    by simp [Stmt.visits, Stmt.NamesVar, Visit.variableName?, e.meetsVar_visits_iff n]
  | .ret none _ => by simp [Stmt.visits, Stmt.NamesVar, Visit.variableName?]
  | .ret (some e) _ =>
    by simp [Stmt.visits, Stmt.NamesVar, Visit.variableName?, e.meetsVar_visits_iff n]
  | .cond c t none _ => by
    simp [Stmt.visits, Stmt.NamesVar, Visit.variableName?, c.meetsVar_visits_iff n,
      Stmt.meetsVar_visitsAll_iff n t]
  | .cond c t (some e) _ => by
    simp [Stmt.visits, Stmt.NamesVar, Visit.variableName?, c.meetsVar_visits_iff n,
      Stmt.meetsVar_visitsAll_iff n t, Stmt.meetsVar_visitsAll_iff n e]
  | .throw e _ => by simp [Stmt.visits, Stmt.NamesVar, Visit.variableName?, e.meetsVar_visits_iff n]
  | .block b =>
    by simp [Stmt.visits, Stmt.NamesVar, Visit.variableName?, Stmt.meetsVar_visitsAll_iff n b]

theorem Stmt.meetsVar_visitsAll_iff (n : String) :
    (ss : List Stmt) → (MeetsVar n (Stmt.visitsAll ss) ↔ Stmt.AnyNamesVar n ss)
  | [] => by simp [Stmt.visitsAll, Stmt.AnyNamesVar]
  | s :: ss => by
    simp [Stmt.visitsAll, Stmt.AnyNamesVar, s.meetsVar_visits_iff n,
      Stmt.meetsVar_visitsAll_iff n ss]

end

/-- The names collected from a block are those of the variables that it reads, assigns or
declares. -/
theorem Block.mem_variableNames_iff {n : String} {b : Block} :
    n ∈ Block.variableNames b ↔ Stmt.AnyNamesVar n b := by
  rw [Block.variableNames, List.mem_eraseDups, List.mem_filterMap]
  show MeetsVar n (.block b :: Stmt.visitsAll b) ↔ _
  simp [Visit.variableName?, Stmt.meetsVar_visitsAll_iff]

end Metaobject
