import Metaobject.Tree.Transform

/-!
# The two walks meet the same nodes

A tree is walked in two ways: `visits` lists the nodes that a reading walk meets, and `transform`
rebuilds the tree while it runs the hooks of a pass. Both are written out for every form of
expression and statement. They agree: a pass that only looks runs its hook on the nodes of `visits`,
in order, and gives back the tree as it was.

* `Expr.transform_of_looks`, `Stmt.transform_of_looks` and `Block.transform_of_looks` say so in any
  monad.
* `Block.walks_agree`: what a recording pass records of a block is what a reading walk meets there,
  and the variables of the block are those that the pass reaches or whose declarations it passes.
-/

namespace Metaobject

/-! ## Passes that only look -/

/-- A pass that renames no variable and leaves every marker. -/
structure Transformer.OnlyLooks {m : Type → Type} [Monad m] (w : Transformer m) : Prop where
  rename : ∀ n, w.rename n = pure n
  mark : ∀ e d, w.mark e d = pure d

section Looks

variable {m : Type → Type} [Monad m] [LawfulMonad m] {w : Transformer m}

mutual

/-- A pass that only looks runs over the nodes of an expression and changes nothing. -/
theorem Expr.transform_of_looks (hw : w.OnlyLooks) : (e : Expr) →
    e.transform w = (do forM e.visits w.look; return e)
  | .constant .. | .field .. | .classRef .. | .annotationUse _ =>
    by simp [Expr.transform, Expr.visits]
  | .var .. => by simp [Expr.transform, Expr.visits, hw.rename]
  | .property o n s => by simp [Expr.transform, Expr.visits, o.transform_of_looks hw]
  | .closure ps body cs s =>
    by simp [Expr.transform, Expr.visits, Stmt.transformAll_of_looks hw body]
  | .list es s => by simp [Expr.transform, Expr.visits, Expr.transformAll_of_looks hw es]
  | .map es s => by simp [Expr.transform, Expr.visits, MapEntry.transformAll_of_looks hw es]
  | .entry e => by simp [Expr.transform, Expr.visits, e.transform_of_looks hw]
  | .call o n args i sf t d s => by
    simp [Expr.transform, Expr.visits, hw.mark, o.transform_of_looks hw, n.transform_of_looks hw,
      Expr.transformAll_of_looks hw args]
  | .staticCall o on n args d s =>
    by simp [Expr.transform, Expr.visits, hw.mark, Expr.transformAll_of_looks hw args]
  | .construct k args d s =>
    by simp [Expr.transform, Expr.visits, hw.mark, Expr.transformAll_of_looks hw args]
  | .binary op l r s =>
    by simp [Expr.transform, Expr.visits, l.transform_of_looks hw, r.transform_of_looks hw]
  | .ternary c t e s => by
    simp [Expr.transform, Expr.visits, c.transform_of_looks hw, t.transform_of_looks hw,
      e.transform_of_looks hw]
  | .index o i s =>
    by simp [Expr.transform, Expr.visits, o.transform_of_looks hw, i.transform_of_looks hw]
  | .spread e s => by simp [Expr.transform, Expr.visits, e.transform_of_looks hw]
  | .array ty es s => by simp [Expr.transform, Expr.visits, Expr.transformAll_of_looks hw es]
  | .assign t v s =>
    by simp [Expr.transform, Expr.visits, t.transform_of_looks hw, v.transform_of_looks hw]

theorem Expr.transformAll_of_looks (hw : w.OnlyLooks) : (es : List Expr) →
    Expr.transformAll w es = (do forM (Expr.visitsAll es) w.look; return es)
  | [] => by simp [Expr.transformAll, Expr.visitsAll]
  | e :: es => by
    simp [Expr.transformAll, Expr.visitsAll, e.transform_of_looks hw,
      Expr.transformAll_of_looks hw es]

theorem MethodName.transform_of_looks (hw : w.OnlyLooks) : (n : MethodName) →
    n.transform w = (do forM n.visits w.look; return n)
  | .named _ => by simp [MethodName.transform, MethodName.visits]
  | .computed e => by simp [MethodName.transform, MethodName.visits, e.transform_of_looks hw]

theorem MapEntry.transform_of_looks (hw : w.OnlyLooks) : (e : MapEntry) →
    e.transform w = (do forM e.visits w.look; return e)
  | ⟨k, v, _⟩ =>
    by simp [MapEntry.transform, MapEntry.visits, k.transform_of_looks hw, v.transform_of_looks hw]

theorem MapEntry.transformAll_of_looks (hw : w.OnlyLooks) : (es : List MapEntry) →
    MapEntry.transformAll w es = (do forM (MapEntry.visitsAll es) w.look; return es)
  | [] => by simp [MapEntry.transformAll, MapEntry.visitsAll]
  | e :: es => by
    simp [MapEntry.transformAll, MapEntry.visitsAll, e.transform_of_looks hw,
      MapEntry.transformAll_of_looks hw es]

/-- A pass that only looks runs over the nodes of a statement and changes nothing. -/
theorem Stmt.transform_of_looks (hw : w.OnlyLooks) : (s : Stmt) →
    s.transform w = (do forM s.visits w.look; return s)
  | .declare _ _ none _ | .ret none _ => by simp [Stmt.transform, Stmt.visits]
  | .expr e | .declare _ _ (some e) _ | .ret (some e) _ | .throw e _ => by
    simp [Stmt.transform, Stmt.visits, e.transform_of_looks hw]
  | .cond c t none _ => by
    simp [Stmt.transform, Stmt.visits, c.transform_of_looks hw, Stmt.transformAll_of_looks hw t]
  | .cond c t (some e) _ => by
    simp [Stmt.transform, Stmt.visits, c.transform_of_looks hw, Stmt.transformAll_of_looks hw t,
      Stmt.transformAll_of_looks hw e]
  | .block b => by simp [Stmt.transform, Stmt.visits, Stmt.transformAll_of_looks hw b]

theorem Stmt.transformAll_of_looks (hw : w.OnlyLooks) : (ss : List Stmt) →
    Stmt.transformAll w ss = (do forM (Stmt.visitsAll ss) w.look; return ss)
  | [] => by simp [Stmt.transformAll, Stmt.visitsAll]
  | s :: ss => by
    simp [Stmt.transformAll, Stmt.visitsAll, s.transform_of_looks hw,
      Stmt.transformAll_of_looks hw ss]

end

theorem Block.transform_of_looks (hw : w.OnlyLooks) (b : Block) :
    Block.transform w b = (do forM (Block.visits b) w.look; return b) := by
  simp [Block.transform, Block.visits, Stmt.transformAll_of_looks hw b]

end Looks

/-! ## Passes that record -/

/-- The statement met, if it is one. -/
def Visit.stmt? : Visit → Option Stmt
  | stmt s => some s
  | _ => none

section Records

variable {β : Type} (pick : Visit → Option β)

/-- The pass that only records the nodes it meets, as far as they are picked. -/
def Transformer.record : Transformer (StateM (List β)) where
  look v := (pick v).forM fun b => modify (· ++ [b])

/-- What a recording pass makes of a block, with the record. -/
def Block.recorded (b : Block) : Block × List β := (Block.transform (.record pick) b).run []

theorem Transformer.onlyLooks_record : (Transformer.record pick).OnlyLooks where
  rename _ := rfl
  mark _ _ := rfl

/-- Looking at a node records what is picked. -/
theorem Transformer.run_look_record (v : Visit) (log : List β) :
    ((Transformer.record pick).look v).run log = ((), log ++ (pick v).toList) := by
  show StateT.run ((pick v).forM fun b => modify (· ++ [b])) log = _
  cases pick v with
  | none => exact congrArg (Prod.mk ()) (List.append_nil log).symm
  | some b => rfl

/-- The record grows by what is picked of the nodes met. -/
theorem Transformer.run_record (vs : List Visit) (log : List β) :
    (forM vs (Transformer.record pick).look).run log = ((), log ++ vs.filterMap pick) := by
  induction vs generalizing log with
  | nil => exact congrArg (Prod.mk ()) (List.append_nil log).symm
  | cons v vs ih =>
    rw [List.forM_cons, StateT.run_bind, run_look_record]
    refine (ih (log ++ (pick v).toList)).trans ?_
    cases hv : pick v <;> simp [hv]

/-- A recording pass leaves a block as it is and records what a reading walk meets. -/
theorem Block.recorded_eq (b : Block) : b.recorded pick = (b, (Block.visits b).filterMap pick) := by
  unfold recorded
  rw [Block.transform_of_looks (Transformer.onlyLooks_record pick), StateT.run_bind,
    Transformer.run_record]
  rfl

end Records

/-! ## The variables of a block -/

theorem nodup_eraseDups {α : Type} [BEq α] [LawfulBEq α] : (as : List α) → as.eraseDups.Nodup
  | [] => List.nodup_nil
  | a :: as => by
    rw [List.eraseDups_cons, List.nodup_cons]
    refine ⟨?_, nodup_eraseDups _⟩
    rw [List.mem_eraseDups, List.mem_filter]
    rintro ⟨-, hother⟩
    simp at hother
termination_by as => as.length
decreasing_by exact Nat.lt_succ_of_le (List.length_filter_le _ _)

/-- A variable is named where it is used and where it is declared. -/
theorem Visit.variableName?_eq_some_iff {v : Visit} {n : String} :
    v.variableName? = some n ↔
      (∃ binding span, v.expr? = some (.var n binding span)) ∨
        ∃ type init span, v.stmt? = some (.declare n type init span) := by
  cases v with
  | block b => simp [variableName?, expr?, stmt?]
  | stmt s => cases s <;> simp [variableName?, expr?, stmt?]
  | expr e => cases e <;> simp [variableName?, expr?, stmt?]

/-- The reading walk and the rewriting walk see the same tree. A rewriting pass that only records
the expressions it meets leaves the block as it is and records the expressions that a reading walk
meets, node for node and in order. So the variables of the block, each listed once, are the
variables that a rewriting pass reaches and those whose declarations it passes. -/
theorem Block.walks_agree (b : Block) :
    b.recorded Visit.expr? = (b, (Block.visits b).filterMap Visit.expr?) ∧
      (Block.variableNames b).Nodup ∧
      ∀ n, n ∈ Block.variableNames b ↔
        (∃ binding span, Expr.var n binding span ∈ (b.recorded Visit.expr?).2) ∨
          ∃ type init span, Stmt.declare n type init span ∈ (b.recorded Visit.stmt?).2 := by
  refine ⟨Block.recorded_eq Visit.expr? b, nodup_eraseDups _, fun n => ?_⟩
  rw [Block.recorded_eq, Block.recorded_eq, Block.variableNames, List.mem_eraseDups]
  simp only [List.mem_filterMap, Visit.variableName?_eq_some_iff]
  constructor
  · rintro ⟨v, hv, ⟨binding, span, he⟩ | ⟨type, init, span, hs⟩⟩
    · exact .inl ⟨binding, span, v, hv, he⟩
    · exact .inr ⟨type, init, span, v, hv, hs⟩
  · rintro (⟨binding, span, v, hv, he⟩ | ⟨type, init, span, v, hv, hs⟩)
    · exact ⟨v, hv, .inl ⟨binding, span, he⟩⟩
    · exact ⟨v, hv, .inr ⟨type, init, span, hs⟩⟩

end Metaobject
