import Mathlib.Tactic.Tauto
import Metaobject.Proofs.Dispatch.Choices

/-!
# Marked classes mention classes of the table

A marker may hold class numbers. What code mentions is what it mentions without its markers, and
what the markers met in it mention; so marking a class of a confined table leaves the table
confined.

* `Expr.below_mentions_iff` and its companions: markers apart from the rest.
* `ClassTable.below_markMembers`: a marked class.
-/

namespace Metaobject

variable {n : Nat} {calls : Bool}

/-- Where the rest of a call mentions only numbers below the bound, so does its marker. -/
def MarksBelow (n : Nat) (calls : Bool) (vs : List Visit) : Prop :=
  ∀ e, .expr e ∈ vs → Below n (e.unmarked.mentions calls) → Below n (callIds calls none e.dispatch?)

section MarksBelow

variable {vs ws : List Visit} {e : Expr}

@[simp]
theorem marksBelow_nil : MarksBelow n calls [] := by simp [MarksBelow]

@[simp]
theorem marksBelow_append :
    MarksBelow n calls (vs ++ ws) ↔ MarksBelow n calls vs ∧ MarksBelow n calls ws := by
  simp only [MarksBelow, List.mem_append, or_imp, forall_and]

@[simp]
theorem marksBelow_flatMap {α : Type} {f : α → List Visit} {as : List α} :
    MarksBelow n calls (as.flatMap f) ↔ ∀ a ∈ as, MarksBelow n calls (f a) := by
  simp only [MarksBelow, List.mem_flatMap]
  exact ⟨fun h a ha e he => h e ⟨a, ha, he⟩, fun h e ⟨a, ha, he⟩ => h a ha e he⟩

/-- A marker is below the bound, provided that the rest of its call is. -/
theorem marksBelow_expr : MarksBelow n calls (.expr e :: vs) ↔
    (Below n (e.unmarked.mentions calls) → Below n (callIds calls none e.dispatch?)) ∧
      MarksBelow n calls vs := by
  simp only [MarksBelow, List.mem_cons, Visit.expr.injEq, or_imp, forall_and, forall_eq]

/-- What carries no marker says nothing. -/
theorem marksBelow_other (he : e.dispatch? = none) :
    MarksBelow n calls (.expr e :: vs) ↔ MarksBelow n calls vs := by
  rw [marksBelow_expr, he, callIds_none]
  simp

@[simp]
theorem marksBelow_stmt {s : Stmt} :
    MarksBelow n calls (.stmt s :: vs) ↔ MarksBelow n calls vs := by
  simp [MarksBelow]

@[simp]
theorem marksBelow_block {b : Block} :
    MarksBelow n calls (.block b :: vs) ↔ MarksBelow n calls vs := by
  simp [MarksBelow]

end MarksBelow

/-! ## Markers apart from the rest -/

/-- The method and the marker of a call can be looked at one by one. -/
theorem below_callIds {target : Option MethodTarget} {d : Option Dispatch} :
    Below n (callIds calls target d) ↔ Below n (callIds calls target none) ∧
      Below n (callIds calls none d) := by
  cases calls <;> simp [callIds]

mutual

/-- An expression stays below the bound exactly if it does without its markers and the markers
do. -/
theorem Expr.below_mentions_iff : (e : Expr) →
    (Below n (e.mentions calls) ↔ Below n (e.unmarked.mentions calls) ∧ MarksBelow n calls e.visits)
  | .constant .. | .var .. | .field .. | .classRef .. | .annotationUse _ => by
    rw [Expr.visits, marksBelow_other rfl]
    exact (and_iff_left marksBelow_nil).symm
  | .property o _ _ => by
    rw [Expr.visits, marksBelow_other rfl]
    exact o.below_mentions_iff
  | .closure ps body cs _ => by
    show _ ↔ Below n (Param.mentionsAll calls ps ++ Stmt.mentionsAll calls (Stmt.unmarkedAll body)
      ++ cs.flatMap (·.type.classIds)) ∧ _
    rw [Expr.visits, marksBelow_other rfl, marksBelow_block, Expr.mentions]
    simp only [below_append]
    rw [Stmt.belowAll_mentions_iff body]
    tauto
  | .list es _ => by
    rw [Expr.visits, marksBelow_other rfl]
    exact Expr.belowAll_mentions_iff es
  | .map es _ => by
    rw [Expr.visits, marksBelow_other rfl]
    exact MapEntry.belowAll_mentions_iff es
  | .entry e => by
    rw [Expr.visits, marksBelow_other rfl]
    exact e.below_mentions_iff
  | .call o m args i sf t d s => by
    -- the marker of the call itself counts only if the rest of the call is below the bound
    have hself : (Expr.call o m args i sf t d s).unmarked.mentions calls = o.unmarked.mentions calls
      ++ m.unmarked.mentions calls ++ Expr.mentionsAll calls (Expr.unmarkedAll args) ++ callIds
        calls t none := rfl
    rw [Expr.visits, marksBelow_expr, hself, Expr.mentions, below_append, below_callIds]
    simp only [Expr.dispatch?, below_append, marksBelow_append]
    rw [o.below_mentions_iff, m.below_mentions_iff, Expr.belowAll_mentions_iff args]
    tauto
  | .staticCall owner on m args d s => by
    have hself : (Expr.staticCall owner on m args d s).unmarked.mentions calls
      = owner :: Expr.mentionsAll calls (Expr.unmarkedAll args) ++ callIds calls none none := rfl
    rw [Expr.visits, marksBelow_expr, hself, Expr.mentions]
    simp only [Expr.dispatch?, below_append, below_cons, callIds_none, below_nil, and_true]
    rw [Expr.belowAll_mentions_iff args]
    tauto
  | .construct k args d s => by
    have hself : (Expr.construct k args d s).unmarked.mentions calls
      = k.classIds ++ Expr.mentionsAll calls (Expr.unmarkedAll args) ++ callIds calls none none :=
        rfl
    rw [Expr.visits, marksBelow_expr, hself, Expr.mentions]
    simp only [Expr.dispatch?, below_append, callIds_none, below_nil, and_true]
    rw [Expr.belowAll_mentions_iff args]
    tauto
  | .binary _ l r _ => by
    show _ ↔ Below n (l.unmarked.mentions calls ++ r.unmarked.mentions calls) ∧ _
    rw [Expr.visits, marksBelow_other rfl, marksBelow_append, Expr.mentions, below_append,
      below_append, l.below_mentions_iff, r.below_mentions_iff]
    tauto
  | .ternary c t e _ => by
    show _ ↔
      Below n (c.unmarked.mentions calls ++ t.unmarked.mentions calls
      ++ e.unmarked.mentions calls) ∧ _
    rw [Expr.visits, marksBelow_other rfl, Expr.mentions]
    simp only [marksBelow_append, below_append]
    rw [c.below_mentions_iff, t.below_mentions_iff, e.below_mentions_iff]
    tauto
  | .index o i _ => by
    show _ ↔ Below n (o.unmarked.mentions calls ++ i.unmarked.mentions calls) ∧ _
    rw [Expr.visits, marksBelow_other rfl, marksBelow_append, Expr.mentions, below_append,
      below_append, o.below_mentions_iff, i.below_mentions_iff]
    tauto
  | .spread e _ => by
    rw [Expr.visits, marksBelow_other rfl]
    exact e.below_mentions_iff
  | .array type es _ => by
    show _ ↔ Below n (type.classIds ++ Expr.mentionsAll calls (Expr.unmarkedAll es)) ∧ _
    rw [Expr.visits, marksBelow_other rfl, Expr.mentions, below_append, below_append,
      Expr.belowAll_mentions_iff es]
    tauto
  | .assign t v _ => by
    show _ ↔ Below n (t.unmarked.mentions calls ++ v.unmarked.mentions calls) ∧ _
    rw [Expr.visits, marksBelow_other rfl, marksBelow_append, Expr.mentions, below_append,
      below_append, t.below_mentions_iff, v.below_mentions_iff]
    tauto

theorem Expr.belowAll_mentions_iff : (es : List Expr) → (Below n (Expr.mentionsAll calls es) ↔
    Below n (Expr.mentionsAll calls (Expr.unmarkedAll es)) ∧ MarksBelow n calls (Expr.visitsAll es))
  | [] => (and_iff_left marksBelow_nil).symm
  | e :: es => by
    show _ ↔ Below n (e.unmarked.mentions calls ++ Expr.mentionsAll calls (Expr.unmarkedAll es)) ∧ _
    rw [Expr.visitsAll, marksBelow_append, Expr.mentionsAll, below_append, below_append,
      e.below_mentions_iff, Expr.belowAll_mentions_iff es]
    tauto

theorem MethodName.below_mentions_iff : (m : MethodName) →
    (Below n (m.mentions calls) ↔ Below n (m.unmarked.mentions calls) ∧ MarksBelow n calls m.visits)
  | .named _ => (and_iff_left marksBelow_nil).symm
  | .computed e => e.below_mentions_iff

theorem MapEntry.below_mentions_iff : (e : MapEntry) →
    (Below n (e.mentions calls) ↔ Below n (e.unmarked.mentions calls) ∧ MarksBelow n calls e.visits)
  | ⟨k, v, _⟩ => by
    show _ ↔ Below n (k.unmarked.mentions calls ++ v.unmarked.mentions calls) ∧ _
    rw [MapEntry.visits, marksBelow_append, MapEntry.mentions, below_append, below_append,
      k.below_mentions_iff, v.below_mentions_iff]
    tauto

theorem MapEntry.belowAll_mentions_iff :
    (es : List MapEntry) → (Below n (MapEntry.mentionsAll calls es) ↔
    Below n (MapEntry.mentionsAll calls (MapEntry.unmarkedAll es)) ∧
      MarksBelow n calls (MapEntry.visitsAll es))
  | [] => (and_iff_left marksBelow_nil).symm
  | e :: es => by
    show _ ↔ Below n
      (e.unmarked.mentions calls ++ MapEntry.mentionsAll calls (MapEntry.unmarkedAll es)) ∧ _
    rw [MapEntry.visitsAll, marksBelow_append, MapEntry.mentionsAll, below_append, below_append,
      e.below_mentions_iff, MapEntry.belowAll_mentions_iff es]
    tauto

theorem Stmt.below_mentions_iff : (s : Stmt) →
    (Below n (s.mentions calls) ↔ Below n (s.unmarked.mentions calls) ∧ MarksBelow n calls s.visits)
  | .expr e | .ret (some e) _ | .throw e _ => by
    rw [Stmt.visits, marksBelow_stmt]
    exact e.below_mentions_iff
  | .declare _ _ none _ | .ret none _ => by
    rw [Stmt.visits, marksBelow_stmt]
    exact (and_iff_left marksBelow_nil).symm
  | .declare _ type (some e) _ => by
    show _ ↔ Below n (type.classIds ++ e.unmarked.mentions calls) ∧ _
    rw [Stmt.visits, marksBelow_stmt, Stmt.mentions, below_append, below_append,
      e.below_mentions_iff]
    tauto
  | .cond c t none _ => by
    show _ ↔ Below n (c.unmarked.mentions calls ++ Stmt.mentionsAll calls (Stmt.unmarkedAll t)) ∧ _
    rw [Stmt.visits, marksBelow_stmt, marksBelow_append, marksBelow_block, Stmt.mentions,
      below_append, below_append, c.below_mentions_iff, Stmt.belowAll_mentions_iff t]
    tauto
  | .cond c t (some e) _ => by
    show _ ↔ Below n (c.unmarked.mentions calls ++ Stmt.mentionsAll calls (Stmt.unmarkedAll t)
      ++ Stmt.mentionsAll calls (Stmt.unmarkedAll e)) ∧ _
    rw [Stmt.visits, Stmt.mentions]
    simp only [marksBelow_stmt, marksBelow_append, marksBelow_block, below_append]
    rw [c.below_mentions_iff, Stmt.belowAll_mentions_iff t, Stmt.belowAll_mentions_iff e]
    tauto
  | .block b => by
    rw [Stmt.visits, marksBelow_stmt, marksBelow_block]
    exact Stmt.belowAll_mentions_iff b

theorem Stmt.belowAll_mentions_iff : (ss : List Stmt) → (Below n (Stmt.mentionsAll calls ss) ↔
    Below n (Stmt.mentionsAll calls (Stmt.unmarkedAll ss)) ∧ MarksBelow n calls (Stmt.visitsAll ss))
  | [] => (and_iff_left marksBelow_nil).symm
  | s :: ss => by
    show _ ↔ Below n (s.unmarked.mentions calls ++ Stmt.mentionsAll calls (Stmt.unmarkedAll ss)) ∧ _
    rw [Stmt.visitsAll, marksBelow_append, Stmt.mentionsAll, below_append, below_append,
      s.below_mentions_iff, Stmt.belowAll_mentions_iff ss]
    tauto

end

/-! ## Classes -/

theorem Field.below_mentions_iff (f : Field) :
    Below n (f.mentions calls) ↔ Below n (f.unmarked.mentions calls) ∧
      MarksBelow n calls f.nodes := by
  cases hinit : f.init with
  | none => simp [Field.mentions, Field.unmarked, Field.nodes, hinit]
  | some e =>
    simp only [Field.mentions, Field.unmarked, Field.nodes, hinit, Option.map_some,
      Option.elim_some, below_append]
    rw [e.below_mentions_iff]
    tauto

theorem Method.below_mentions_iff (m : Method) :
    Below n (m.mentions calls) ↔ Below n (m.unmarked.mentions calls) ∧
      MarksBelow n calls m.nodes := by
  cases hbody : m.body with
  | none => simp [Method.mentions, Method.unmarked, Method.nodes, hbody]
  | some body =>
    simp only [Method.mentions, Method.unmarked, Method.nodes, hbody, Option.map_some,
      Option.elim_some, below_append]
    rw [Stmt.belowAll_mentions_iff body, Block.visits, marksBelow_block]
    tauto

theorem Constructor.below_mentions_iff (k : Constructor) :
    Below n (k.mentions calls) ↔ Below n (k.unmarked.mentions calls) ∧
      MarksBelow n calls k.nodes := by
  simp only [Constructor.mentions, Constructor.unmarked, Constructor.nodes, below_append]
  rw [Stmt.belowAll_mentions_iff k.body, Block.visits, marksBelow_block]
  tauto

/-- What a class mentions: what it mentions without markers, and what its markers do. -/
theorem ClassDecl.below_mentions_iff (c : ClassDecl) :
    Below n (c.mentions calls) ↔ Below n (c.unmarked.mentions calls) ∧
      MarksBelow n calls c.nodes := by
  have hmembers {α : Type} {as : List α} {P Q R : α → Prop} (h : ∀ a, P a ↔ Q a ∧ R a) :
      (∀ a ∈ as, P a) ↔ (∀ a ∈ as, Q a) ∧ ∀ a ∈ as, R a := by
    simp only [h, imp_and, forall_and]
  simp only [mentions, unmarked, nodes, below_append, below_flatMap, marksBelow_append,
    marksBelow_flatMap, List.forall_mem_map]
  rw [hmembers Field.below_mentions_iff, hmembers Method.below_mentions_iff,
    hmembers Constructor.below_mentions_iff, Stmt.belowAll_mentions_iff c.staticInit]
  tauto

/-- A marked class mentions classes of the table only. -/
theorem ClassTable.below_markMembers {t : ClassTable} (hc : t.FiniteChains) (hb : t.Based)
    (ht : t.Confined calls) {caching : Bool} {id : ClassId} {c c' : ClassDecl} {keys : List SiteKey}
    (hget : t.get? id = some c) (h : (t.markMembers caching c).run [] = .ok (c', keys)) :
    Below t.size (c'.mentions calls) := by
  obtain ⟨hsame, hanswered⟩ := (markMembers_answers hc caching c).of_run h
  rw [c'.below_mentions_iff, hsame]
  refine ⟨(c.below_mentions_iff.mp (ht.get? hget)).1, fun e he hbelow => ?_⟩
  cases calls with
  | false => exact below_nil
  | true =>
    by_cases hcall : e.isCall
    · -- the marker is the choice for the call, which is the choice for the call without its marker
      obtain ⟨inStatic, choice, d, hchoice, hgives, hd⟩ := hanswered e he hcall
      have hid : c.id < t.size := hb.numbered id c hget ▸ lt_size_of_get? hget
      rw [← t.choice?_unmarked] at hchoice
      have hchosen : Below t.size choice.classIds := below_choice ht hb hid hbelow hchoice
      rw [hd]
      simpa [callIds, hgives.classIds] using hchosen
    · rw [Expr.dispatch?_of_not_isCall (by simpa using hcall)]
      exact below_nil

end Metaobject
