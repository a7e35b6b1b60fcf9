import Metaobject.Completion
import Metaobject.Proofs.Dispatch.Erasure

/-!
# Marking marked code

A marking walk reads no marker, neither of the call that it marks nor of the rest of the table. So
the result of marking depends on a class and its table without markers only, and marking a second
time changes nothing.

* `Expr.transform_unmarked`: a walk that reads no marker does the same to code without markers.
* `markMembers_congr`: tables and classes that agree up to markers are marked alike.
* `CompilationUnit.markClasses_settles`: marking the same classes again changes nothing and collects
  the same site tables.
-/

namespace Metaobject

/-! ## Walks that read no marker -/

/-- A walk that does the same at a call whatever markers it meets there. -/
structure Transformer.Blind {m : Type → Type} [Monad m] (w : Transformer m) : Prop where
  look : ∀ v, w.look v = pure ()
  mark : ∀ e, e.isCall → w.mark e.unmarked none = w.mark e e.dispatch?

section Blind

variable {m : Type → Type} [Monad m] {w : Transformer m}

mutual

/-- A walk that reads no marker does the same to code without markers. -/
theorem Expr.transform_unmarked (hw : w.Blind) : (e : Expr) → e.unmarked.transform w = e.transform w
  | .constant .. | .field .. | .classRef .. | .annotationUse _ | .var .. => rfl
  | .property o n s => by
    show Expr.transform w (.property o.unmarked n s) = _
    simp only [Expr.transform, hw.look, o.transform_unmarked hw]
  | .closure ps body cs s => by
    show Expr.transform w (.closure ps (Stmt.unmarkedAll body) cs s) = _
    simp only [Expr.transform, hw.look, Stmt.transformAll_unmarked hw body]
  | .list es s => by
    show Expr.transform w (.list (Expr.unmarkedAll es) s) = _
    simp only [Expr.transform, hw.look, Expr.transformAll_unmarked hw es]
  | .map es s => by
    show Expr.transform w (.map (MapEntry.unmarkedAll es) s) = _
    simp only [Expr.transform, hw.look, MapEntry.transformAll_unmarked hw es]
  | .entry e => by
    show Expr.transform w (.entry e.unmarked) = _
    simp only [Expr.transform, hw.look, e.transform_unmarked hw]
  | .call o n args i sf t d s => by
    -- the marker itself is the one thing that the induction hypotheses do not cover
    have hmark := hw.mark (.call o n args i sf t d s) rfl
    show Expr.transform w (.call o.unmarked n.unmarked (Expr.unmarkedAll args) i sf t none s) = _
    simp only [Expr.transform, hw.look, o.transform_unmarked hw, n.transform_unmarked hw,
      Expr.transformAll_unmarked hw args]
    exact congrArg (fun x => pure () >>= fun _ => x >>= _) hmark
  | .staticCall o on n args d s => by
    have hmark := hw.mark (.staticCall o on n args d s) rfl
    show Expr.transform w (.staticCall o on n (Expr.unmarkedAll args) none s) = _
    simp only [Expr.transform, hw.look, Expr.transformAll_unmarked hw args]
    exact congrArg (fun x => pure () >>= fun _ => x >>= _) hmark
  | .construct k args d s => by
    have hmark := hw.mark (.construct k args d s) rfl
    show Expr.transform w (.construct k (Expr.unmarkedAll args) none s) = _
    simp only [Expr.transform, hw.look, Expr.transformAll_unmarked hw args]
    exact congrArg (fun x => pure () >>= fun _ => x >>= _) hmark
  | .binary op l r s => by
    show Expr.transform w (.binary op l.unmarked r.unmarked s) = _
    simp only [Expr.transform, hw.look, l.transform_unmarked hw, r.transform_unmarked hw]
  | .ternary c t e s => by
    show Expr.transform w (.ternary c.unmarked t.unmarked e.unmarked s) = _
    simp only [Expr.transform, hw.look, c.transform_unmarked hw, t.transform_unmarked hw,
      e.transform_unmarked hw]
  | .index o i s => by
    show Expr.transform w (.index o.unmarked i.unmarked s) = _
    simp only [Expr.transform, hw.look, o.transform_unmarked hw, i.transform_unmarked hw]
  | .spread e s => by
    show Expr.transform w (.spread e.unmarked s) = _
    simp only [Expr.transform, hw.look, e.transform_unmarked hw]
  | .array ty es s => by
    show Expr.transform w (.array ty (Expr.unmarkedAll es) s) = _
    simp only [Expr.transform, hw.look, Expr.transformAll_unmarked hw es]
  | .assign t v s => by
    show Expr.transform w (.assign t.unmarked v.unmarked s) = _
    simp only [Expr.transform, hw.look, t.transform_unmarked hw, v.transform_unmarked hw]

theorem Expr.transformAll_unmarked (hw : w.Blind) : (es : List Expr) →
    Expr.transformAll w (Expr.unmarkedAll es) = Expr.transformAll w es
  | [] => rfl
  | e :: es => by
    show Expr.transformAll w (e.unmarked :: Expr.unmarkedAll es) = _
    simp only [Expr.transformAll, e.transform_unmarked hw, Expr.transformAll_unmarked hw es]

theorem MethodName.transform_unmarked (hw : w.Blind) :
    (n : MethodName) → n.unmarked.transform w = n.transform w
  | .named _ => rfl
  | .computed e => by
    show MethodName.transform w (.computed e.unmarked) = _
    simp only [MethodName.transform, e.transform_unmarked hw]

theorem MapEntry.transform_unmarked (hw : w.Blind) :
    (e : MapEntry) → e.unmarked.transform w = e.transform w
  | ⟨k, v, s⟩ => by
    show MapEntry.transform w ⟨k.unmarked, v.unmarked, s⟩ = _
    simp only [MapEntry.transform, k.transform_unmarked hw, v.transform_unmarked hw]

theorem MapEntry.transformAll_unmarked (hw : w.Blind) : (es : List MapEntry) →
    MapEntry.transformAll w (MapEntry.unmarkedAll es) = MapEntry.transformAll w es
  | [] => rfl
  | e :: es => by
    show MapEntry.transformAll w (e.unmarked :: MapEntry.unmarkedAll es) = _
    simp only [MapEntry.transformAll, e.transform_unmarked hw, MapEntry.transformAll_unmarked hw es]

theorem Stmt.transform_unmarked (hw : w.Blind) : (s : Stmt) → s.unmarked.transform w = s.transform w
  | .expr e => by
    show Stmt.transform w (.expr e.unmarked) = _
    simp only [Stmt.transform, hw.look, e.transform_unmarked hw]
  | .declare _ _ none _ | .ret none _ => rfl
  | .declare n ty (some e) s => by
    show Stmt.transform w (.declare n ty (some e.unmarked) s) = _
    simp only [Stmt.transform, hw.look, e.transform_unmarked hw]
  | .ret (some e) s => by
    show Stmt.transform w (.ret (some e.unmarked) s) = _
    simp only [Stmt.transform, hw.look, e.transform_unmarked hw]
  | .cond c t none s => by
    show Stmt.transform w (.cond c.unmarked (Stmt.unmarkedAll t) none s) = _
    simp only [Stmt.transform, hw.look, c.transform_unmarked hw, Stmt.transformAll_unmarked hw t]
  | .cond c t (some e) s => by
    show Stmt.transform w (.cond c.unmarked (Stmt.unmarkedAll t) (some (Stmt.unmarkedAll e)) s) = _
    simp only [Stmt.transform, hw.look, c.transform_unmarked hw, Stmt.transformAll_unmarked hw t,
      Stmt.transformAll_unmarked hw e]
  | .throw e s => by
    show Stmt.transform w (.throw e.unmarked s) = _
    simp only [Stmt.transform, hw.look, e.transform_unmarked hw]
  | .block b => by
    show Stmt.transform w (.block (Stmt.unmarkedAll b)) = _
    simp only [Stmt.transform, hw.look, Stmt.transformAll_unmarked hw b]

theorem Stmt.transformAll_unmarked (hw : w.Blind) : (ss : List Stmt) →
    Stmt.transformAll w (Stmt.unmarkedAll ss) = Stmt.transformAll w ss
  | [] => rfl
  | s :: ss => by
    show Stmt.transformAll w (s.unmarked :: Stmt.unmarkedAll ss) = _
    simp only [Stmt.transformAll, s.transform_unmarked hw, Stmt.transformAll_unmarked hw ss]

end

end Blind

/-! ## The walk reads no marker -/

namespace ClassTable

variable (t : ClassTable) (caching : Bool)

/-- The walk that marks calls does not look at their markers. -/
theorem markingWalk_blind (ctx : CallContext) : (t.markingWalk caching ctx).Blind where
  look _ := rfl
  mark e he := t.marker_congr caching he (t.choice?_unmarked caching ctx e) e.dispatch? none

theorem markingWalk_outline (ctx : CallContext) :
    t.outline.markingWalk caching ctx = t.markingWalk caching ctx := by
  have hmarker : t.outline.marker caching ctx = t.marker caching ctx := by
    funext e previous
    rw [marker, marker, choice?_outline]
  rw [markingWalk, markingWalk, hmarker]

/-! ## Classes and tables up to markers -/

/-- Marking a class does not depend on the markers that it has. -/
theorem markMembers_unmarked (c : ClassDecl) :
    t.markMembers caching c.unmarked = t.markMembers caching c := by
  have hwalk (inStatic : Bool) := t.markingWalk_blind caching ⟨c.id, inStatic⟩
  have hmembers {α : Type} (f : α → Marking α) (strip : α → α) (as : List α)
    (h : ∀ a, f (strip a) = f a) :
      (as.map strip).mapM f = as.mapM f := by
    rw [List.mapM_map]
    exact congrArg (as.mapM ·) (funext h)
  -- fields, constructors, methods and the static initializer, in the order of the walk
  refine congrArg₂ (· >>= ·) (hmembers _ Field.unmarked c.fields ?_) (funext fun fs => ?_)
  · rintro ⟨name, modifiers, type, init, annotations, span⟩
    cases init with
    | none => rfl
    | some e => exact congrArg (· >>= _) (e.transform_unmarked (hwalk _))
  refine congrArg₂ (· >>= ·) (hmembers _ Constructor.unmarked c.constructors ?_)
    (funext fun ks => ?_)
  · exact fun k => congrArg (· >>= _) (Stmt.transformAll_unmarked (hwalk false) k.body)
  refine congrArg₂ (· >>= ·) (hmembers _ Method.unmarked c.methods ?_) (funext fun ms => ?_)
  · rintro ⟨name, modifiers, type, params, body, default, annotations, span⟩
    cases body with
    | none => rfl
    | some b => exact congrArg (· >>= _) (Stmt.transformAll_unmarked (hwalk _) b)
  exact congrArg (· >>= _) (Stmt.transformAll_unmarked (hwalk true) c.staticInit)

/-- Marking a class only depends on the outline of the table. -/
theorem markMembers_outline (c : ClassDecl) :
    t.outline.markMembers caching c = t.markMembers caching c := by
  simp only [markMembers, markingWalk_outline]

/-- A table without the markers in its code. -/
def unmarked : ClassTable := ⟨t.classes.map ClassDecl.unmarked⟩

theorem get?_unmarked (id : ClassId) : t.unmarked.get? id = (t.get? id).map ClassDecl.unmarked := by
  rw [get?, unmarked, List.getElem?_map, get?]

/-- Taking markers away keeps the outline. -/
theorem outline_unmarked : t.unmarked.outline = t.outline := by
  have hclass (c : ClassDecl) : c.unmarked.outline = c.outline := by
    simp [ClassDecl.outline, ClassDecl.unmarked, Function.comp_def, Field.outline, Field.unmarked,
      Method.outline, Method.unmarked, Constructor.outline, Constructor.unmarked]
  simp [outline, unmarked, Function.comp_def, hclass]

variable {t} {t' : ClassTable} {caching} {id : ClassId} {c c' : ClassDecl}

/-- A class that only changes its markers leaves the rest of the table. -/
theorem unmarked_set (hget : t.get? id = some c) (h : c'.unmarked = c.unmarked) :
    (t.set id c').unmarked = t.unmarked := by
  have hself : t.unmarked.get? id = some c'.unmarked := by rw [get?_unmarked, hget, h]; rfl
  rw [unmarked, set, List.map_set]
  exact set_get? hself

/-- Tables that agree up to markers have classes that agree up to markers. -/
theorem unmarked_get? (h : t'.unmarked = t.unmarked) (hget : t.get? id = some c) :
    ∃ c', t'.get? id = some c' ∧ c'.unmarked = c.unmarked := by
  have hclass : (t'.get? id).map ClassDecl.unmarked = some c.unmarked := by
    rw [← get?_unmarked, h, get?_unmarked, hget]
    rfl
  exact Option.map_eq_some_iff.mp hclass

theorem related_of_unmarked (h : t'.unmarked = t.unmarked) :
    t.Related (fun c c' => c'.unmarked = c.unmarked) t' := by
  have hclasses : t'.classes.map ClassDecl.unmarked = t.classes.map ClassDecl.unmarked :=
    congrArg ClassTable.classes h
  rw [← List.forall₂_eq_eq_eq, List.forall₂_map_left_iff, List.forall₂_map_right_iff] at hclasses
  exact List.Forall₂.flip hclasses

/-- Tables and classes that agree up to markers are marked alike. -/
theorem markMembers_congr (ht : t'.unmarked = t.unmarked) (hc : c'.unmarked = c.unmarked) :
    t'.markMembers caching c' = t.markMembers caching c := by
  rw [← markMembers_unmarked, ← markMembers_outline, ← outline_unmarked, hc, ht, outline_unmarked,
    markMembers_outline, markMembers_unmarked]

/-- Chains of superclasses do not depend on markers. -/
theorem finiteChains_of_unmarked (h : t'.unmarked = t.unmarked) (hc : t.FiniteChains) :
    t'.FiniteChains := by
  have hsuper (id : ClassId) : t'.superclassOf id = t.superclassOf id := by
    rw [← superclassOf_outline, ← outline_unmarked, h, outline_unmarked, superclassOf_outline]
  rw [FiniteChains] at *
  simpa only [hsuper] using hc

/-! ## Marking twice -/

/-- Marking this class of the table changes nothing. -/
def Settled (t : ClassTable) (caching : Bool) (id : ClassId) : Prop :=
  ∃ c keys, t.get? id = some c ∧ (t.markMembers caching c).run [] = .ok (c, keys)

/-- A settled class stays settled as long as only markers of other classes change. -/
theorem Settled.congr (h : t.Settled caching id) (ht : t'.unmarked = t.unmarked)
    (hget : t'.get? id = t.get? id) : t'.Settled caching id := by
  obtain ⟨c, keys, hc, hrun⟩ := h
  exact ⟨c, keys, hget.trans hc, by rw [markMembers_congr ht rfl, hrun]⟩

/-- A marked class is settled, and classes that were settled before stay as they are. -/
theorem settled_set {keys : List SiteKey} (hget : t.get? id = some c)
    (hrun : (t.markMembers caching c).run [] = .ok (c', keys)) (hsame : c'.unmarked = c.unmarked) :
    (t.set id c').Settled caching id ∧
      ∀ j, t.Settled caching j → (t.set id c').get? j = t.get? j := by
  have hself := get?_set_self hget c'
  refine ⟨⟨c', keys, hself, ?_⟩, ?_⟩
  · rw [markMembers_congr (unmarked_set hget hsame) hsame, hrun]
  · rintro j ⟨d, keys', hd, hrun'⟩
    rw [get?_set]
    split
    · -- the class was settled before, so marking it gave it back
      rename_i hj
      obtain rfl : c = d := Option.some.inj (hget.symm.trans (hj.1 ▸ hd))
      rw [hrun] at hrun'
      rw [hd]
      cases hrun'
      rfl
    · rfl

end ClassTable

open ClassTable in
/-- Marking succeeds, changes markers only and settles every class; the log plays no part in it. Any
table that agrees with the first one up to markers and has these classes settled is left alone, and
yields the same site tables. -/
theorem CompilationUnit.markClasses_settles (caching : Bool) :
    ∀ (ids : List ClassId) (t : ClassTable),
    t.FiniteChains → (∀ id ∈ ids, ∃ c, t.get? id = some c) →
    ∃ t' sites, (∀ log, markClasses caching ids ⟨t, log⟩ = .ok (⟨t', log⟩, sites)) ∧
      t'.unmarked = t.unmarked ∧
      (∀ id ∈ ids, t'.Settled caching id) ∧ (∀ id, t.Settled caching id → t'.get? id = t.get? id) ∧
      ∀ v log, v.unmarked = t.unmarked → (∀ id ∈ ids, v.Settled caching id) →
        markClasses caching ids ⟨v, log⟩ = .ok (⟨v, log⟩, sites)
  | [], t, _, _ => ⟨t, [], fun _ => rfl, rfl, by simp, fun _ _ => rfl, fun _ _ _ _ => rfl⟩
  | id :: ids, t, hc, hids => by
    -- the first class is marked, and the others are marked in the table that results
    obtain ⟨c, hget⟩ := hids id List.mem_cons_self
    obtain ⟨c', keys, hrun, hsame, -⟩ := markMembers_marks hc caching c
    have hmarked := unmarked_set hget hsame
    obtain ⟨hsettled, hkept⟩ := settled_set hget hrun hsame
    have hids' : ∀ j ∈ ids, ∃ c, (t.set id c').get? j = some c := by
      intro j hj
      obtain ⟨d, hd⟩ := hids j (List.mem_cons_of_mem _ hj)
      obtain ⟨d', hd', -⟩ := unmarked_get? hmarked hd
      exact ⟨d', hd'⟩
    obtain ⟨t', sites, hrest, hunmarked, hall, hkept', hagain⟩ :=
      markClasses_settles caching ids (t.set id c') (finiteChains_of_unmarked hmarked hc) hids'
    refine ⟨t', (id, ⟨c.name, keys⟩) :: sites, fun log => ?_, hunmarked.trans hmarked, ?_, ?_, ?_⟩
    · rw [markClasses, markClass_of_run hget hrun]
      show (markClasses caching ids ⟨t.set id c', log⟩ >>= _) = _
      rw [hrest]
      rfl
    · intro j hj
      rcases List.mem_cons.mp hj with rfl | hj
      · -- marking the others leaves a settled class alone
        exact hsettled.congr hunmarked (hkept' _ hsettled)
      · exact hall j hj
    · intro j hj
      have hstay := hkept j hj
      rw [hkept' j (hj.congr hmarked hstay), hstay]
    · -- a settled version of the class is the version that marking the first table made
      intro v log hv hvs
      obtain ⟨d, keys', hd, hdrun⟩ := hvs id List.mem_cons_self
      obtain ⟨d', hd', hdsame⟩ := unmarked_get? hv hget
      obtain rfl : d = d' := Option.some.inj (hd.symm.trans hd')
      have hboth : (Except.ok (d, keys') : Except Fault _) = .ok (c', keys) := by
        rw [← hdrun, ← hrun, markMembers_congr hv hdsame]
      obtain ⟨rfl, rfl⟩ : d = c' ∧ keys' = keys := by simpa using hboth
      have hname : d.unmarked.name = c.unmarked.name := by rw [hdsame]
      change d.name = c.name at hname
      rw [markClasses, markClass_of_run hd hdrun, set_get? hd]
      show (markClasses caching ids ⟨v, log⟩ >>= _) = _
      rw [hagain v log (hv.trans hmarked.symm) fun j hj => hvs j (List.mem_cons_of_mem _ hj), hname]
      rfl

end Metaobject
