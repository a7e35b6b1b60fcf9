import Metaobject.Proofs.ClassTable.Overlay
import Metaobject.Proofs.Dispatch.Remarking

/-!
# Marking depends on no marker

Two tables that differ in markers only are marked alike: the walk over a class writes the same
markers and registers the same call sites in both. What a class is marked with does not depend on
which other classes have been marked, so the order in which the classes of a unit are marked plays
no part.

* `ClassTable.erased` is a table without any marker, `ClassDecl.onWalk` a class with only the
  markers that a walk meets.
* `markMembers_erased`: marking an erased class makes of it what marking makes of the class, on the
  walk.
* `markClasses_overlay`: marking several classes puts each of them into its marked version.
* `markClass_depends_on_no_marker`: both tables side by side, and all orders.
-/

namespace Metaobject

/-! ## Classes and tables without any marker -/

/-- A field without markers, or with `keep` without those that no walk meets. -/
def Field.erased (keep : Bool) (f : Field) : Field :=
  { f with
    init := f.init.map (Expr.erased keep), annotations := AnnotationUse.erasedAll f.annotations }

/-- A constructor without markers, or with `keep` without those that no walk meets. -/
def Constructor.erased (keep : Bool) (k : Constructor) : Constructor :=
  { k with
    params := Param.erasedAll k.params
    body := Stmt.erasedAll keep k.body
    annotations := AnnotationUse.erasedAll k.annotations }

/-- A method without markers, or with `keep` without those that no walk meets. -/
def Method.erased (keep : Bool) (m : Method) : Method :=
  { m with
    params := Param.erasedAll m.params
    body := m.body.map (Stmt.erasedAll keep)
    default := m.default.map (Expr.erased false)
    annotations := AnnotationUse.erasedAll m.annotations }

/-- Take the markers away: all of them, or with `keep` only those that a walk over the class does
not meet. -/
def ClassDecl.erased (keep : Bool) (c : ClassDecl) : ClassDecl :=
  { c with
    fields := c.fields.map (Field.erased keep)
    constructors := c.constructors.map (Constructor.erased keep)
    methods := c.methods.map (Method.erased keep)
    staticInit := Stmt.erasedAll keep c.staticInit
    annotations := AnnotationUse.erasedAll c.annotations }

/-- A class with only the markers that a walk over it meets. -/
def ClassDecl.onWalk (c : ClassDecl) : ClassDecl := c.erased true

/-- A table without any marker. -/
def ClassTable.erased (t : ClassTable) : ClassTable := ⟨t.classes.map (ClassDecl.erased false)⟩

theorem Param.outline_erased (p : Param) : p.erased.outline = p.outline := by
  obtain ⟨name, type, default, annotations, span⟩ := p
  cases default <;> rfl

theorem Param.map_outline_erasedAll (ps : List Param) :
    (Param.erasedAll ps).map Param.outline = ps.map Param.outline := by
  induction ps with
  | nil => rfl
  | cons p ps ih => rw [Param.erasedAll, List.map_cons, List.map_cons, p.outline_erased, ih]

/-- Markers that are taken away by the walk need not be erased. -/
theorem ClassDecl.erased_unmarked (c : ClassDecl) : c.unmarked.erased false = c.erased false := by
  have hfield (f : Field) : f.unmarked.erased false = f.erased false := by
    have hinit : (f.init.map Expr.unmarked).map (Expr.erased false) =
      f.init.map (Expr.erased false) := by
      simp [Function.comp_def, Expr.erased_unmarked]
    simp [Field.erased, Field.unmarked, hinit]
  have hconstructor (k : Constructor) : k.unmarked.erased false = k.erased false := by
    simp [Constructor.erased, Constructor.unmarked, Stmt.erasedAll_unmarked]
  have hmethod (m : Method) : m.unmarked.erased false = m.erased false := by
    have hbody : (m.body.map Stmt.unmarkedAll).map (Stmt.erasedAll false) =
      m.body.map (Stmt.erasedAll false) := by
      simp [Function.comp_def, Stmt.erasedAll_unmarked]
    simp [Method.erased, Method.unmarked, hbody]
  simp [ClassDecl.erased, ClassDecl.unmarked, Function.comp_def, hfield, hconstructor, hmethod,
    Stmt.erasedAll_unmarked]

namespace ClassTable

variable (t : ClassTable) (caching : Bool)

/-- The classes of an erased table are erased. -/
theorem get?_erased (id : ClassId) :
    t.erased.get? id = (t.get? id).map (ClassDecl.erased false) := by
  rw [get?, erased, List.getElem?_map, get?]

/-- Erasing markers keeps the outline. -/
theorem outline_erased : t.erased.outline = t.outline := by
  have hclass (c : ClassDecl) : (c.erased false).outline = c.outline := by
    simp [ClassDecl.outline, ClassDecl.erased, Function.comp_def, Field.outline, Field.erased,
      Method.outline, Method.erased, Constructor.outline, Constructor.erased,
      Param.map_outline_erasedAll]
  simp [outline, erased, Function.comp_def, hclass]

theorem erased_unmarked : t.unmarked.erased = t.erased := by
  simp [erased, unmarked, Function.comp_def, ClassDecl.erased_unmarked]

/-! ## Marking erased classes -/

/-- A pass over a list commutes with stripping its elements. -/
theorem mapM_erased {α : Type} {f : α → Marking α} (strip shed : α → α)
    (h : ∀ a, f (strip a) = shed <$> f a) (as : List α) :
    (as.map strip).mapM f = List.map shed <$> as.mapM f := by
  induction as with
  | nil => simp
  | cons a as ih => simp [h, ih]

/-- Marking an erased class makes of it what marking makes of the class, on the walk. -/
theorem markMembers_erased (c : ClassDecl) :
    t.markMembers caching (c.erased false) = ClassDecl.onWalk <$> t.markMembers caching c := by
  have hwalk (inStatic : Bool) := t.markingWalk_oblivious caching ⟨c.id, inStatic⟩
  simp only [markMembers, ClassDecl.erased, map_bind, map_pure]
  -- one kind of member after the other; that a single member is marked alike is shown below
  rw [mapM_erased (Field.erased false) (Field.erased true), bind_map_left]
  · congr 1
    funext fs
    rw [mapM_erased (Constructor.erased false) (Constructor.erased true), bind_map_left]
    · congr 1
      funext ks
      rw [mapM_erased (Method.erased false) (Method.erased true), bind_map_left]
      · congr 1
        funext ms
        rw [Stmt.transformAll_erased (hwalk true), bind_map_left]
        rfl
      · intro m
        obtain ⟨name, modifiers, type, params, body, default, annotations, span⟩ := m
        cases body with
        | none => simp [Method.erased]
        | some b => simp [Method.erased, Method.isStatic, Stmt.transformAll_erased (hwalk _) b]
    · intro k
      simp [Constructor.erased, Stmt.transformAll_erased (hwalk false) k.body]
  · intro f
    obtain ⟨name, modifiers, type, init, annotations, span⟩ := f
    cases init with
    | none => simp [Field.erased]
    | some e => simp [Field.erased, Field.isStatic, e.transform_erased (hwalk _)]

variable {t} {t₁ t₂ : ClassTable} {caching} {id : ClassId} {c c₁ c₂ : ClassDecl}

/-- Tables and classes that agree up to markers are marked alike on the walk. -/
theorem onWalk_markMembers_congr (ht : t₁.erased = t₂.erased)
    (hc : c₁.erased false = c₂.erased false) :
    ClassDecl.onWalk <$> t₁.markMembers caching c₁ =
      ClassDecl.onWalk <$> t₂.markMembers caching c₂ := by
  have houtline : t₁.outline = t₂.outline := by rw [← t₁.outline_erased, ht, t₂.outline_erased]
  rw [← markMembers_erased, ← markMembers_erased, hc, ← t₁.markMembers_outline, houtline,
    markMembers_outline]

/-- Chains of superclasses do not depend on markers. -/
theorem finiteChains_of_erased (h : t₁.erased = t₂.erased) (hc : t₁.FiniteChains) :
    t₂.FiniteChains := by
  have hsuper (id : ClassId) : t₂.superclassOf id = t₁.superclassOf id := by
    rw [← superclassOf_outline, ← outline_erased, ← h, outline_erased, superclassOf_outline]
  rw [FiniteChains] at *
  simpa only [hsuper] using hc

/-- Tables that agree up to the markers of a walk agree once all markers are erased. -/
theorem erased_of_unmarked (h : t₁.unmarked = t₂.unmarked) : t₁.erased = t₂.erased := by
  rw [← t₁.erased_unmarked, h, t₂.erased_unmarked]

/-! ## What marking makes of a class -/

/-- A class as marking leaves it, with the keys of its sites. -/
def marking (t : ClassTable) (caching : Bool) (c : ClassDecl) : ClassDecl × List SiteKey :=
  ((t.markMembers caching c).run []).toOption.getD (c, [])

/-- A class as marking leaves it. -/
def marked (t : ClassTable) (caching : Bool) (c : ClassDecl) : ClassDecl := (t.marking caching c).1

/-- The sites of the class with this number. -/
def siteTable (t : ClassTable) (caching : Bool) (id : ClassId) : SiteTable :=
  (t.get? id).elim ⟨"", []⟩ fun c => ⟨c.name, (t.marking caching c).2⟩

section Marked

variable (hc : t.FiniteChains)

include hc

/-- Marking a class succeeds and only changes markers. -/
theorem run_markMembers (caching : Bool) (c : ClassDecl) :
    (t.markMembers caching c).run [] = .ok (t.marking caching c) ∧
      (t.marked caching c).unmarked = c.unmarked := by
  obtain ⟨c', keys, hrun, hsame, -⟩ := markMembers_marks hc caching c
  have hmarking : t.marking caching c = (c', keys) := by
    rw [marking, hrun]
    rfl
  rw [marked, hmarking]
  exact ⟨hrun, hsame⟩

/-- Classes that are marked in a table only change their markers. -/
theorem unmarked_overlay (caching : Bool) (done : List ClassId) :
    (t.overlay (t.marked caching) done).unmarked = t.unmarked := by
  apply eq_of_get?
  intro id
  rw [get?_unmarked, get?_unmarked, get?_overlay]
  cases t.get? id with
  | none => rfl
  | some c =>
    have hsame := (run_markMembers hc caching c).2
    simp only [Option.map_some]
    split
    · rw [hsame]
    · rfl

/-- Marking a class puts it into its marked version, whatever classes were marked before. -/
theorem markClass_overlay (caching : Bool) (done : List ClassId) (hget : t.get? id = some c) :
    (t.overlay (t.marked caching) done).markClass caching id
      = .ok ((t.overlay (t.marked caching) done).set id (t.marked caching c),
        t.siteTable caching id) := by
  obtain ⟨hrun, hsame⟩ := run_markMembers hc caching c
  -- the class may have been marked before, and then it is its own marked version
  obtain ⟨d, hd, hdsame⟩ := unmarked_get? (unmarked_overlay hc caching done) hget
  have hname : d.name = c.name := by
    have := congrArg ClassDecl.name hdsame
    exact this
  have hagain : ((t.overlay (t.marked caching) done).markMembers caching d).run [] = .ok
    (t.marking caching c) := by
    rw [markMembers_congr (unmarked_overlay hc caching done) hdsame, hrun]
  have hsites : t.siteTable caching id = ⟨c.name, (t.marking caching c).2⟩ := by
    rw [siteTable, hget]
    rfl
  rw [markClass_of_run hd hagain, hsites, hname]
  rfl

/-- Marking several classes puts each of them into its marked version. -/
theorem markClasses_overlay (caching : Bool) (log : ProblemLog) :
    ∀ ids done : List ClassId, (∀ id ∈ ids, id < t.size) →
    CompilationUnit.markClasses caching ids ⟨t.overlay (t.marked caching) done, log⟩
      = .ok (⟨t.overlay (t.marked caching) (ids ++ done), log⟩,
        ids.map fun id => (id, t.siteTable caching id)) := by
  intro ids
  induction ids with
  | nil => exact fun _ _ => rfl
  | cons id ids ih =>
    intro done hids
    obtain ⟨c, hget⟩ := exists_get?_of_lt (hids id List.mem_cons_self)
    have hrest := ih (id :: done) fun j hj => hids j (List.mem_cons_of_mem _ hj)
    have hsame : t.overlay (t.marked caching) (ids ++ id :: done) = t.overlay (t.marked caching)
      (id :: ids ++ done) :=
      overlay_congr fun j _ _ => .inl (by simp [or_left_comm])
    rw [CompilationUnit.markClasses, markClass_overlay hc caching done hget, set_overlay hget]
    show (CompilationUnit.markClasses caching ids ⟨t.overlay (t.marked caching) (id :: done), log⟩
      >>= _) = _
    rw [hrest, hsame]
    rfl

end Marked

/-! ## Two tables, and all orders -/

/-- Marking a class replaces it by its marked version, and its sites come with it. -/
theorem markClass_eq (hc : t.FiniteChains) (caching : Bool) (hget : t.get? id = some c) :
    t.markClass caching id = .ok (t.set id (t.marked caching c), t.siteTable caching id) := by
  have hrun := markClass_overlay hc caching [] hget
  rwa [overlay_nil] at hrun

/-- What marking a class leaves: the class in its marked version, every other class as it was, and a
table that marking the class again does not change. -/
structure IsMarked (t : ClassTable) (caching : Bool) (id : ClassId) (t' : ClassTable) : Prop where
  others : ∀ j, j ≠ id → t'.get? j = t.get? j
  erased : t'.erased = t.erased
  again : t'.markClass caching id = .ok (t', t.siteTable caching id)

/-- A class that has been marked is marked. -/
theorem isMarked_set (hc : t.FiniteChains) (caching : Bool) (hget : t.get? id = some c) :
    t.IsMarked caching id (t.set id (t.marked caching c)) := by
  have hsame := (run_markMembers hc caching c).2
  have hset : (t.overlay (t.marked caching) []).set id (t.marked caching c) = t.overlay
    (t.marked caching) [id] :=
    set_overlay hget []
  rw [overlay_nil] at hset
  have hagain : t.overlay (t.marked caching) [id, id] = t.overlay (t.marked caching) [id] :=
    overlay_congr fun j _ _ => .inl (by simp)
  refine ⟨fun j hj => ?_, erased_of_unmarked (unmarked_set hget hsame), ?_⟩
  · rw [get?_set, if_neg fun h => hj h.1]
  · rw [hset, markClass_overlay hc caching [id] hget, set_overlay hget, hagain]

/-- Corresponding classes of two tables that agree up to markers are marked alike. -/
theorem marking_congr (hc : t₁.FiniteChains) (ht : t₁.erased = t₂.erased) (caching : Bool)
    (h₁ : t₁.get? id = some c₁) (h₂ : t₂.get? id = some c₂) :
    (t₁.marked caching c₁).onWalk = (t₂.marked caching c₂).onWalk ∧
      t₁.siteTable caching id = t₂.siteTable caching id := by
  have hclass : c₁.erased false = c₂.erased false := by
    have hget : t₁.erased.get? id = t₂.erased.get? id := by rw [ht]
    rw [get?_erased, get?_erased, h₁, h₂] at hget
    exact Option.some.inj hget
  have hname : c₁.name = c₂.name := by
    have := congrArg ClassDecl.name hclass
    exact this
  obtain ⟨hrun₁, -⟩ := run_markMembers hc caching c₁
  obtain ⟨hrun₂, -⟩ := run_markMembers (finiteChains_of_erased ht hc) caching c₂
  have hruns : (ClassDecl.onWalk <$> t₁.markMembers caching c₁).run []
      = (ClassDecl.onWalk <$> t₂.markMembers caching c₂).run [] := by
    rw [onWalk_markMembers_congr ht hclass]
  rw [StateT.run_map, StateT.run_map, hrun₁, hrun₂] at hruns
  have hpair := Except.ok.inj hruns
  have hkeys : (t₁.marking caching c₁).2 = (t₂.marking caching c₂).2 := by
    have := congrArg Prod.snd hpair
    exact this
  refine ⟨congrArg Prod.fst hpair, ?_⟩
  rw [siteTable, siteTable, h₁, h₂, Option.elim_some, Option.elim_some, hname, hkeys]

/-- Two tables that differ in markers only are marked alike: the same sites are registered, the same
markers are written on the walk over the class, other classes stay as they are, and nothing but
markers changes. A marked class is left alone, and in whatever order classes are marked, they get
the same markers and the same sites. -/
theorem markClass_depends_on_no_marker (caching : Bool) (hc : t₁.FiniteChains)
    (ht : t₁.erased = t₂.erased) :
    ∃ sites : ClassId → SiteTable,
      (∀ id < t₁.size, ∃ t₁' t₂' c₁ c₂, t₁.markClass caching id = .ok (t₁', sites id) ∧
        t₂.markClass caching id = .ok (t₂', sites id) ∧ t₁'.get? id = some c₁ ∧
          t₂'.get? id = some c₂ ∧
        c₁.onWalk = c₂.onWalk ∧ (∀ j, j ≠ id → t₁'.get? j = t₁.get? j ∧ t₂'.get? j = t₂.get? j) ∧
        t₁'.erased = t₁.erased ∧ t₂'.erased = t₂.erased ∧
          t₁'.markClass caching id = .ok (t₁', sites id)) ∧
      ∀ order : List ClassId, (∀ id ∈ order, id < t₁.size) → ∃ t', ∀ order', order'.Perm order →
        ∀ log,
        CompilationUnit.markClasses caching order' ⟨t₁, log⟩ = .ok (⟨t', log⟩, order'.map fun id =>
          (id, sites id)) := by
  have hc₂ := finiteChains_of_erased ht hc
  have hsize : t₂.size = t₁.size := by
    have := congrArg ClassTable.size ht
    simpa [erased, size] using this.symm
  refine ⟨t₁.siteTable caching, fun id hid => ?_, fun order horder => ?_⟩
  · obtain ⟨c₁, h₁⟩ := exists_get?_of_lt hid
    obtain ⟨c₂, h₂⟩ := exists_get?_of_lt (hsize ▸ hid)
    obtain ⟨hwalk, hsites⟩ := marking_congr hc ht caching h₁ h₂
    have hmarked₁ := isMarked_set hc caching h₁
    have hmarked₂ := isMarked_set hc₂ caching h₂
    refine ⟨_, _, _, _, markClass_eq hc caching h₁, ?_, get?_set_self h₁ _, get?_set_self h₂ _,
      hwalk, fun j hj => ⟨hmarked₁.others j hj, hmarked₂.others j hj⟩, hmarked₁.erased,
      hmarked₂.erased, hmarked₁.again⟩
    rw [hsites, markClass_eq hc₂ caching h₂]
  · refine ⟨t₁.overlay (t₁.marked caching) order, fun order' hperm log => ?_⟩
    -- each class is marked against a table that differs from the first one in markers only, so the
    -- classes can be laid over it in any order
    have hrun := markClasses_overlay hc caching log order' [] fun id hid =>
      horder id (hperm.mem_iff.mp hid)
    have hsame : t₁.overlay (t₁.marked caching) order' = t₁.overlay (t₁.marked caching) order :=
      overlay_congr fun _ _ _ => .inl hperm.mem_iff
    rwa [overlay_nil, List.append_nil, hsame] at hrun

/-- A call of a method on a variable. -/
def callOnX (d : Option Dispatch) : Expr :=
  .call (.var "x" none .synthetic) (.named "f") [] false false none d .synthetic

/-- A class with a call in its static initializer and one in the default of a parameter. -/
def callerTable (d : Option Dispatch) : ClassTable := ClassTable.seeded.add
  { ClassDecl.empty "A" .ordinary with
    methods := [⟨"m", .publicOnly, Builtin.objectType,
      [⟨"p", Builtin.objectType, some (callOnX d), [], .synthetic⟩], none, none, [], .synthetic⟩]
    staticInit := [.expr (callOnX d)] }

/-- The calls carry a marker that no call on `x` gets. -/
def outdatedTable : ClassTable := callerTable (some (.callSite 7 ⟨none, "g", true, true⟩))

/-- The calls carry no markers. -/
def unmarkedTable : ClassTable := callerTable none

/-- A call that carries an outdated marker in one table and none in the other, and a call in the
default of a parameter that is never marked. -/
theorem markClass_depends_on_no_marker_outdated :
    ∃ sites : ClassId → SiteTable,
      (∀ id < outdatedTable.size, ∃ t₁' t₂' c₁ c₂,
        outdatedTable.markClass true id = .ok (t₁', sites id) ∧
        unmarkedTable.markClass true id = .ok (t₂', sites id) ∧
        t₁'.get? id = some c₁ ∧ t₂'.get? id = some c₂ ∧ c₁.onWalk = c₂.onWalk ∧
        (∀ j, j ≠ id →
          t₁'.get? j = outdatedTable.get? j ∧ t₂'.get? j = unmarkedTable.get? j) ∧
        t₁'.erased = outdatedTable.erased ∧ t₂'.erased = unmarkedTable.erased ∧
        t₁'.markClass true id = .ok (t₁', sites id)) ∧
      ∀ order : List ClassId, (∀ id ∈ order, id < outdatedTable.size) →
        ∃ t', ∀ order', order'.Perm order → ∀ log,
          CompilationUnit.markClasses true order' ⟨outdatedTable, log⟩ =
            .ok (⟨t', log⟩, order'.map fun id => (id, sites id)) :=
  markClass_depends_on_no_marker true (finiteChains_of_lt (by decide)) rfl

end ClassTable

end Metaobject
