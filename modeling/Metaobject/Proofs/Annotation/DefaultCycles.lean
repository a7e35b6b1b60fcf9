import Mathlib.Data.List.Perm.Subperm
import Mathlib.Logic.Relation
import Metaobject.Proofs.Annotation.Totality

/-!
# Which cycles among defaults are found

The defaults of attributes lead from one annotation type to the next. The check of an annotation
type reports a circular reference exactly if some type on a walk along defaults leads back to it.
The search never enters a type twice on one path; this loses nothing, since a walk may be cut short
where it returns to a type, and it keeps the search finite on tables whose defaults form other
cycles.

* `ClassTable.WalksTo.avoids_start`: a walk need not come back to where it started.
* `ClassTable.cyclesFrom_of_le`: the bound of the search is never met.
* `ClassTable.findsCycle_cyclesFrom_iff`: what the search finds behind one default.
* `ClassTable.definitionProblems_circular_iff`: what the check of an annotation type reports.
-/

namespace Metaobject

/-! ## Walks along defaults -/

namespace ClassTable

/-- Class `c` has an attribute of annotation type `expected`, whose default is a usage of class
`d`. -/
inductive HasDefault (t : ClassTable) (c expected d : ClassId) : Prop
  | intro {decl : ClassDecl} {m : Method} {a : AnnotationUse} (hget : t.get? c = some decl)
      (hm : m ∈ decl.methods)
      (hreturns : (t.resolve m.returnType).classId? = some expected)
      (hkind : t.isAnnotationType expected = true)
      (hdefault : m.default = some (.annotationUse a))
      (husage : (t.resolve a.type).classId? = some d)

/-- The default of an attribute of `c` is a usage of the annotation type `d` of that attribute. -/
def DefaultStep (t : ClassTable) (c d : ClassId) : Prop := t.HasDefault c d d

/-- A walk of any length along defaults, all of whose classes after the first are none of the
`avoided` ones. -/
def WalksTo (t : ClassTable) (avoided : List ClassId) : ClassId → ClassId → Prop :=
  Relation.ReflTransGen fun c d => t.DefaultStep c d ∧ d ∉ avoided

/-- Class `c` leads back to `goal`: by a default that is a usage of `goal`, or, in another class, by
an attribute of type `goal`. -/
def LeadsBack (t : ClassTable) (goal c : ClassId) : Prop :=
  (∃ expected, t.HasDefault c expected goal) ∨
    c ≠ goal ∧ ∃ decl, t.get? c = some decl ∧ ∃ m ∈ decl.methods,
      (t.resolve m.returnType).classId? = some goal

variable {t : ClassTable} {avoided : List ClassId} {c d : ClassId}

/-- A walk either avoids a class or may be taken up where it passes the class for the last time. -/
theorem WalksTo.avoids_or_passes (h : t.WalksTo avoided c d) (x : ClassId) :
    t.WalksTo (x :: avoided) c d ∨ t.WalksTo (x :: avoided) x d := by
  induction h using Relation.ReflTransGen.head_induction_on with
  | refl => exact .inl .refl
  | @head c next hstep _ ih =>
    obtain ⟨hstep, hnext⟩ := hstep
    rcases ih with havoids | hpasses
    · by_cases heq : next = x
      · subst heq
        exact .inr havoids
      · left
        refine Relation.ReflTransGen.head ⟨hstep, ?_⟩ havoids
        simp [heq, hnext]
    · exact .inr hpasses

/-- A walk need not come back to where it started. -/
theorem WalksTo.avoids_start (h : t.WalksTo avoided c d) : t.WalksTo (c :: avoided) c d :=
  (h.avoids_or_passes c).elim id id

/-- A walk that avoids some types avoids any part of them. -/
theorem WalksTo.mono {avoided' : List ClassId} (hsub : avoided ⊆ avoided')
    (h : t.WalksTo avoided' c d) : t.WalksTo avoided c d := by
  induction h with
  | refl => exact .refl
  | tail _ hstep ih => exact ih.tail ⟨hstep.1, fun hmem => hstep.2 (hsub hmem)⟩

/-- The end of a walk is its start or lies behind its first step. -/
theorem exists_walksTo_iff {P : ClassId → Prop} : (∃ d, t.WalksTo avoided c d ∧ P d) ↔
    P c ∨ ∃ next, t.DefaultStep c next ∧ next ∉ avoided ∧ ∃ d, t.WalksTo avoided next d ∧ P d := by
  constructor
  · rintro ⟨d, hwalk, hd⟩
    rcases hwalk.cases_head with rfl | ⟨next, ⟨hstep, hnext⟩, hrest⟩
    · exact .inl hd
    · exact .inr ⟨next, hstep, hnext, d, hrest, hd⟩
  · rintro (hc | ⟨next, hstep, hnext, d, hrest, hd⟩)
    · exact ⟨c, .refl, hc⟩
    · exact ⟨d, .head ⟨hstep, hnext⟩ hrest, hd⟩

/-- A walk need not avoid its own start. -/
theorem exists_walksTo_avoids_start_iff {P : ClassId → Prop} :
    (∃ d, t.WalksTo (c :: avoided) c d ∧ P d) ↔ ∃ d, t.WalksTo avoided c d ∧ P d := by
  constructor
  · rintro ⟨d, hwalk, hd⟩
    exact ⟨d, hwalk.mono (List.subset_cons_self c avoided), hd⟩
  · rintro ⟨d, hwalk, hd⟩
    exact ⟨d, hwalk.avoids_start, hd⟩

/-! ## What a default leads to -/

/-- The default `start` of an attribute of type `type` leads to `goal` without passing the classes
of `path`. -/
def LeadsTo (t : ClassTable) (goal : ClassId) (path : List ClassId) (type : TypeRef)
    (start : Expr) : Prop :=
  ∃ expected a d, t.annotationId? type = some expected ∧ start = .annotationUse a ∧
    (t.resolve a.type).classId? = some d ∧
      (d = goal ∨ d = expected ∧ d ∉ path ++ [goal] ∧
        ∃ c, t.WalksTo (path ++ [goal]) d c ∧ t.LeadsBack goal c)

/-- `annotationId?` is the class of the type, if this is an annotation type. -/
theorem annotationId?_eq_some_iff {type : TypeRef} {id : ClassId} :
    t.annotationId? type = some id ↔ (t.resolve type).classId? = some id ∧
      t.isAnnotationType id = true :=
  Option.filter_eq_some_iff

/-- The defaults that lead to `goal` are a usage of `goal` and the first steps of walks. -/
theorem exists_leadsTo_iff {decl : ClassDecl} (hget : t.get? c = some decl) (goal : ClassId)
    (path : List ClassId) :
    (∃ m ∈ decl.methods, ∃ value, m.default = some value ∧ t.LeadsTo goal path m.returnType value) ↔
      (∃ expected, t.HasDefault c expected goal) ∨ ∃ next, t.DefaultStep c next ∧
        next ∉ path ++ [goal] ∧
        ∃ d, t.WalksTo (path ++ [goal]) next d ∧ t.LeadsBack goal d := by
  constructor
  · rintro ⟨m, hm, _, hdefault, expected, a, d, hexpected, rfl, husage, hd⟩
    obtain ⟨hreturns, hkind⟩ := annotationId?_eq_some_iff.mp hexpected
    have hhas : t.HasDefault c expected d := .intro hget hm hreturns hkind hdefault husage
    rcases hd with rfl | ⟨rfl, hnew, hwalk⟩
    · exact .inl ⟨expected, hhas⟩
    · exact .inr ⟨d, hhas, hnew, hwalk⟩
  · rintro (⟨expected, hhas⟩ | ⟨next, hhas, hnew, hwalk⟩)
    · obtain ⟨hget', hm, hreturns, hkind, hdefault, husage⟩ := hhas
      cases hget.symm.trans hget'
      exact ⟨_, hm, _, hdefault, expected, _, goal, annotationId?_eq_some_iff.mpr ⟨hreturns, hkind⟩,
        rfl, husage, .inl rfl⟩
    · obtain ⟨hget', hm, hreturns, hkind, hdefault, husage⟩ := hhas
      cases hget.symm.trans hget'
      exact ⟨_, hm, _, hdefault, next, _, next, annotationId?_eq_some_iff.mpr ⟨hreturns, hkind⟩,
        rfl, husage, .inr ⟨rfl, hnew, hwalk⟩⟩

/-- Whether walks from a class other than `goal` lead back to it is seen from the attributes of the
class. -/
theorem exists_walksTo_leadsBack_iff {goal : ClassId} {path : List ClassId} {decl : ClassDecl}
    (hget : t.get? c = some decl) (hne : c ≠ goal) :
    (∃ d, t.WalksTo (path ++ [goal]) c d ∧ t.LeadsBack goal d) ↔ ∃ m ∈ decl.methods,
      (t.resolve m.returnType).classId? = some goal ∨
        ∃ value, m.default = some value ∧ t.LeadsTo goal (c :: path) m.returnType value := by
  have hattribute :
    (∃ decl, t.get? c = some decl ∧ ∃ m ∈ decl.methods,
    (t.resolve m.returnType).classId? = some goal) ↔
      ∃ m ∈ decl.methods, (t.resolve m.returnType).classId? = some goal := by simp [hget]
  rw [← exists_walksTo_avoids_start_iff, exists_walksTo_iff, LeadsBack, hattribute]
  have hdefault := exists_leadsTo_iff hget goal (c :: path)
  rw [List.cons_append] at hdefault
  simp only [and_or_left, exists_or, hdefault]
  rw [and_iff_right hne]
  exact or_assoc.trans or_left_comm

end ClassTable

/-! ## Searches that find a cycle -/

/-- The computation ends with a list of problems, one of them a circular reference. -/
def FindsCycle (x : Except Fault (List Problem)) : Prop :=
  ∃ found, x = .ok found ∧ ∃ p ∈ found, ∃ owner, p.cause = .circularReference owner

namespace FindsCycle

/-- Where nothing is found, no circle is. -/
theorem nothing : ¬FindsCycle (pure []) := by
  rintro ⟨_, ⟨⟩, p, hp, -⟩
  cases hp

/-- A circular reference is a circle that is found. -/
theorem circular (owner : String) (span : Span) :
    FindsCycle (pure [⟨.circularReference owner, span⟩]) :=
  ⟨_, rfl, _, List.mem_singleton_self _, owner, rfl⟩

/-- A default of the wrong kind is a problem, but no circle. -/
theorem notAnnotation (text : String) (span : Span) :
    ¬FindsCycle (pure [⟨.notAnnotationConstant text, span⟩]) := by
  rintro ⟨_, ⟨⟩, p, hp, owner, howner⟩
  rw [List.mem_singleton.mp hp] at howner
  cases howner

/-- A step that succeeds does not hide what the rest finds. -/
theorem bind_ok_iff {α : Type} {x : Except Fault α} {a : α} (hx : x = .ok a)
    {f : α → Except Fault (List Problem)} : FindsCycle (x >>= f) ↔ FindsCycle (f a) := by
  rw [hx]
  exact Iff.rfl

/-- A search that goes through several places finds a cycle where one of them does. -/
theorem mapM_iff {α : Type} {f : α → Except Fault (List Problem)} {as : List α}
    (h : ∀ a ∈ as, Completes (f a)) :
    FindsCycle (as.mapM f >>= fun found => pure found.flatten) ↔ ∃ a ∈ as, FindsCycle (f a) := by
  induction as with
  | nil => simpa using nothing
  | cons a as ih =>
    obtain ⟨first, hfirst⟩ := h a List.mem_cons_self
    obtain ⟨rest, hrest⟩ := Completes.mapM fun b hb => h b (List.mem_cons_of_mem _ hb)
    have ih := ih fun b hb => h b (List.mem_cons_of_mem _ hb)
    have hsplit : (a :: as).mapM f = .ok (first :: rest) := by
      rw [List.mapM_cons, hfirst, hrest]
      rfl
    rw [bind_ok_iff hrest] at ih
    rw [bind_ok_iff hsplit, List.exists_mem_cons_iff, ← ih, hfirst]
    constructor
    · rintro ⟨_, ⟨⟩, p, hp, hcircular⟩
      rw [List.flatten_cons, List.mem_append] at hp
      rcases hp with hp | hp
      · exact .inl ⟨first, rfl, p, hp, hcircular⟩
      · exact .inr ⟨rest.flatten, rfl, p, hp, hcircular⟩
    · rintro (⟨_, ⟨⟩, p, hp, hcircular⟩ | ⟨_, ⟨⟩, p, hp, hcircular⟩)
      · exact ⟨_, rfl, p, List.mem_append_left _ hp, hcircular⟩
      · exact ⟨_, rfl, p, List.mem_append_right _ hp, hcircular⟩

end FindsCycle

/-! ## The search -/

namespace ClassTable

variable {t : ClassTable} {goal : ClassId}

/-- What the search does with an attribute of a class that it has entered. -/
def cyclesAt (t : ClassTable) (goal : ClassId) (fuel : Nat) (path : List ClassId) (owner : String)
    (span : Span) (m : Method) : Except Fault (List Problem) :=
  if (t.resolve m.returnType).classId? = some goal then return [⟨.circularReference owner, span⟩]
  else m.default.elim (pure []) (t.cyclesFrom goal fuel path m.returnType)

/-- One step of the search, with the cases told apart by the class that the default is a usage
of. -/
theorem cyclesFrom_succ_usage {fuel : Nat} {path : List ClassId} {type : TypeRef}
    {a : AnnotationUse} {expected current : ClassId}
    (hexpected : t.annotationId? type = some expected)
    (hcurrent : (t.resolve a.type).classId? = some current) :
    t.cyclesFrom goal (fuel + 1) path type (.annotationUse a) =
      if current = goal then do return [⟨.circularReference (← t.get goal).name, a.span⟩]
      else if current ≠ expected ∨ current ∈ path then return []
      else do
        let c ← t.get current
        let found ← c.methods.mapM (t.cyclesAt goal fuel (current :: path) c.name a.span)
        return found.flatten := by
  unfold cyclesFrom
  simp only [hexpected, hcurrent]
  split_ifs
  · rfl
  · rfl
  · refine congrArg _ (funext fun c => ?_)
    refine congrArg (· >>= _) (congrArg c.methods.mapM (funext fun m => ?_))
    rw [cyclesAt]
    split_ifs
    · rfl
    · cases m.default <;> rfl

/-- A default that is no usage of a known class ends the search, without a cycle. -/
theorem cyclesFrom_succ_other (goal : ClassId) (path : List ClassId) {type : TypeRef} {start : Expr}
    (h : ∀ expected a current, t.annotationId? type = some expected → start = .annotationUse a →
      (t.resolve a.type).classId? ≠ some current) :
    ∃ found, ¬FindsCycle (pure found) ∧ ∀ fuel,
      t.cyclesFrom goal (fuel + 1) path type start = pure found := by
  unfold cyclesFrom
  split
  · exact ⟨[], FindsCycle.nothing, fun _ => rfl⟩
  · rename_i expected a hexpected
    split
    · exact ⟨[], FindsCycle.nothing, fun _ => rfl⟩
    · rename_i current hcurrent
      exact absurd hcurrent (h expected a current hexpected rfl)
  · exact ⟨_, FindsCycle.notAnnotation _ _, fun _ => rfl⟩

/-- Either the default is a usage of a known class, or the search ends there. -/
theorem usage_or_other (t : ClassTable) (type : TypeRef) (start : Expr) :
    (∃ expected a current, t.annotationId? type = some expected ∧ start = .annotationUse a ∧
      (t.resolve a.type).classId? = some current) ∨
    ∀ expected a current, t.annotationId? type = some expected → start = .annotationUse a →
      (t.resolve a.type).classId? ≠ some current := by
  by_contra! hneither
  obtain ⟨hno, expected, a, current, hexpected, hstart, hcurrent⟩ := hneither
  exact hno expected a current hexpected hstart hcurrent

/-- The path of a search holds classes of the table, none of them twice, and the bound covers the
others. -/
structure WithinBound (t : ClassTable) (fuel : Nat) (path : List ClassId) : Prop where
  nodup : path.Nodup
  known : ∀ id ∈ path, id < t.size
  enough : t.size < fuel + path.length

namespace WithinBound

variable {fuel : Nat} {path : List ClassId}

theorem start {fuel : Nat} (h : t.size < fuel) : t.WithinBound fuel [] where
  nodup := List.nodup_nil
  known := by simp
  enough := by simpa using h

/-- A path without repetitions is no longer than the table, so there is always a step left. -/
theorem not_zero (h : t.WithinBound 0 path) : False := by
  have hsub : path ⊆ List.range t.size := fun id hid => List.mem_range.mpr (h.known id hid)
  have hlength := (List.subperm_of_subset h.nodup hsub).length_le
  have henough := h.enough
  rw [List.length_range] at hlength
  omega

/-- Entering a type that is not on the path uses up one unit. -/
theorem enter (h : t.WithinBound (fuel + 1) path) {id : ClassId} (hid : id < t.size)
    (hnew : id ∉ path) :
    t.WithinBound fuel (id :: path) where
  nodup := List.nodup_cons.mpr ⟨hnew, h.nodup⟩
  known := by
    intro id' hid'
    rcases List.mem_cons.mp hid' with rfl | hid'
    · exact hid
    · exact h.known id' hid'
  enough := by
    have henough := h.enough
    rw [List.length_cons]
    omega

end WithinBound

/-- The bound of the search is never met: a search with a larger bound does the same. -/
theorem cyclesFrom_of_le {fuel fuel' : Nat} (hle : fuel ≤ fuel') {path : List ClassId}
    (h : t.WithinBound fuel path) (type : TypeRef) (start : Expr) :
    t.cyclesFrom goal fuel' path type start = t.cyclesFrom goal fuel path type start := by
  induction fuel generalizing fuel' path type start with
  | zero => exact h.not_zero.elim
  | succ fuel ih =>
    obtain ⟨fuel', rfl⟩ : ∃ n, fuel' = n + 1 := ⟨fuel' - 1, by omega⟩
    rcases t.usage_or_other type start with
      ⟨expected, a, current, hexpected, rfl, hcurrent⟩ | hother
    · rw [cyclesFrom_succ_usage hexpected hcurrent, cyclesFrom_succ_usage hexpected hcurrent]
      split_ifs with hback hstop
      · rfl
      · rfl
      · -- the search enters `current`, and the smaller bound is enough for all of its attributes
        obtain ⟨hsame, hnew⟩ := not_or.mp hstop
        have hlt : current < t.size := not_ne_iff.mp hsame ▸ annotationId?_lt hexpected
        have hattribute (owner : String) (m : Method) :
            t.cyclesAt goal fuel' (current :: path) owner a.span m = t.cyclesAt goal fuel
              (current :: path) owner a.span m := by
          rw [cyclesAt, cyclesAt,
            funext (ih (Nat.le_of_succ_le_succ hle) (h.enter hlt hnew) m.returnType)]
        simp only [funext (hattribute _)]
    · obtain ⟨found, -, hfound⟩ := cyclesFrom_succ_other goal path hother
      rw [hfound, hfound]

/-- A usage leads to the goal if it is of the goal, or if a walk from its type leads back. -/
theorem leadsTo_usage_iff {path : List ClassId} {type : TypeRef} {a : AnnotationUse}
    {expected current : ClassId} (hexpected : t.annotationId? type = some expected)
    (hcurrent : (t.resolve a.type).classId? = some current) :
    t.LeadsTo goal path type (.annotationUse a) ↔ current = goal ∨ current = expected ∧
      current ∉ path ++ [goal] ∧
      ∃ c, t.WalksTo (path ++ [goal]) current c ∧ t.LeadsBack goal c := by
  constructor
  · rintro ⟨expected', a', current', hexpected', ⟨⟩, hcurrent', hleads⟩
    cases hexpected.symm.trans hexpected'
    cases hcurrent.symm.trans hcurrent'
    exact hleads
  · exact fun hleads => ⟨expected, a, current, hexpected, rfl, hcurrent, hleads⟩

/-- The search at one attribute ends without a fault. -/
theorem cyclesAt_completes (hgoal : goal < t.size) (fuel : Nat) (path : List ClassId)
    (owner : String) (span : Span) (m : Method) :
    Completes (t.cyclesAt goal fuel path owner span m) := by
  rw [cyclesAt]
  split_ifs
  · exact .pure _
  · cases m.default with
    | none => exact .pure _
    | some value => exact cyclesFrom_completes hgoal fuel path m.returnType value

/-- The search at an attribute finds a circle if its type is the goal or its default leads there. -/
theorem findsCycle_cyclesAt_iff {fuel : Nat} {path : List ClassId} {owner : String} {span : Span}
    {m : Method} :
    FindsCycle (t.cyclesAt goal fuel path owner span m) ↔
      (t.resolve m.returnType).classId? = some goal ∨
      ∃ value, m.default = some value ∧
        FindsCycle (t.cyclesFrom goal fuel path m.returnType value) := by
  rw [cyclesAt]
  split_ifs with hreturns
  · exact iff_of_true (.circular owner span) (.inl hreturns)
  · rw [or_iff_right hreturns]
    cases m.default with
    | none => exact iff_of_false FindsCycle.nothing (by simp)
    | some value => simp

/-- Below its bound the search finds a cycle exactly if the default leads to the goal. -/
theorem findsCycle_cyclesFrom_iff (hgoal : goal < t.size) {fuel : Nat} {path : List ClassId}
    (h : t.WithinBound fuel path) (type : TypeRef) (start : Expr) :
    FindsCycle (t.cyclesFrom goal fuel path type start) ↔ t.LeadsTo goal path type start := by
  induction fuel generalizing path type start with
  | zero => exact h.not_zero.elim
  | succ fuel ih =>
    rcases t.usage_or_other type start with
      ⟨expected, a, current, hexpected, rfl, hcurrent⟩ | hother
    · rw [cyclesFrom_succ_usage hexpected hcurrent, leadsTo_usage_iff hexpected hcurrent]
      split_ifs with hback hstop
      · obtain ⟨c, hget⟩ := get_completes hgoal
        rw [FindsCycle.bind_ok_iff hget]
        exact iff_of_true (.circular c.name a.span) (.inl hback)
      · refine iff_of_false FindsCycle.nothing ?_
        rintro (hyes | ⟨hsame, hnew, -⟩)
        · exact hback hyes
        · exact hstop.elim (fun hne => hne hsame) fun hmem => hnew (List.mem_append_left _ hmem)
      · -- the search enters `current`: its attributes show whether a walk from there leads back
        obtain ⟨hsame, hnew⟩ := not_or.mp hstop
        have hsame := not_ne_iff.mp hsame
        have hlt : current < t.size := hsame ▸ annotationId?_lt hexpected
        have havoided : current ∉ path ++ [goal] := by simp [hnew, hback]
        obtain ⟨c, hget⟩ := get_completes hlt
        rw [FindsCycle.bind_ok_iff hget,
          FindsCycle.mapM_iff fun m _ => cyclesAt_completes hgoal _ _ _ _ m,
          or_iff_right hback, and_iff_right hsame, and_iff_right havoided,
          exists_walksTo_leadsBack_iff (get_eq_ok_iff.mp hget) hback]
        simp only [findsCycle_cyclesAt_iff, ih (h.enter hlt hnew)]
    · obtain ⟨found, hnone, hfound⟩ := cyclesFrom_succ_other goal path hother
      rw [hfound]
      refine iff_of_false hnone ?_
      rintro ⟨expected, a, current, hexpected, hstart, hcurrent, -⟩
      exact hother expected a current hexpected hstart hcurrent

/-! ## The check of an annotation type -/

/-- The check of an annotation type finds a circle exactly if a walk along defaults leads back to
it. -/
theorem findsCycle_definitionProblems_iff {id : ClassId} (hkind : t.isAnnotationType id = true) :
    FindsCycle (t.definitionProblems id) ↔ ∃ c, t.WalksTo [id] id c ∧ t.LeadsBack id c := by
  have hlt : id < t.size := lt_of_any_get? hkind
  obtain ⟨decl, hget⟩ := get_completes hlt
  have hbound : t.WithinBound (t.size + 1) [] := .start (Nat.lt_succ_self _)
  have hattribute (m : Method) :
    FindsCycle (m.default.elim (pure []) (t.cycleProblems id m.returnType)) ↔
      ∃ value, m.default = some value ∧ t.LeadsTo id [] m.returnType value := by
    cases m.default with
    | none => exact iff_of_false FindsCycle.nothing (by simp)
    | some value => simp [cycleProblems, findsCycle_cyclesFrom_iff hlt hbound]
  have hstart : t.definitionProblems id = t.get id >>= fun c =>
      (c.methods.mapM fun m => m.default.elim (pure []) (t.cycleProblems id m.returnType)) >>=
        fun found =>
        pure found.flatten := by
    rw [definitionProblems, if_pos hkind]
    refine congrArg _ (funext fun c => ?_)
    refine congrArg (· >>= _) (congrArg c.methods.mapM (funext fun m => ?_))
    cases m.default <;> rfl
  have hends (m : Method) :
    Completes (m.default.elim (pure []) (t.cycleProblems id m.returnType)) := by
    cases m.default with
    | none => exact .pure _
    | some value => exact cyclesFrom_completes hlt _ _ _ _
  -- in `id` itself only a default counts, and a walk that goes on leaves `id` for good
  have hself : t.LeadsBack id id ↔ ∃ expected, t.HasDefault id expected id := by simp [LeadsBack]
  rw [hstart, FindsCycle.bind_ok_iff hget, FindsCycle.mapM_iff fun m _ => hends m,
    exists_walksTo_iff, hself]
  simp only [hattribute]
  exact exists_leadsTo_iff (get_eq_ok_iff.mp hget) id []

/-- The check of an annotation type comes to its end before its bound. It reports a circular
reference exactly if some type on a walk along defaults, which does not come back to the annotation
type before, leads back to it. Cycles that do not go through the annotation type change nothing. -/
theorem definitionProblems_circular_iff {id : ClassId} (hkind : t.isAnnotationType id = true)
    {log : ProblemLog} (hlog : log.tolerance = 0) :
    (∀ fuel type start, t.size < fuel →
      t.cyclesFrom id fuel [] type start = t.cycleProblems id type start) ∧
      ∃ found, t.definitionProblems id = .ok found ∧
        (log.addAll found).recorded = log.recorded ++ found ∧
        ((∃ p ∈ found, ∃ owner, p.cause = .circularReference owner) ↔
          ∃ c, t.WalksTo [id] id c ∧ t.LeadsBack id c) := by
  constructor
  · intro fuel type start hfuel
    exact cyclesFrom_of_le hfuel (.start (Nat.lt_succ_self _)) type start
  · obtain ⟨found, hfound⟩ := t.definitionProblems_completes id
    refine ⟨found, hfound, ?_, ?_⟩
    · rw [ProblemLog.addAll_of_unlimited hlog]
    · rw [← findsCycle_definitionProblems_iff hkind, hfound]
      constructor
      · exact fun hcircular => ⟨found, rfl, hcircular⟩
      · rintro ⟨_, ⟨⟩, hcircular⟩
        exact hcircular

/-- An attribute whose default is a usage of its type without members. -/
def defaultedAttribute (name : String) (id : ClassId) (type : String) : Method :=
  .ofAttribute name (.resolved id type)
    (some (.annotationUse ⟨.resolved id type, [], false, .synthetic⟩))

/-- Two annotation types whose defaults lead to each other. A third one leads to them and is the
type of one of their attributes; a fourth one leads to them as well, and nothing leads back to
it. -/
def detourTable : ClassTable := [
  { ClassDecl.empty "Left" .annotationType with
    methods := [defaultedAttribute "right" 26 "Right",
      .ofAttribute "entry" (.resolved 27 "Entry") none] },
  { ClassDecl.empty "Right" .annotationType with
    methods := [defaultedAttribute "left" 25 "Left"] },
  { ClassDecl.empty "Entry" .annotationType with
    methods := [defaultedAttribute "right" 26 "Right"] },
  { ClassDecl.empty "Visitor" .annotationType with
    methods := [defaultedAttribute "right" 26 "Right"] }].foldl .add .seeded

/-- Of the two that lead to the circle, only the one that it leads back to is reported. -/
theorem definitionProblems_circular_through_cycle :
    (∃ c, detourTable.WalksTo [27] 27 c ∧ detourTable.LeadsBack 27 c) ∧
      ¬∃ c, detourTable.WalksTo [28] 28 c ∧ detourTable.LeadsBack 28 c := by
  have hlog : ({} : ProblemLog).tolerance = 0 := rfl
  constructor
  · obtain ⟨-, found, hfound, -, hiff⟩ :=
      definitionProblems_circular_iff (by decide : detourTable.isAnnotationType 27 = true) hlog
    have hreported : detourTable.definitionProblems 27 =
        .ok [⟨.circularReference "Left", .synthetic⟩] := rfl
    cases hfound.symm.trans hreported
    exact hiff.mp ⟨_, List.mem_singleton_self _, "Left", rfl⟩
  · obtain ⟨-, found, hfound, -, hiff⟩ :=
      definitionProblems_circular_iff (by decide : detourTable.isAnnotationType 28 = true) hlog
    have hnothing : detourTable.definitionProblems 28 = .ok [] := rfl
    cases hfound.symm.trans hnothing
    exact fun hback => List.not_mem_nil (hiff.mpr hback).choose_spec.1

end ClassTable

end Metaobject
