import Mathlib.Logic.Relation
import Metaobject.Proofs.Completion.Tolerance

/-!
# Steps of completion

Completing a unit replaces one class of the source after the other. There are six ways to replace a
class; whatever every one of them respects, a run respects.

* `ClassTable.Rewrites` lists what a class can be replaced by, and `ClassTable.Step` is one
  replacement.
* `CompilationUnit.complete_steps`: a run that ends is a sequence of steps, wherever the log stops
  it.
* `CompilationUnit.complete_ends`: on a well-formed table every run ends.
-/

namespace Metaobject

/-- A computation that succeeds is made of parts that succeed. -/
theorem bind_eq_ok {α β : Type} {x : Except Fault α} {f : α → Except Fault β} {b : β} :
    x >>= f = .ok b ↔ ∃ a, x = .ok a ∧ f a = .ok b := by
  cases x <;> simp [bind, Except.bind]

namespace ClassTable

variable {settings : CompilerSettings} {t t' : ClassTable} {id : ClassId} {c c' : ClassDecl}

/-! ## Replacing a class -/

/-- What the passes make of the class `c` with the number `id`. -/
inductive Rewrites (settings : CompilerSettings) (t : ClassTable) (id : ClassId)
    (c : ClassDecl) : ClassDecl → Prop
  /-- The construction method of a body without scope. -/
  | init (hc : c.IsSourceEnum) (hscope : c.isUnscopedBody = true) :
      Rewrites settings t id c (Enumeration.addInit (t.typeRef id) true c)
  | members (hc : c.IsSourceEnum) (hscope : c.isUnscopedBody = false)
      (hvalues : c.field? Enumeration.valuesField = none) :
      Rewrites settings t id c (Enumeration.complete t id c)
  | annotations :
      Rewrites settings t id c (c.mapAnnotationUses (·.normalized t settings.inlineConstants))
  | definition : Rewrites settings t id c { c with definitionChecked := true }
  | constructors (hc : c.IsSourceEnum) :
      Rewrites settings t id c (Enumeration.completeConstructors t c)
  | marks {c' : ClassDecl} {keys : List SiteKey}
      (h : (t.markMembers settings.callSiteCaching c).run [] = .ok (c', keys)) :
      Rewrites settings t id c c'

/-- One class of the source is replaced. -/
inductive Step (settings : CompilerSettings) (t : ClassTable) : ClassTable → Prop
  | replace {id : ClassId} {c c' : ClassDecl} (hget : t.get? id = some c)
      (hsource : c.builtin = false)
      (h : t.Rewrites settings id c c') : Step settings t (t.set id c')

/-- Any number of steps. -/
def Steps (settings : CompilerSettings) : ClassTable → ClassTable → Prop :=
  Relation.ReflTransGen (Step settings)

theorem Steps.refl (t : ClassTable) : Steps settings t t := Relation.ReflTransGen.refl

theorem Steps.trans {t'' : ClassTable} (h : Steps settings t t') (h' : Steps settings t' t'') :
    Steps settings t t'' :=
  Relation.ReflTransGen.trans h h'

/-- Replacing one class of the source is a step. -/
theorem Steps.single (hget : t.get? id = some c) (hsource : c.builtin = false)
    (h : t.Rewrites settings id c c') :
    Steps settings t (t.set id c') := Relation.ReflTransGen.single (.replace hget hsource h)

/-- What every step keeps, a sequence of steps keeps. -/
theorem Steps.keeps {P : ClassTable → Prop} (hstep : ∀ {t t'}, P t → Step settings t t' → P t')
    (h : Steps settings t t') (ht : P t) : P t' := by
  induction h with
  | refl => exact ht
  | tail _ h ih => exact hstep ih h

/-- Marking a class only adds markers. -/
theorem unmarked_of_markMembers {caching : Bool} {keys : List SiteKey} (hc : t.FiniteChains)
    (h : (t.markMembers caching c).run [] = .ok (c', keys)) : c'.unmarked = c.unmarked :=
  ((markMembers_marks hc caching c).of_run h).1

/-- No replacement touches the header of a class. -/
theorem Rewrites.header (hc : t.FiniteChains) (h : t.Rewrites settings id c c') :
    c.SameHeader c' := by
  cases h with
  | init => exact (Enumeration.addInit_prepares ..).header
  | members _ hscope => exact (Enumeration.complete_prepares t id hscope).1.header
  | annotations | definition | constructors => exact ⟨rfl, rfl, rfl, rfl, rfl, rfl, rfl, rfl⟩
  | marks hrun => exact (ClassDecl.advances_of_unmarked (unmarked_of_markMembers hc hrun)).header

/-- What every replacement respects, a sequence of steps respects. -/
theorem Steps.related {R : ClassDecl → ClassDecl → Prop} (hrefl : ∀ c, R c c)
    (htrans : ∀ {c c' c''}, R c c' → R c' c'' → R c c'')
    (hR : ∀ {t : ClassTable} {id c c'}, t.FiniteChains → c.builtin = false →
      t.Rewrites settings id c c' → R c c')
    (hc : t.FiniteChains) (h : Steps settings t t') : t.Related R t' := by
  -- chains still end after a step, so the next step respects the relation too
  have hall : t.Related R t' ∧ t'.FiniteChains := by
    refine h.keeps (P := fun t' => t.Related R t' ∧ t'.FiniteChains) ?_ ⟨.refl hrefl t, hc⟩
    rintro t₁ t₂ ⟨hrelated, hchains⟩ ⟨hget, hsource, hrewrites⟩
    exact ⟨hrelated.trans htrans (.set hrefl hget (hR hchains hsource hrewrites)),
      (Related.set .refl hget (hrewrites.header hchains)).finiteChains hchains⟩
  exact hall.1

/-- Steps keep the headers. -/
theorem Steps.header (hc : t.FiniteChains) (h : Steps settings t t') :
    t.Related ClassDecl.SameHeader t' :=
  h.related .refl .trans (fun hc _ hrewrites => hrewrites.header hc) hc

end ClassTable

namespace CompilationUnit

open ClassTable

variable {settings : CompilerSettings} {t : ClassTable} {u u' : CompilationUnit} {id : ClassId}
  {ids : List ClassId}

/-! ## The step of each pass -/

/-- A visit of an enum makes steps only. -/
theorem enumStep_steps (h : enumStep u id = .ok u') : Steps settings u.table u'.table := by
  obtain ⟨⟨t', found⟩, htable, hu'⟩ := bind_eq_ok.mp h
  cases hu'
  obtain ⟨c, hget, hcases⟩ := bind_eq_ok.mp htable
  rw [get_eq_ok_iff] at hget
  -- no enum of the source, a body without scope, an enum that has its members, and one that gets
  -- them
  split_ifs at hcases with hskip hscope hvalues
  · cases hcases
    exact .refl _
  · cases hcases
    have hc : c.IsSourceEnum := by simpa [ClassDecl.IsSourceEnum] using hskip
    exact .single hget hc.2 (.init hc hscope)
  · cases hcases
    exact .refl _
  · cases hcases
    have hc : c.IsSourceEnum := by simpa [ClassDecl.IsSourceEnum] using hskip
    exact .single hget hc.2 (.members hc (by simpa using hscope) (by simpa using hvalues))

/-- A visit for the constructors makes steps only. -/
theorem constructorStep_steps (h : constructorStep u id = .ok u') :
    Steps settings u.table u'.table := by
  obtain ⟨t', htable, hu'⟩ := bind_eq_ok.mp h
  cases hu'
  obtain ⟨c, hget, hcases⟩ := bind_eq_ok.mp htable
  rw [get_eq_ok_iff] at hget
  split_ifs at hcases with hskip
  · cases hcases
    exact .refl _
  · cases hcases
    have hc : c.IsSourceEnum := by simpa [ClassDecl.IsSourceEnum] using hskip
    exact .single hget hc.2 (.constructors hc)

/-- The number belongs to a class of the source. -/
def IsSource (t : ClassTable) (id : ClassId) : Prop := ∃ c, t.get? id = some c ∧ c.builtin = false

theorem IsSource.builtin {c : ClassDecl} (h : IsSource t id) (hget : t.get? id = some c) :
    c.builtin = false := by
  obtain ⟨d, hget', hd⟩ := h
  obtain rfl : c = d := Option.some.inj (hget.symm.trans hget')
  exact hd

/-- No step takes a class out of the source. -/
theorem IsSource.steps {t' : ClassTable} (hid : IsSource t id) (hc : t.FiniteChains)
    (h : Steps settings t t') :
    IsSource t' id := (h.header hc).keeps (fun hsame => hsame.builtin.trans) hid

/-- The check of the usages of a class makes steps only. -/
theorem validateClass_steps (hid : IsSource u.table id)
    (h : u.validateClass settings.inlineConstants id = .ok u') :
    Steps settings u.table u'.table := by
  obtain ⟨c, hget, h⟩ := bind_eq_ok.mp h
  obtain ⟨found, -, hu'⟩ := bind_eq_ok.mp h
  cases hu'
  rw [get_eq_ok_iff] at hget
  exact .single hget (hid.builtin hget) .annotations

/-- The check of the defaults makes steps only. -/
theorem checkDefinition_steps (hid : IsSource u.table id) (h : u.checkDefinition id = .ok u') :
    Steps settings u.table u'.table := by
  obtain ⟨c, hget, h⟩ := bind_eq_ok.mp h
  rw [get_eq_ok_iff] at hget
  split_ifs at h
  · obtain ⟨found, -, hu'⟩ := bind_eq_ok.mp h
    cases hu'
    exact .single hget (hid.builtin hget) .definition
  · cases h
    exact .refl _

/-- Marking a class is a step. -/
theorem markClass_steps {t' : ClassTable} {sites : SiteTable} (hid : IsSource t id)
    (h : t.markClass settings.callSiteCaching id = .ok (t', sites)) : Steps settings t t' := by
  obtain ⟨c, hget, h⟩ := bind_eq_ok.mp h
  obtain ⟨⟨c', keys⟩, hrun, ht'⟩ := bind_eq_ok.mp h
  cases ht'
  rw [get_eq_ok_iff] at hget
  exact .single hget (hid.builtin hget) (.marks hrun)

/-! ## Passes -/

/-- A pass whose visits make steps only makes steps only. -/
theorem foldlM_steps {step : CompilationUnit → ClassId → Except Fault CompilationUnit}
    (hstep : ∀ {u u' id}, IsSource u.table id → step u id = .ok u' →
      Steps settings u.table u'.table) :
    ∀ {ids : List ClassId} {u u' : CompilationUnit}, u.table.FiniteChains →
      (∀ id ∈ ids, IsSource u.table id) →
      ids.foldlM step u = .ok u' → Steps settings u.table u'.table := by
  intro ids
  induction ids with
  | nil =>
    intro u u' _ _ h
    cases h
    exact .refl _
  | cons id ids ih =>
    intro u u' hc hids h
    obtain ⟨u₁, hfirst, hrest⟩ := bind_eq_ok.mp h
    have hsteps := hstep (hids id List.mem_cons_self) hfirst
    refine hsteps.trans (ih ((hsteps.header hc).finiteChains hc) (fun j hj => ?_) hrest)
    exact (hids j (List.mem_cons_of_mem _ hj)).steps hc hsteps

/-- The pass over the usages makes steps only, even if the log stops it. -/
theorem validateClasses_steps :
    ∀ {ids : List ClassId} {u u' : CompilationUnit}, u.table.FiniteChains →
    (∀ id ∈ ids, IsSource u.table id) → validateClasses settings.inlineConstants ids u = .ok u' →
      Steps settings u.table u'.table := by
  intro ids
  induction ids with
  | nil =>
    intro u u' _ _ h
    cases h
    exact .refl _
  | cons id ids ih =>
    intro u u' hc hids h
    obtain ⟨u₁, hfirst, hrest⟩ := bind_eq_ok.mp h
    have hsteps := validateClass_steps (hids id List.mem_cons_self) hfirst
    -- a full log ends the pass here
    split_ifs at hrest
    · cases hrest
      exact hsteps
    · refine hsteps.trans (ih ((hsteps.header hc).finiteChains hc) (fun j hj => ?_) hrest)
      exact (hids j (List.mem_cons_of_mem _ hj)).steps hc hsteps

/-- The pass that marks the calls makes steps only. -/
theorem markClasses_steps :
    ∀ {ids : List ClassId} {u u' : CompilationUnit} {sites : List (ClassId × SiteTable)},
    u.table.FiniteChains → (∀ id ∈ ids, IsSource u.table id) →
      markClasses settings.callSiteCaching ids u = .ok (u', sites) →
        Steps settings u.table u'.table := by
  intro ids
  induction ids with
  | nil =>
    intro u u' sites _ _ h
    cases h
    exact .refl _
  | cons id ids ih =>
    intro u u' sites hc hids h
    obtain ⟨⟨t₁, first⟩, hfirst, h⟩ := bind_eq_ok.mp h
    obtain ⟨⟨u₂, rest⟩, hrest, hu'⟩ := bind_eq_ok.mp h
    cases hu'
    have hsteps := markClass_steps (hids id List.mem_cons_self) hfirst
    refine hsteps.trans (ih ((hsteps.header hc).finiteChains hc) (fun j hj => ?_) hrest)
    exact (hids j (List.mem_cons_of_mem _ hj)).steps hc hsteps

/-! ## Whole runs -/

/-- A run that ends stops with a full log, or marks the classes of the source at its end. -/
theorem complete_stops_or_marks {sites : List (ClassId × SiteTable)} (hn : u.table.Numbered)
    (hc : u.table.FiniteChains) (h : u.complete settings = .ok (u', sites)) :
    (u'.log.isFull = true ∧ Steps settings u.table u'.table) ∨
      ∃ v : CompilationUnit, Steps settings u.table v.table ∧
        v.markClasses settings.callSiteCaching v.table.sourceIds = .ok (u', sites) := by
  have hsource {t : ClassTable} (hsteps : Steps settings u.table t) :
    ∀ id ∈ t.sourceIds, IsSource t id :=
    fun id hid => (mem_sourceIds ((hsteps.header hc).numbered hn)).mp hid
  have henums : ∀ id ∈ u.table.enumOrder, IsSource u.table id := by
    intro id hid
    obtain ⟨c, hget, hbuiltin, -⟩ := (mem_enumOrder hn).mp hid
    exact ⟨c, hget, hbuiltin⟩
  -- the log is looked at after each of the first three passes
  obtain ⟨u₁, hmembers, h⟩ := bind_eq_ok.mp h
  rw [addEnumMembers_eq_foldlM] at hmembers
  have h₁ : Steps settings u.table u₁.table :=
    foldlM_steps (fun _ => enumStep_steps) hc henums hmembers
  split_ifs at h with hfull₁
  · cases h
    exact .inl ⟨hfull₁, h₁⟩
  obtain ⟨u₂, hannotations, h⟩ := bind_eq_ok.mp h
  have h₂ :=
    h₁.trans (validateClasses_steps ((h₁.header hc).finiteChains hc) (hsource h₁) hannotations)
  split_ifs at h with hfull₂
  · cases h
    exact .inl ⟨hfull₂, h₂⟩
  obtain ⟨u₃, hdefinitions, h⟩ := bind_eq_ok.mp h
  have h₃ :=
    h₂.trans
    (foldlM_steps checkDefinition_steps ((h₂.header hc).finiteChains hc) (hsource h₂) hdefinitions)
  split_ifs at h with hfull₃
  · cases h
    exact .inl ⟨hfull₃, h₃⟩
  obtain ⟨u₄, hconstructors, hmarks⟩ := bind_eq_ok.mp h
  rw [completeConstructors_eq_foldlM] at hconstructors
  have henums₃ : ∀ id ∈ u.table.enumOrder, IsSource u₃.table id :=
    fun id hid => (henums id hid).steps hc h₃
  have h₄ := h₃.trans
    (foldlM_steps (fun _ => constructorStep_steps)
      ((h₃.header hc).finiteChains hc) henums₃ hconstructors)
  exact .inr ⟨u₄, h₄, hmarks⟩

/-- A run that ends is a sequence of steps, wherever the log stops it. -/
theorem complete_steps {sites : List (ClassId × SiteTable)} (hn : u.table.Numbered)
    (hc : u.table.FiniteChains) (h : u.complete settings = .ok (u', sites)) :
    Steps settings u.table u'.table := by
  obtain ⟨-, hsteps⟩ | ⟨v, hsteps, hmarks⟩ := complete_stops_or_marks hn hc h
  · exact hsteps
  · have hheader := hsteps.header hc
    have hsource : ∀ id ∈ v.table.sourceIds, IsSource v.table id :=
      fun id hid => (mem_sourceIds (hheader.numbered hn)).mp hid
    exact hsteps.trans (markClasses_steps (hheader.finiteChains hc) hsource hmarks)

/-- On a well-formed table every run ends. -/
theorem complete_ends (settings : CompilerSettings) (u : CompilationUnit)
    (ht : u.table.WellFormed) : ∃ u' sites, u.complete settings = .ok (u', sites) := by
  obtain ⟨t, log⟩ := u
  obtain ⟨P⟩ := exists_preparation settings ht
  obtain ⟨t₁, found, -, -, ⟨-, hrun⟩ | ⟨-, hrun⟩⟩ := P.complete_cases log
  · exact ⟨_, _, hrun⟩
  · obtain ⟨t', sites, hfinish⟩ := P.finishes ht
    exact ⟨_, _, hrun.trans (hfinish _)⟩

end CompilationUnit

end Metaobject
