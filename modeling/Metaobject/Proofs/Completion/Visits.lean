import Mathlib.Data.List.Nodup
import Metaobject.Proofs.Completion.Steps

/-!
# Visits of classes

A pass visits one class after the other and replaces it. No class is visited twice, so a class
stands in its first version until its turn comes, and what it gets there is not touched again.
Unlike `ClassTable.Steps`, the visits remember their order, and superclass chains may be endless:
all that is assumed is that the run ends.

* `ClassTable.Visits` are the visits of a pass, and `ClassTable.Visits.at_turn` is the turn of one
  class.
* `CompilationUnit.complete_visits`: a run that does not stop early visits the enums, leaves members
  and code alone except for constructors and annotations, and then visits all classes of the source
  to mark them.
-/

namespace Metaobject

/-! ## What the passes leave alone -/

/-- The part of a method that a call is bound by. -/
def Method.signature (m : Method) : String × Nat × Modifiers := (m.name, m.arity, m.modifiers)

/-- Two versions of a class with the same header and the same methods, up to their code and
annotations. -/
structure ClassDecl.SameMethods (c c' : ClassDecl) : Prop where
  header : c.SameHeader c'
  methods : c'.methods.map Method.signature = c.methods.map Method.signature

/-- Two versions of a class with the same static initializer besides. -/
structure ClassDecl.SameInit (c c' : ClassDecl) : Prop extends c.SameMethods c' where
  staticInit : c'.staticInit = c.staticInit

namespace ClassDecl

variable {c c' c'' : ClassDecl}

theorem SameMethods.refl (c : ClassDecl) : c.SameMethods c := ⟨.refl c, rfl⟩

theorem SameMethods.trans (h : c.SameMethods c') (h' : c'.SameMethods c'') : c.SameMethods c'' :=
  ⟨h.header.trans h'.header, h'.methods.trans h.methods⟩

theorem SameInit.refl (c : ClassDecl) : c.SameInit c := ⟨.refl c, rfl⟩

theorem SameInit.trans (h : c.SameInit c') (h' : c'.SameInit c'') : c.SameInit c'' :=
  ⟨h.toSameMethods.trans h'.toSameMethods, h'.staticInit.trans h.staticInit⟩

/-- Rewriting usages changes neither the methods nor the static initializer. -/
theorem sameInit_mapAnnotationUses (f : AnnotationUse → AnnotationUse) (c : ClassDecl) :
    c.SameInit (c.mapAnnotationUses f) where
  header := ⟨rfl, rfl, rfl, rfl, rfl, rfl, rfl, rfl⟩
  methods := by simp [mapAnnotationUses, Method.signature, Method.arity, Function.comp_def]
  staticInit := rfl

end ClassDecl

/-! ## Marking runs that end -/

/-- A marking run that ends is made of parts that end. -/
theorem Marking.bind_eq_ok {α β : Type} {x : Marking α} {f : α → Marking β} {keys : List SiteKey}
    {r : β × List SiteKey} :
    (x >>= f).run keys = .ok r ↔ ∃ a keys', x.run keys = .ok (a, keys') ∧
      (f a).run keys' = .ok r := by
  rw [StateT.run_bind, Metaobject.bind_eq_ok, Prod.exists]

/-- What marking leaves alone in each member, it leaves alone in all of them. -/
theorem Marking.map_of_mapM {α β : Type} {f : α → Marking α} {g : α → β}
    (hf : ∀ {a a' keys keys'}, (f a).run keys = .ok (a', keys') → g a' = g a) :
    ∀ {as as' : List α} {keys keys' : List SiteKey}, (as.mapM f).run keys = .ok (as', keys') →
      as'.map g = as.map g := by
  intro as
  induction as with
  | nil =>
    intro as' keys keys' h
    cases h
    rfl
  | cons a as ih =>
    intro as' keys keys' h
    rw [List.mapM_cons] at h
    obtain ⟨a', k₁, hfirst, h⟩ := Marking.bind_eq_ok.mp h
    obtain ⟨rest, k₂, hrest, h⟩ := Marking.bind_eq_ok.mp h
    cases h
    rw [List.map_cons, List.map_cons, hf hfirst, ih hrest]

namespace ClassTable

variable {t t' : ClassTable} {id : ClassId} {c c' : ClassDecl} {caching : Bool}
  {keys : List SiteKey}

/-! ## Visits -/

/-- The classes with these numbers are replaced one after the other, each by what `turn` allows in
the table at that moment. -/
inductive Visits (turn : ClassTable → ClassId → ClassDecl → ClassDecl → Prop) :
    List ClassId → ClassTable → ClassTable → Prop
  | done (t : ClassTable) : Visits turn [] t t
  | next {id : ClassId} {ids : List ClassId} {t t' : ClassTable} {c c' : ClassDecl}
      (hget : t.get? id = some c)
      (hturn : turn t id c c') (hrest : Visits turn ids (t.set id c') t') :
      Visits turn (id :: ids) t t'

namespace Visits

variable {turn : ClassTable → ClassId → ClassDecl → ClassDecl → Prop}
  {R : ClassDecl → ClassDecl → Prop} {ids : List ClassId}

/-- What every turn respects, a pass respects. -/
theorem related (hrefl : ∀ c, R c c) (htrans : ∀ {c c' c''}, R c c' → R c' c'' → R c c'')
    (hturn : ∀ {t id c c'}, turn t id c c' → R c c') (h : Visits turn ids t t') :
    t.Related R t' := by
  induction h with
  | done t => exact .refl hrefl t
  | next hget hnow _ ih => exact (Related.set hrefl hget (hturn hnow)).trans htrans ih

/-- A pass leaves the classes that it does not visit. -/
theorem get?_of_notMem (h : Visits turn ids t t') (hid : id ∉ ids) : t'.get? id = t.get? id := by
  induction h with
  | done t => rfl
  | next _ _ _ ih =>
    rw [List.mem_cons, not_or] at hid
    rw [ih hid.2, get?_set, if_neg fun heq => hid.1 heq.1]

/-- At its turn a class stands in its first version, and it keeps what it gets. -/
theorem at_turn (hrefl : ∀ c, R c c) (htrans : ∀ {c c' c''}, R c c' → R c' c'' → R c c'')
    (hturn : ∀ {t id c c'}, turn t id c c' → R c c') (hids : ids.Nodup) (h : Visits turn ids t t')
    (hid : id ∈ ids) (hget : t.get? id = some c) :
    ∃ now c', t.Related R now ∧ now.get? id = some c ∧ turn now id c c' ∧ t'.get? id = some c' := by
  induction h with
  | done t => cases hid
  | @next first ids t t' d d' hfirst hnow hrest ih =>
    rw [List.nodup_cons] at hids
    by_cases heq : id = first
    · subst heq
      obtain rfl : c = d := Option.some.inj (hget.symm.trans hfirst)
      exact ⟨t, d', .refl hrefl t, hget, hnow,
        (hrest.get?_of_notMem hids.1).trans (get?_set_self hget d')⟩
    · have hlater : id ∈ ids := (List.mem_cons.mp hid).resolve_left heq
      have hsame : (t.set first d').get? id = some c := by
        rw [get?_set, if_neg fun h => heq h.1, hget]
      obtain ⟨now, c', hrelated, hstill, hdone, hget'⟩ := ih hids.2 hlater hsame
      exact ⟨now, c', (Related.set hrefl hfirst (hturn hnow)).trans htrans hrelated, hstill, hdone,
        hget'⟩

end Visits

/-! ## No class is visited twice -/

/-- Different classes of the table have different numbers. -/
theorem nodup_ids (hn : t.Numbered) : (t.classes.map (·.id)).Nodup := by
  have hids : t.classes.map (·.id) = List.range t.size := by
    refine List.ext_getElem (by simp [size]) fun i hi hi' => ?_
    rw [List.length_map] at hi
    rw [List.getElem_map, List.getElem_range]
    exact hn i _ (List.getElem?_eq_getElem hi)
  rw [hids]
  exact List.nodup_range

/-- The numbers of some classes of a table are different. -/
theorem nodup_selectedIds (hn : t.Numbered) (p : ClassDecl → Bool) :
    ((t.classes.filter p).map (·.id)).Nodup :=
  (nodup_ids hn).sublist (List.filter_sublist.map _)

theorem nodup_sourceIds (hn : t.Numbered) : t.sourceIds.Nodup := nodup_selectedIds hn _

theorem nodup_enumOrder (hn : t.Numbered) : t.enumOrder.Nodup := by
  refine List.Nodup.append (nodup_selectedIds hn _) (nodup_selectedIds hn _) fun id hbody henum =>
    ?_
  -- a number cannot belong to a body and to an enum, since it belongs to one class
  obtain ⟨c, hc, rfl⟩ := List.mem_map.mp hbody
  obtain ⟨d, hd, hid⟩ := List.mem_map.mp henum
  obtain ⟨hmem, hkind⟩ := List.mem_filter.mp hc
  obtain ⟨hmem', hkind'⟩ := List.mem_filter.mp hd
  obtain rfl : d = c := List.inj_on_of_nodup_map (nodup_ids hn) hmem' hmem hid
  simp only [Bool.and_eq_true, decide_eq_true_eq] at hkind hkind'
  exact absurd (hkind'.2.symm.trans hkind.2) (by decide)

/-! ## Enums get their members -/

/-- A class after its visit: an enum of the source has its members. -/
def withMembers (t : ClassTable) (id : ClassId) (c : ClassDecl) : ClassDecl :=
  if c.IsSourceEnum then
    if c.isUnscopedBody then Enumeration.addInit (t.typeRef id) true c
    else if (c.field? Enumeration.valuesField).isSome then c
    else Enumeration.complete t id c
  else c

/-- Adding members replaces a class by itself with its members. -/
theorem addEnumMembers_of_get? (hget : t.get? id = some c) :
    ∃ found, t.addEnumMembers id = .ok (t.set id (t.withMembers id c), found) := by
  rw [addEnumMembers, get_eq_ok_iff.mpr hget, withMembers]
  show ∃ found, (if !c.isEnum || c.builtin then _ else _) = _
  by_cases hc : c.IsSourceEnum
  · rw [if_pos hc, if_neg (by simp [hc.1, hc.2])]
    split_ifs
    · exact ⟨_, rfl⟩
    · exact ⟨[], by rw [set_get? hget]; rfl⟩
    · exact ⟨_, rfl⟩
  · have hother : (!c.isEnum || c.builtin) = true := by
      by_contra hsource
      exact hc (by simpa [ClassDecl.IsSourceEnum] using hsource)
    rw [if_neg hc, if_pos hother, set_get? hget]
    exact ⟨[], rfl⟩

/-- Members leave the header alone. -/
theorem sameHeader_withMembers (t : ClassTable) (id : ClassId) (c : ClassDecl) :
    c.SameHeader (t.withMembers id c) := by
  rw [withMembers]
  split_ifs with _ hscope
  · exact (Enumeration.addInit_prepares ..).header
  · exact .refl c
  · exact (Enumeration.complete_prepares t id (by simpa using hscope)).1.header
  · exact .refl c

/-- The turn of a class in the pass over the enums. -/
def MemberTurn (t : ClassTable) (id : ClassId) (c c' : ClassDecl) : Prop := c' = t.withMembers id c

theorem MemberTurn.header (h : t.MemberTurn id c c') : c.SameHeader c' :=
  h ▸ t.sameHeader_withMembers id c

/-- So does the whole pass over the enums. -/
theorem Visits.sameHeader {ids : List ClassId} (h : Visits MemberTurn ids t t') :
    t.Related ClassDecl.SameHeader t' :=
  h.related .refl .trans MemberTurn.header

/-- At the turn of an enum the table has the headers of the first one, and the enum is as it was. -/
theorem Visits.withMembers (hn : t.Numbered) (h : Visits MemberTurn t.enumOrder t t')
    (hid : id ∈ t.enumOrder) (hget : t.get? id = some c) :
    ∃ now, t.Related ClassDecl.SameHeader now ∧ now.get? id = some c ∧
      t'.get? id = some (now.withMembers id c) := by
  obtain ⟨now, c', hnow, hstill, rfl, hget'⟩ :=
    h.at_turn (R := ClassDecl.SameHeader) .refl .trans MemberTurn.header
      (nodup_enumOrder hn) hid hget
  exact ⟨now, hnow, hstill, hget'⟩

/-! ## Calls are marked -/

/-- Marking the members of a class leaves the signatures of its methods, and the static initializer
is marked last. -/
theorem sameMethods_of_markMembers (h : (t.markMembers caching c).run [] = .ok (c', keys)) :
    c.SameMethods c' ∧ ∃ before,
      (Stmt.transformAll (t.markingWalk caching ⟨c.id, true⟩) c.staticInit).run before = .ok
        (c'.staticInit, keys) := by
  unfold markMembers at h
  obtain ⟨fields, k₁, -, h⟩ := Marking.bind_eq_ok.mp h
  obtain ⟨constructors, k₂, -, h⟩ := Marking.bind_eq_ok.mp h
  obtain ⟨methods, k₃, hmethods, h⟩ := Marking.bind_eq_ok.mp h
  obtain ⟨staticInit, k₄, hinit, h⟩ := Marking.bind_eq_ok.mp h
  cases h
  refine ⟨⟨⟨rfl, rfl, rfl, rfl, rfl, rfl, rfl, rfl⟩, ?_⟩, k₃, hinit⟩
  refine Marking.map_of_mapM (fun {m m' k k'} hm => ?_) hmethods
  -- only the body of a method is replaced
  cases hbody : m.body with
  | none =>
    simp only [hbody] at hm
    cases hm
    rfl
  | some body =>
    simp only [hbody] at hm
    obtain ⟨body', k'', -, hm⟩ := Marking.bind_eq_ok.mp hm
    cases hm
    rfl

/-- The turn of a class in the pass that marks calls. -/
def MarkTurn (caching : Bool) (t : ClassTable) (_ : ClassId) (c c' : ClassDecl) : Prop :=
  ∃ keys, (t.markMembers caching c).run [] = .ok (c', keys)

/-- Marking a class leaves its methods, up to their code. -/
theorem MarkTurn.sameMethods (h : MarkTurn caching t id c c') : c.SameMethods c' := by
  obtain ⟨keys, hrun⟩ := h
  exact (sameMethods_of_markMembers hrun).1

end ClassTable

namespace CompilationUnit

open ClassTable

variable {settings : CompilerSettings} {u u' : CompilationUnit} {id : ClassId} {ids : List ClassId}

/-! ## The passes -/

/-- The pass over the enums visits them one after the other. -/
theorem addEnumMembers_visits :
    ∀ {ids : List ClassId} {u u' : CompilationUnit}, u.addEnumMembers ids = .ok u' →
    Visits MemberTurn ids u.table u'.table := by
  intro ids
  induction ids with
  | nil =>
    intro u u' h
    cases h
    exact .done _
  | cons id ids ih =>
    intro u u' h
    rw [addEnumMembers_eq_foldlM, List.foldlM_cons] at h
    obtain ⟨u₁, hfirst, hrest⟩ := bind_eq_ok.mp h
    obtain ⟨⟨t₁, found⟩, hmembers, hu₁⟩ := bind_eq_ok.mp hfirst
    cases hu₁
    obtain ⟨c, hget, -⟩ := bind_eq_ok.mp hmembers
    rw [get_eq_ok_iff] at hget
    obtain ⟨found', hvisit⟩ := addEnumMembers_of_get? hget
    obtain ⟨rfl, rfl⟩ : t₁ = u.table.set id (u.table.withMembers id c) ∧ found = found' := by
      simpa using hmembers.symm.trans hvisit
    exact .next hget rfl (ih hrest)

/-- The check of the usages of a class leaves methods and static initializers. -/
theorem validateClass_sameInit {inline : Bool} (h : u.validateClass inline id = .ok u') :
    u.table.Related ClassDecl.SameInit u'.table := by
  obtain ⟨c, hget, h⟩ := bind_eq_ok.mp h
  obtain ⟨found, -, hu'⟩ := bind_eq_ok.mp h
  cases hu'
  rw [get_eq_ok_iff] at hget
  exact .set .refl hget (c.sameInit_mapAnnotationUses _)

/-- So does the whole pass, wherever it stops. -/
theorem validateClasses_sameInit {inline : Bool} : ∀ {ids : List ClassId} {u u' : CompilationUnit},
    validateClasses inline ids u = .ok u' → u.table.Related ClassDecl.SameInit u'.table := by
  intro ids
  induction ids with
  | nil =>
    intro u u' h
    cases h
    exact .refl .refl _
  | cons id ids ih =>
    intro u u' h
    obtain ⟨u₁, hfirst, hrest⟩ := bind_eq_ok.mp h
    have hrelated := validateClass_sameInit hfirst
    -- a full log ends the pass here
    split_ifs at hrest
    · cases hrest
      exact hrelated
    · exact hrelated.trans .trans (ih hrest)

theorem checkDefinition_sameInit (h : u.checkDefinition id = .ok u') :
    u.table.Related ClassDecl.SameInit u'.table := by
  obtain ⟨c, hget, h⟩ := bind_eq_ok.mp h
  rw [get_eq_ok_iff] at hget
  split_ifs at h
  · obtain ⟨found, -, hu'⟩ := bind_eq_ok.mp h
    cases hu'
    exact .set .refl hget ⟨⟨⟨rfl, rfl, rfl, rfl, rfl, rfl, rfl, rfl⟩, rfl⟩, rfl⟩
  · cases h
    exact .refl .refl _

theorem constructorStep_sameInit (h : constructorStep u id = .ok u') :
    u.table.Related ClassDecl.SameInit u'.table := by
  obtain ⟨t', htable, hu'⟩ := bind_eq_ok.mp h
  cases hu'
  obtain ⟨c, hget, hcases⟩ := bind_eq_ok.mp htable
  rw [get_eq_ok_iff] at hget
  split_ifs at hcases
  · cases hcases
    exact .refl .refl _
  · cases hcases
    exact .set .refl hget ⟨⟨⟨rfl, rfl, rfl, rfl, rfl, rfl, rfl, rfl⟩, rfl⟩, rfl⟩

/-- What every step respects, a pass respects. -/
theorem foldlM_sameInit {step : CompilationUnit → ClassId → Except Fault CompilationUnit}
    (hstep : ∀ {u u' id}, step u id = .ok u' → u.table.Related ClassDecl.SameInit u'.table) :
    ∀ {ids : List ClassId} {u u' : CompilationUnit}, ids.foldlM step u = .ok u' →
      u.table.Related ClassDecl.SameInit u'.table := by
  intro ids
  induction ids with
  | nil =>
    intro u u' h
    cases h
    exact .refl .refl _
  | cons id ids ih =>
    intro u u' h
    obtain ⟨u₁, hfirst, hrest⟩ := bind_eq_ok.mp h
    exact (hstep hfirst).trans .trans (ih hrest)

/-- The pass that marks the calls visits the classes one after the other. -/
theorem markClasses_visits {caching : Bool} : ∀ {ids : List ClassId} {u u' : CompilationUnit}
    {sites : List (ClassId × SiteTable)}, markClasses caching ids u = .ok (u', sites) →
      Visits (MarkTurn caching) ids u.table u'.table := by
  intro ids
  induction ids with
  | nil =>
    intro u u' sites h
    cases h
    exact .done _
  | cons id ids ih =>
    intro u u' sites h
    obtain ⟨⟨t₁, first⟩, hfirst, h⟩ := bind_eq_ok.mp h
    obtain ⟨⟨u₂, rest⟩, hrest, hu'⟩ := bind_eq_ok.mp h
    cases hu'
    obtain ⟨c, hget, hmark⟩ := bind_eq_ok.mp hfirst
    obtain ⟨⟨c', keys⟩, hrun, ht₁⟩ := bind_eq_ok.mp hmark
    cases ht₁
    exact .next (get_eq_ok_iff.mp hget) ⟨keys, hrun⟩ (ih hrest)

/-! ## The whole run -/

/-- A run that does not stop early visits the enums first and all classes of the source last. What
it does between keeps the methods and the static initializers. -/
theorem complete_visits {sites : List (ClassId × SiteTable)}
    (h : u.complete settings = .ok (u', sites)) (hfull : u'.log.isFull = false) :
    ∃ t₁ t₂, Visits MemberTurn u.table.enumOrder u.table t₁ ∧ t₁.Related ClassDecl.SameInit t₂ ∧
      Visits (MarkTurn settings.callSiteCaching) t₂.sourceIds t₂ u'.table := by
  have hopen {v : CompilationUnit} (hv : v.log.isFull = true) (hend : v = u') : False := by
    subst hend
    exact Bool.noConfusion (hfull.symm.trans hv)
  -- a full log after one of the first three passes would be the log of the result
  obtain ⟨u₁, hmembers, h⟩ := bind_eq_ok.mp h
  split_ifs at h with hfull₁
  · exact (hopen hfull₁ (congrArg Prod.fst (Except.ok.inj h))).elim
  obtain ⟨u₂, hannotations, h⟩ := bind_eq_ok.mp h
  split_ifs at h with hfull₂
  · exact (hopen hfull₂ (congrArg Prod.fst (Except.ok.inj h))).elim
  obtain ⟨u₃, hdefinitions, h⟩ := bind_eq_ok.mp h
  split_ifs at h with hfull₃
  · exact (hopen hfull₃ (congrArg Prod.fst (Except.ok.inj h))).elim
  obtain ⟨u₄, hconstructors, hmarks⟩ := bind_eq_ok.mp h
  rw [completeConstructors_eq_foldlM] at hconstructors
  refine ⟨u₁.table, u₄.table, addEnumMembers_visits hmembers, ?_, markClasses_visits hmarks⟩
  have h₂ := validateClasses_sameInit hannotations
  have h₃ := foldlM_sameInit checkDefinition_sameInit hdefinitions
  have h₄ := foldlM_sameInit constructorStep_sameInit hconstructors
  exact (h₂.trans .trans h₃).trans .trans h₄

/-- On a well-formed table and with an unlimited log, a run ends and does not stop early. -/
theorem complete_ends_unlimited (settings : CompilerSettings) (ht : u.table.WellFormed)
    (hlog : u.log.tolerance = 0) :
    ∃ u' sites, u.complete settings = .ok (u', sites) ∧ u'.log.isFull = false := by
  obtain ⟨P⟩ := exists_preparation settings ht
  obtain ⟨t', sites, hfinish⟩ := P.finishes ht
  have hopen : (u.log.addAll P.problems).isFull = false :=
    ProblemLog.isFull_of_unlimited (by simp [hlog])
  exact ⟨_, sites, (P.complete_eq hopen).trans (hfinish _), hopen⟩

end CompilationUnit

end Metaobject
