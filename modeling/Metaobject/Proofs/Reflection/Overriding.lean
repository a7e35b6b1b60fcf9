import Mathlib.Data.List.Nodup
import Metaobject.Proofs.Reflection.MemberResolution

/-!
# Overriding

A class that derives from another one may declare the same method. Which of the two a third class
finds depends on the order of its hierarchy, in which each class stands where it is met first: the
hierarchy goes through the interfaces of a class before its superclass. So the overriding class
comes first exactly if it lies on the way by which the hierarchy first comes to the overridden
class. The root is searched last in any case.

* `LoadedClass.OnFirstWay`: the classes on the way to an ancestor that is met first.
* `LoadedClass.before_iff_onFirstWay`: these classes stand before the ancestor in the hierarchy, and
  no others that derive from it.
* `Session.override_found`: which of two methods is found, and which is hidden.
-/

namespace Metaobject

namespace LoadedClass

variable {classes : List LoadedClass} {c d p x y : LoadedClass}

/-! ## Derivation -/

theorem root_derivesFrom_iff {goal : ClassNo} : root.derivesFrom goal = true ↔ goal = 0 := by
  simp [derivesFrom_eq, root, anyDerivesFrom]

section Derivation

variable (hpop : Population classes)

include hpop

theorem derivesFrom_trans {goal : ClassNo} (hy : y ∈ classes) (hgoal : y.derivesFrom goal = true)
    (c : LoadedClass) : c ∈ classes → c.derivesFrom y.no = true → c.derivesFrom goal = true := by
  induction c using parent_induction with
  | step c ih =>
    intro hc hderives
    rcases derivesFrom_iff.mp hderives with hroot | hself | ⟨p, hp, hp'⟩
    · -- the root derives from nothing but itself
      have hyroot : y = root := hpop.unique y hy root hpop.root hroot
      have hzero : goal = 0 := root_derivesFrom_iff.mp (hyroot ▸ hgoal)
      rw [hzero]
      exact derivesFrom_root c
    · have hyc : y = c := hpop.unique y hy c hc hself
      exact hyc ▸ hgoal
    · exact derivesFrom_iff.mpr
        (.inr (.inr ⟨p, hp, ih p hp (mem_classes_of_mem_parents hpop hc hp) hp'⟩))

/-- A class is larger than the other classes that it derives from, the root aside. -/
theorem sizeOf_lt_of_derivesFrom (hy : y ∈ classes) (hyroot : y.no ≠ 0) (c : LoadedClass) :
    c ∈ classes → c.derivesFrom y.no = true → y ≠ c → sizeOf y < sizeOf c := by
  induction c using parent_induction with
  | step c ih =>
    intro hc hderives hne
    rcases derivesFrom_iff.mp hderives with hroot | hself | ⟨p, hp, hp'⟩
    · exact absurd hroot hyroot
    · exact absurd (hpop.unique y hy c hc hself) hne
    · have hlt := sizeOf_lt_of_mem_parents hp
      by_cases hyp : y = p
      · rw [hyp]
        exact hlt
      · exact lt_trans (ih p hp (mem_classes_of_mem_parents hpop hc hp) hp' hyp) hlt

/-- Only the root derives from nothing but the root. -/
theorem no_ne_zero_of_derivesFrom (hy : y ∈ classes) (hx : x.no ≠ 0)
    (hderives : y.derivesFrom x.no = true) : y.no ≠ 0 := by
  intro hzero
  have hyroot : y = root := hpop.unique y hy root hpop.root hzero
  exact hx (root_derivesFrom_iff.mp (hyroot ▸ hderives))

/-- Two different classes do not derive from each other. -/
theorem eq_of_derivesFrom (hx : x ∈ classes) (hy : y ∈ classes) (hxroot : x.no ≠ 0)
    (hyx : y.derivesFrom x.no = true) (hxy : x.derivesFrom y.no = true) : x = y := by
  by_contra hne
  have hyroot := no_ne_zero_of_derivesFrom hpop hy hxroot hyx
  have hlt := sizeOf_lt_of_derivesFrom hpop hx hxroot y hy hyx hne
  have hgt := sizeOf_lt_of_derivesFrom hpop hy hyroot x hx hxy (Ne.symm hne)
  omega

end Derivation

/-! ## The order of a list -/

section Order

variable {α : Type} {a b : α} {l₁ l₂ : List α}

/-- What does not contain the first of two elements can be left out in front. -/
theorem pair_sublist_append_left (ha : a ∉ l₁) : [a, b].Sublist (l₁ ++ l₂) ↔ [a, b].Sublist l₂ := by
  refine ⟨fun h => ?_, fun h => List.sublist_append_of_sublist_right h⟩
  obtain ⟨front, back, hpair, hfront, hback⟩ := List.sublist_append_iff.mp h
  cases front with
  | nil =>
    rw [List.nil_append] at hpair
    exact hpair ▸ hback
  | cons e front =>
    have hea : a = e := (List.cons.inj hpair).1
    exact absurd (hfront.subset List.mem_cons_self) (hea ▸ ha)

/-- What does not contain the second of two elements can be left out at the end. -/
theorem pair_sublist_append_right (hb : b ∉ l₂) :
    [a, b].Sublist (l₁ ++ l₂) ↔ [a, b].Sublist l₁ := by
  have hreverse : [b, a].Sublist (l₂.reverse ++ l₁.reverse) ↔ [b, a].Sublist l₁.reverse :=
    pair_sublist_append_left (mt List.mem_reverse.mp hb)
  have hpair : [b, a] = [a, b].reverse := rfl
  rwa [← List.reverse_append, hpair, List.reverse_sublist, List.reverse_sublist] at hreverse

/-- One of two elements stands before the other. -/
theorem pair_sublist_or (ha : a ∈ l₁) (hb : b ∈ l₁) (hne : a ≠ b) :
    [a, b].Sublist l₁ ∨ [b, a].Sublist l₁ := by
  obtain ⟨front, back, rfl⟩ := List.append_of_mem ha
  rcases List.mem_append.mp hb with hb | hb
  · exact .inr ((List.singleton_sublist.mpr hb).append
      (List.singleton_sublist.mpr List.mem_cons_self))
  · have hback : b ∈ back := (List.mem_cons.mp hb).resolve_left (Ne.symm hne)
    exact .inl (List.sublist_append_of_sublist_right
      ((List.singleton_sublist.mpr hback).cons_cons a))

/-- In a list without repetitions, two elements stand in one order only. -/
theorem pair_sublist_asymm (hnodup : l₁.Nodup) (hab : [a, b].Sublist l₁) : ¬ [b, a].Sublist l₁ := by
  intro hba
  obtain ⟨front, back, rfl⟩ := List.append_of_mem (hab.subset List.mem_cons_self)
  obtain ⟨-, hback, hdisjoint⟩ := List.nodup_append.mp hnodup
  have ha : a ∉ front := fun ha => hdisjoint a ha a List.mem_cons_self rfl
  rw [pair_sublist_append_left ha, List.cons_sublist_cons, List.singleton_sublist] at hab
  have hb : b ∉ front := fun hb => hdisjoint b hb b (List.mem_cons_of_mem a hab) rfl
  rw [pair_sublist_append_left hb] at hba
  cases hba with
  | cons _ hba => exact (List.nodup_cons.mp hback).1 (hba.subset (by simp))
  | cons_cons => exact (List.nodup_cons.mp hback).1 hab

/-- A pair that is kept stays a pair. -/
theorem pair_sublist_filter {keep : α → Bool} (ha : keep a = true) (hb : keep b = true) :
    [a, b].Sublist (l₁.filter keep) ↔ [a, b].Sublist l₁ := by
  refine ⟨fun h => h.trans List.filter_sublist, fun h => ?_⟩
  have hfilter := h.filter keep
  rwa [List.filter_cons_of_pos ha, List.filter_cons_of_pos hb] at hfilter

end Order

/-! ## Distinct classes -/

theorem distinct_concat_eq (c d : LoadedClass) (cs : List LoadedClass) :
    c.distinct (cs ++ [d]) =
      c.distinct cs ++ if d.no = c.no ∨ d.no ∈ cs.map no then [] else [d] := by
  have hkept : (d.no = c.no || (c.distinct cs).any (·.no == d.no)) = true ↔ d.no = c.no ∨
    d.no ∈ cs.map no := by
    have hany : (c.distinct cs).any (·.no == d.no) = true ↔ d.no ∈ cs.map no ∧ d.no ≠ c.no := by
      rw [← mem_map_no_distinct]
      simp
    rw [Bool.or_eq_true, decide_eq_true_eq, hany]
    tauto
  rw [distinct_concat]
  by_cases h : d.no = c.no ∨ d.no ∈ cs.map no
  · rw [if_pos (hkept.mpr h), if_pos h, List.append_nil]
  · rw [if_neg (mt hkept.mp h), if_neg h]

/-- The distinct classes of two lists are those of the first, and what is new in the second. -/
theorem distinct_append (c : LoadedClass) (as bs : List LoadedClass) :
    c.distinct (as ++ bs) = c.distinct as ++ (c.distinct bs).filter fun d => d.no ∉ as.map no := by
  induction bs using List.reverseRecOn with
  | nil => simp [distinct]
  | append_singleton bs d ih =>
    rw [← List.append_assoc, distinct_concat_eq, distinct_concat_eq, ih, List.filter_append,
      List.append_assoc]
    congr 2
    simp only [List.map_append, List.mem_append]
    by_cases has : d.no ∈ as.map no
    · rw [if_pos (.inr (.inl has))]
      split
      · rfl
      · rw [List.filter_singleton, decide_eq_false (not_not.mpr has)]
        rfl
    · by_cases hbs : d.no = c.no ∨ d.no ∈ bs.map no
      · rw [if_pos hbs, if_pos (hbs.imp_right .inr)]
        rfl
      · rw [if_neg hbs, if_neg (by tauto), List.filter_singleton, decide_eq_true has]
        rfl

/-- Classes with different numbers are distinct, apart from the class itself. -/
theorem distinct_of_nodup (c : LoadedClass) {as : List LoadedClass} (hnodup : (as.map no).Nodup) :
    c.distinct as = as.filter fun d => d.no ≠ c.no := by
  induction as using List.reverseRecOn with
  | nil => rfl
  | append_singleton as d ih =>
    rw [List.map_append, List.map_singleton] at hnodup
    obtain ⟨hfront, -, hdisjoint⟩ := List.nodup_append.mp hnodup
    have hd : d.no ∉ as.map no := fun hmem => hdisjoint _ hmem _ (List.mem_singleton_self _) rfl
    rw [distinct_concat_eq, ih hfront, List.filter_append, List.filter_singleton]
    by_cases hself : d.no = c.no
    · simp [hself]
    · simp [hself, hd]

/-! ## The first way to an ancestor -/

/-- The parents of a class in the order in which its hierarchy goes through them. -/
def listedParents (c : LoadedClass) : List LoadedClass := c.interfaces ++ c.superclass.toList

theorem mem_listedParents : p ∈ c.listedParents ↔ p ∈ c.parents := by
  rw [listedParents, parents, List.mem_append, List.mem_append, or_comm]

/-- The ancestors are the lineages of the parents, each class once. -/
theorem ancestors_eq (c : LoadedClass) :
    c.ancestors =
      c.distinct (c.listedParents.flatMap lineage ++ if c.isInterface then [root] else []) := by
  have hsuper : lineageOf c.superclass = c.superclass.toList.flatMap lineage := by
    cases c.superclass with
    | none => rfl
    | some p => exact (List.flatMap_singleton ..).symm
  rw [ancestors, listedParents, List.flatMap_append, lineageOfAll_eq_flatMap, hsuper]

/-- The hierarchy of a parent goes into the hierarchy of a class less the class itself and what was
met before, and its classes are not listed again after it. -/
theorem lineage_eq_of_listedParents {before after : List LoadedClass}
    (hsplit : c.listedParents = before ++ p :: after) (hnodup : (p.lineage.map no).Nodup) :
    ∃ rest, c.lineage = (c :: c.distinct (before.flatMap lineage)) ++
        (p.lineage.filter (fun d => d.no ∉ (before.flatMap lineage).map no ∧ d.no ≠ c.no) ++ rest) ∧
      ∀ d ∈ rest, d.no ∉ p.lineage.map no := by
  have hcandidates : c.listedParents.flatMap lineage ++ (if c.isInterface then [root] else [])
      = before.flatMap lineage ++
        (p.lineage ++ (after.flatMap lineage ++ if c.isInterface then [root] else [])) := by
    rw [hsplit, List.flatMap_append, List.flatMap_cons, List.append_assoc, List.append_assoc]
  refine ⟨((c.distinct (after.flatMap lineage ++ if c.isInterface then [root] else [])).filter
    fun d => d.no ∉ p.lineage.map no).filter fun d => d.no ∉ (before.flatMap lineage).map no,
    ?_, ?_⟩
  · have hfilter :
        (p.lineage.filter fun d => d.no ≠ c.no).filter
          (fun d => d.no ∉ (before.flatMap lineage).map no)
        = p.lineage.filter fun d => d.no ∉ (before.flatMap lineage).map no ∧ d.no ≠ c.no := by
      simp only [List.filter_filter, Bool.decide_and]
    rw [lineage_eq, ancestors_eq, hcandidates, distinct_append, distinct_append c p.lineage,
      distinct_of_nodup c hnodup, List.filter_append, hfilter, List.cons_append]
  · intro d hd
    have hkept := (List.mem_filter.mp (List.mem_filter.mp hd).1).2
    exact of_decide_eq_true hkept

/-- A class on the first way from a class to `x`: the way goes from each class to the first of its
parents that `x` can be assigned from, interfaces first. -/
inductive OnFirstWay (x y : LoadedClass) : LoadedClass → Prop
  | here : OnFirstWay x y y
  | up {c p : LoadedClass} (hp : c.listedParents.find? x.isAssignableFrom = some p)
      (h : OnFirstWay x y p) :
      OnFirstWay x y c

theorem OnFirstWay.derivesFrom (h : OnFirstWay x y c) : c.derivesFrom y.no = true := by
  induction h with
  | here => exact derivesFrom_self y
  | up hp _ ih =>
    have hmem := mem_listedParents.mp (List.mem_of_find?_eq_some hp)
    exact derivesFrom_iff.mpr (.inr (.inr ⟨_, hmem, ih⟩))

/-- The first way goes through the first parent that leads there. -/
theorem onFirstWay_iff (hp : c.listedParents.find? x.isAssignableFrom = some p) (hne : y ≠ c) :
    OnFirstWay x y c ↔ OnFirstWay x y p := by
  refine ⟨fun h => ?_, .up hp⟩
  cases h with
  | here => exact absurd rfl hne
  | up hq h =>
    rw [hp] at hq
    exact Option.some.inj hq ▸ h

section FirstWay

variable (hpop : Population classes)

include hpop

/-- The hierarchy has two classes, one deriving from the other, in the same order as the hierarchy
of the first parent by which it comes to the latter. -/
theorem before_iff_of_find? (hc : c ∈ classes) (hx : x ∈ classes) (hy : y ∈ classes)
    (hyx : x.isAssignableFrom y = true) (hxc : x ≠ c) (hyc : y ≠ c)
    (hp : c.listedParents.find? x.isAssignableFrom = some p) :
    [y, x].Sublist c.lineage ↔ [y, x].Sublist p.lineage := by
  obtain ⟨hpx, before, after, hsplit, hbefore⟩ := List.find?_eq_some_iff_append.mp hp
  have hparent : ∀ q ∈ c.listedParents, q ∈ classes :=
    fun q hq => mem_classes_of_mem_parents hpop hc (mem_listedParents.mp hq)
  have hpmem : p ∈ classes := hparent p (List.mem_of_find?_eq_some hp)
  have hpnodup : (p.lineage.map no).Nodup := (isHierarchy_lineage hpop hpmem).nodup
  have hxp : x ∈ p.lineage := (mem_lineage_iff hpop p hpmem x).mpr ⟨hx, hpx⟩
  -- neither of the two classes is met before the hierarchy comes to `p`
  have hfresh : ∀ e ∈ classes, x.isAssignableFrom e = true →
    e.no ∉ (before.flatMap lineage).map no := by
    intro e he hxe hmem
    obtain ⟨f, hf, hno⟩ := List.mem_map.mp hmem
    obtain ⟨q, hq, hfq⟩ := List.mem_flatMap.mp hf
    have hqmem : q ∈ classes := hparent q (by rw [hsplit]; exact List.mem_append_left _ hq)
    obtain ⟨hfmem, hqf⟩ := (mem_lineage_iff hpop q hqmem f).mp hfq
    have hqx : q.derivesFrom x.no = true := derivesFrom_trans hpop he hxe q hqmem (hno ▸ hqf)
    have hfirst : (!q.derivesFrom x.no) = true := hbefore q hq
    rw [hqx] at hfirst
    cases hfirst
  have hkept : ∀ e ∈ classes, x.isAssignableFrom e = true → e ≠ c →
      decide (e.no ∉ (before.flatMap lineage).map no ∧ e.no ≠ c.no) = true := by
    intro e he hxe hne
    exact decide_eq_true ⟨hfresh e he hxe, fun heq => hne (hpop.unique e he c hc heq)⟩
  obtain ⟨rest, hlineage, hrest⟩ := lineage_eq_of_listedParents hsplit hpnodup
  have hyfront : y ∉ c :: c.distinct (before.flatMap lineage) := by
    intro hmem
    have hmet := mem_of_mem_distinct ((List.mem_cons.mp hmem).resolve_left hyc)
    exact hfresh y hy hyx (List.mem_map.mpr ⟨y, hmet, rfl⟩)
  have hxrest : x ∉ rest := fun hmem => hrest x hmem (List.mem_map.mpr ⟨x, hxp, rfl⟩)
  rw [hlineage, pair_sublist_append_left hyfront, pair_sublist_append_right hxrest]
  exact pair_sublist_filter (hkept y hy hyx hyc) (hkept x hx (derivesFrom_self x) hxc)

/-- Of two classes in a hierarchy, one deriving from the other, the deriving one stands first if and
only if it lies on the first way to the other. -/
theorem before_iff_onFirstWay (hxroot : x.no ≠ 0) (hne : x ≠ y) (hyx : x.isAssignableFrom y = true)
    (c : LoadedClass) :
    c ∈ classes → x ∈ c.lineage → y ∈ c.lineage →
      ([y, x].Sublist c.lineage ↔ OnFirstWay x y c) := by
  induction c using parent_induction with
  | step c ih =>
    intro hc hx hy
    obtain ⟨hxmem, hcx⟩ := (mem_lineage_iff hpop c hc x).mp hx
    obtain ⟨hymem, hcy⟩ := (mem_lineage_iff hpop c hc y).mp hy
    by_cases hyc : y = c
    · subst hyc
      refine iff_of_true ?_ .here
      rw [lineage_eq] at hx ⊢
      exact (List.singleton_sublist.mpr ((List.mem_cons.mp hx).resolve_left hne)).cons_cons y
    · have hxc : x ≠ c := by
        rintro rfl
        exact hne (eq_of_derivesFrom hpop hxmem hymem hxroot hyx hcy)
      -- some parent derives from `x`; the first one decides
      obtain ⟨p, hp⟩ : ∃ p, c.listedParents.find? x.isAssignableFrom = some p := by
        rw [← Option.isSome_iff_exists, List.find?_isSome]
        rcases derivesFrom_iff.mp hcx with hzero | hself | ⟨q, hq, hqx⟩
        · exact absurd hzero hxroot
        · exact absurd (hpop.unique x hxmem c hc hself) hxc
        · exact ⟨q, mem_listedParents.mpr hq, hqx⟩
      have hparent : p ∈ c.parents := mem_listedParents.mp (List.mem_of_find?_eq_some hp)
      have hpmem : p ∈ classes := mem_classes_of_mem_parents hpop hc hparent
      have hxp : x ∈ p.lineage := (mem_lineage_iff hpop p hpmem x).mpr ⟨hxmem, List.find?_some hp⟩
      rw [before_iff_of_find? hpop hc hxmem hymem hyx hxc hyc hp, onFirstWay_iff hp hyc]
      by_cases hyp : y ∈ p.lineage
      · exact ih p hparent hpmem hxp hyp
      · refine iff_of_false (fun h => hyp (h.subset List.mem_cons_self)) fun h => hyp ?_
        exact (mem_lineage_iff hpop p hpmem y).mpr ⟨hymem, h.derivesFrom⟩

/-- In the order of the search, the root stands behind all other classes. -/
theorem searchOrder_before_iff (hc : c ∈ classes) (hx : x ∈ c.lineage) (hy : y ∈ c.lineage)
    (hne : x ≠ y) (hyx : x.isAssignableFrom y = true) :
    [y, x].Sublist c.searchOrder ↔ x.isRoot = true ∨ OnFirstWay x y c := by
  have hxmem : x ∈ classes := ((mem_lineage_iff hpop c hc x).mp hx).1
  have hymem : y ∈ classes := ((mem_lineage_iff hpop c hc y).mp hy).1
  have hnotroot : ∀ e : LoadedClass, e.no ≠ 0 → (!e.isRoot) = true :=
    fun e he => by simp [isRoot, he]
  by_cases hroot : x.no = 0
  · have hxroot : x.isRoot = true := beq_iff_eq.mpr hroot
    have hyroot : y.no ≠ 0 :=
      fun hzero => hne (hpop.unique x hxmem y hymem (hroot.trans hzero.symm))
    refine iff_of_true ?_ (.inl hxroot)
    have hfront : [y].Sublist (c.lineage.filter (!·.isRoot)) :=
      List.singleton_sublist.mpr (List.mem_filter.mpr ⟨hy, hnotroot y hyroot⟩)
    exact hfront.append (List.singleton_sublist.mpr (List.mem_filter.mpr ⟨hx, hxroot⟩))
  · have hyroot := no_ne_zero_of_derivesFrom hpop hymem hroot hyx
    have hxroot : ¬ x.isRoot = true := fun h => hroot (beq_iff_eq.mp h)
    have hback : x ∉ c.lineage.filter (·.isRoot) := fun h => hxroot (List.mem_filter.mp h).2
    have hfilter : [y, x].Sublist (c.lineage.filter (!·.isRoot)) ↔ [y, x].Sublist c.lineage :=
      pair_sublist_filter (hnotroot y hyroot) (hnotroot x hroot)
    rw [searchOrder, pair_sublist_append_right hback, hfilter, or_iff_right hxroot]
    exact before_iff_onFirstWay hpop hroot hne hyx c hc hx hy

/-- The search comes to each class once. -/
theorem nodup_searchOrder (hc : c ∈ classes) : c.searchOrder.Nodup := by
  have hnodup : c.lineage.Nodup := List.Nodup.of_map no (isHierarchy_lineage hpop hc).nodup
  rw [searchOrder, List.nodup_append]
  refine ⟨hnodup.filter _, hnodup.filter _, ?_⟩
  rintro a ha _ hb rfl
  have hother := (List.mem_filter.mp ha).2
  rw [(List.mem_filter.mp hb).2] at hother
  cases hother

end FirstWay

/-! ## Methods that are found and methods that are hidden -/

variable {name : String} {k : Nat} {h g m : MethodHandle}

/-- The class declares a concrete ordinary method without variable arguments. -/
def DeclaresPlain (d : LoadedClass) (m : MethodHandle) : Prop :=
  d.Declares m.name m ∧ m.isAbstract = false ∧ m.isVarargs = false

/-- A plain method is provided. -/
theorem DeclaresPlain.provides (hm : d.DeclaresPlain m) : Provides m.name m.arity d m := by
  refine ⟨hm.1, ?_⟩
  rw [MethodHandle.accepts, acceptsArity, hm.2.2]
  exact beq_self_eq_true m.arity

/-- A concrete method is found if some class has one. -/
theorem declaredMember?_of_provides (hd : d ∈ c.lineage) (hg : Provides name k d g)
    (hconcrete : g.isAbstract = false) :
    ∃ h, c.declaredMember? name k = some (.method h) ∧
      FirstConcrete (Provides name k) c.lineage h := by
  rcases searchMethod_cases c name k with ⟨h, hfound, hfirst⟩ | ⟨-, -, -, -, hall⟩ | ⟨-, hnone⟩
  · exact ⟨h, by rw [declaredMember?, hfound], hfirst⟩
  · exact absurd ((hall d hd g hg).symm.trans hconcrete) (by decide)
  · exact absurd hg (hnone d hd g)

/-- A class is passed over if a class before it has a concrete method. -/
theorem FirstConcrete.owner_ne (hfirst : FirstConcrete (Provides name k) c.lineage h)
    (hnodup : c.searchOrder.Nodup) (hbefore : [y, x].Sublist c.searchOrder) (hne : x ≠ y)
    (hg : Provides name k y g) (hconcrete : g.isAbstract = false) : h.owner ≠ x := by
  obtain ⟨-, before, d, after, hsplit, hprovides, habstract, -⟩ := hfirst
  have horder : c.searchOrder = (before ++ [d]) ++ after := by
    rw [List.append_assoc]
    exact hsplit
  rw [hprovides.1.owner_eq]
  rintro rfl
  have hy : y ∉ before ++ [d] := by
    intro hmem
    rcases List.mem_append.mp hmem with hmem | hmem
    · exact absurd ((habstract y hmem g hg).symm.trans hconcrete) (by decide)
    · exact hne (List.mem_singleton.mp hmem).symm
  -- so the class itself would have to stand a second time behind `y`
  rw [horder] at hnodup hbefore
  rw [pair_sublist_append_left hy] at hbefore
  exact (List.nodup_append.mp hnodup).2.2 d (by simp) d (hbefore.subset (by simp)) rfl

/-- With methods added at run time, one of them is found or the same as without. -/
theorem member?_eq (added : List MethodHandle) (c : LoadedClass) (name : String) (k : Nat) :
    c.member? added name k = c.declaredMember? name k ∨ ∃ g ∈ added,
      c.member? added name k = some (.method g) := by
  rw [member?]
  cases hselect : MethodHandle.select k (added.reverse.filter (·.name == name)) with
  | none => exact .inl rfl
  | some g => exact .inr ⟨g, List.mem_reverse.mp (MethodHandle.select_eq_some hselect).mem, rfl⟩

end LoadedClass

namespace Session

variable {α : Type}

open LoadedClass (OnFirstWay)

/-- Two classes in the hierarchy of a third one, one deriving from the other, that both declare the
same plain method: of the two, the method of the ancestor is hidden if the ancestor is the root or
if the deriving class lies on the first way to it, and the method of the deriving class is hidden if
not. Methods added at run time may hide both. -/
theorem override_found (backend : ValueBackend) (permits : AccessPolicy) (actions : List Action)
    (c : LoadedClass) (hc : c ∈ ((start backend permits : Session α).run actions).classes)
    (hfamily : ((start backend permits : Session α).run actions).realm.space.HasFamily c) :
    let s : Session α := (start backend permits).run actions
    ∀ (r : RecordNo) d, s.cache.records[r]? = some d → d.cls = c →
      ∃ cs, (View.hierarchy c r).FindsClasses s.realm cs ∧
        ∀ x ∈ cs, ∀ y ∈ cs, x ≠ y → x.isAssignableFrom y = true →
          ∀ m n, x.DeclaresPlain m → y.DeclaresPlain n → n.name = m.name →
            n.signature.params = m.signature.params →
            ∃ h found,
              (Resolution.declaredMember c r m.name m.arity).Finds s.realm (some (.method h)) ∧
              (Resolution.member c r m.name m.arity).Finds s.realm found ∧
              (found = some (.method h) ∨ ∃ g ∈ d.added, found = some (.method g)) ∧
              ((x.isRoot = true ∨ OnFirstWay x y c) → h.owner ≠ x) ∧
              (¬ (x.isRoot = true ∨ OnFirstWay x y c) → h.owner ≠ y) := by
  rintro s r d hd rfl
  have hs : s.Orderly := (start_orderly backend permits).run actions
  have hdescribes : s.cache.Describes r d.cls := ⟨d, hd, rfl⟩
  refine ⟨d.cls.lineage, hs.finds_hierarchy hdescribes hfamily, ?_⟩
  intro x hx y hy hne hyx m n hm hn hname hparams
  have hmx := hm.provides
  have hny := hn.provides
  have harity : n.arity = m.arity := congrArg List.length hparams
  rw [hname, harity] at hny
  obtain ⟨h, hfound, hfirst⟩ := LoadedClass.declaredMember?_of_provides hx hmx hm.2.1
  -- whichever of the two classes is searched first hides the other one, and the order of the search
  -- is known
  have hnodup := LoadedClass.nodup_searchOrder hs.population hc
  have horder := LoadedClass.searchOrder_before_iff hs.population hc hx hy hne hyx
  have hdeclared := hs.finds_declaredMember hdescribes hfamily m.name m.arity
  have hmember := hs.finds_member hd hfamily m.name m.arity
  rw [hfound] at hdeclared
  refine ⟨h, _, hdeclared, hmember, ?_, fun hway => ?_, fun hway => ?_⟩
  · rw [← hfound]
    exact LoadedClass.member?_eq d.added d.cls m.name m.arity
  · exact hfirst.owner_ne hnodup (horder.mpr hway) hne hny hn.2.1
  · have hbefore : [x, y].Sublist d.cls.searchOrder :=
      (LoadedClass.pair_sublist_or (LoadedClass.mem_searchOrder.mpr hx)
        (LoadedClass.mem_searchOrder.mpr hy) hne).resolve_right
        (mt horder.mp hway)
    exact hfirst.owner_ne hnodup hbefore (Ne.symm hne) hmx hm.2.1

/-- The method that is declared twice. -/
def say : MethodSignature := ⟨"say", [], "String", .publicOnly⟩

/-- An interface with a method. -/
def speaker : LoadedClass where
  no := 1
  name := "Speaker"
  modifiers := ClassDefinition.interfaceModifiers
  superclass := none
  interfaces := []
  fields := []
  methods := [say]
  constructors := []

/-- A class that implements it. -/
def person : LoadedClass where
  no := 2
  name := "Person"
  modifiers := .publicOnly
  superclass := some .root
  interfaces := [speaker]
  fields := []
  methods := [say]
  constructors := []

/-- A person, and a speaker only as a person. -/
def pupil : LoadedClass where
  no := 3
  name := "Pupil"
  modifiers := .publicOnly
  superclass := some person
  interfaces := []
  fields := []
  methods := []
  constructors := []

/-- A person that is declared as a speaker once more. -/
def student : LoadedClass := { pupil with no := 4, name := "Student", interfaces := [speaker] }

def speakerActions : List Action := [
  .addLoader,
  .define 0
    { name := "Speaker", modifiers := ClassDefinition.interfaceModifiers, methods := [say] },
  .define 0 { name := "Person", interfaces := ["Speaker"], methods := [say] },
  .define 0 { name := "Pupil", superclass := some "Person" },
  .define 0 { name := "Student", superclass := some "Person", interfaces := ["Speaker"] },
  .describe 3,
  .describe 4]

/-- The session knows the classes, nothing was unloaded, and its records describe the last two. -/
theorem speaker_described :
    let s : Session Unit := (start .slot fun _ _ => true).run speakerActions
    s.classes = [.root, speaker, person, pupil, student] ∧ (∀ c, s.realm.space.HasFamily c) ∧
      s.cache.Describes 0 pupil ∧ s.cache.Describes 1 student := by
  intro s
  have hunloaded : s.realm.space.unloaded = [] := rfl
  refine ⟨rfl, fun c no _ => ?_, ⟨_, rfl, rfl⟩, ⟨_, rfl, rfl⟩⟩
  rw [ClassSpace.isLoaded, hunloaded]
  rfl

theorem speaker_ne_person : speaker ≠ person :=
  fun heq => absurd (congrArg LoadedClass.no heq) (by decide)

theorem declaresPlain_say :
    speaker.DeclaresPlain ⟨.method 1 0, speaker, say⟩ ∧
      person.DeclaresPlain ⟨.method 2 0, person, say⟩ := by
  refine ⟨⟨⟨List.mem_singleton_self _, ?_⟩, ?_⟩, ⟨⟨List.mem_singleton_self _, ?_⟩, ?_⟩⟩
  all_goals decide

/-- The interface comes before the class that overrides its method, since it is declared again. -/
theorem declaredMember?_student :
    student.declaredMember? "say" 0 = some (.method ⟨.method 1 0, speaker, say⟩) := by
  have horder : student.searchOrder = [student, speaker, person, .root] := rfl
  have hstudent : student.ownMethod? "say" 0 = none := by
    rw [LoadedClass.ownMethod?_eq_none_iff]
    rintro h ⟨⟨hmem, -⟩, -⟩
    cases hmem
  have hnormal : speaker.methodTable.normal = [⟨.method 1 0, speaker, say⟩] :=
    List.mergeSort_singleton _
  have hspeaker : speaker.ownMethod? "say" 0 = some ⟨.method 1 0, speaker, say⟩ := by
    rw [LoadedClass.ownMethod?, LoadedClass.find_methodTable, hnormal]
    rfl
  rw [LoadedClass.declaredMember?, horder, LoadedClass.searchMethod, hstudent,
    LoadedClass.searchMethod, hspeaker]
  rfl

/-- The first way from a pupil to speakers goes through persons. -/
theorem override_found_pupil :
    let s : Session Unit := (start .slot fun _ _ => true).run speakerActions
    pupil ∈ s.classes ∧ s.realm.space.HasFamily pupil ∧ OnFirstWay speaker person pupil ∧
      ∃ h, (Resolution.declaredMember pupil 0 "say" 0).Finds s.realm (some (.method h)) ∧
        h.owner ≠ speaker := by
  intro s
  obtain ⟨hclasses, hfamily, hpupil, -⟩ := speaker_described
  have hmem : pupil ∈ s.classes := by simp [s, hclasses]
  have hlineage : pupil.lineage = [pupil, person, speaker, .root] := rfl
  have hway : OnFirstWay speaker person pupil := .up rfl .here
  obtain ⟨d, hd, hcls⟩ := hpupil
  obtain ⟨cs, hcs, hall⟩ :=
    override_found .slot _ speakerActions pupil hmem (hfamily pupil) 0 d hd hcls
  have hs : s.Orderly := (start_orderly _ _).run speakerActions
  obtain rfl := hcs.unique (hs.finds_hierarchy ⟨d, hd, hcls⟩ (hfamily pupil))
  obtain ⟨h, -, hfound, -, -, hhidden, -⟩ :=
    hall speaker (by simp [hlineage]) person (by simp [hlineage]) speaker_ne_person (by decide) _ _
      declaresPlain_say.1
      declaresPlain_say.2 rfl rfl
  exact ⟨hmem, hfamily pupil, hway, h, hfound, hhidden (.inr hway)⟩

/-- A person overrides the method, but a student, who is declared as a speaker once more, has the
overridden one. -/
theorem override_hidden_student :
    let s : Session Unit := (start .slot fun _ _ => true).run speakerActions
    student ∈ s.classes ∧ s.realm.space.HasFamily student ∧ s.cache.Describes 1 student ∧
      (View.hierarchy student 1).FindsClasses s.realm [student, speaker, .root, person] ∧
      speaker ≠ person ∧ speaker.isAssignableFrom person = true ∧
      speaker.DeclaresPlain ⟨.method 1 0, speaker, say⟩ ∧
        person.DeclaresPlain ⟨.method 2 0, person, say⟩ ∧
      (Resolution.declaredMember student 1 "say" 0).Finds s.realm
        (some (.method ⟨.method 1 0, speaker, say⟩)) := by
  intro s
  obtain ⟨hclasses, hfamily, -, hstudent⟩ := speaker_described
  have hs : s.Orderly := (start_orderly _ _).run speakerActions
  have hfound := hs.finds_declaredMember hstudent (hfamily student) "say" 0
  rw [declaredMember?_student] at hfound
  have hhierarchy := hs.finds_hierarchy hstudent (hfamily student)
  exact ⟨by simp [s, hclasses], hfamily student, hstudent, hhierarchy, speaker_ne_person, by decide,
    declaresPlain_say.1, declaresPlain_say.2, hfound⟩

end Session

end Metaobject
