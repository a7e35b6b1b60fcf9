import Metaobject.ClassTable.Builtin
import Metaobject.Proofs.ClassTable.Derivation

/-!
# Subtyping is reachability

The subtype search goes in rounds: it takes a pending class, drops it if it was expanded before, and
else adds its parents to the pending classes. It ends when it takes the goal or when nothing is
pending. Cycles, classes that are reached in several ways and references to absent classes are all
allowed.

* `wellFounded_round`: no search goes on for ever, in whatever order it takes the pending classes.
* `rounds_of_search`: the step limit of `search` never cuts it short.
* `isDerivedFrom_iff_reachable`: what `isDerivedFrom` finds out, and how.
-/

namespace Metaobject.ClassTable

/-- A class of the table leads to its resolved superclass and to each of its resolved interfaces. -/
def LinksTo (t : ClassTable) (sub sup : ClassId) : Prop :=
  ∃ c, t.get? sub = some c ∧ ∃ parent, (c.superclass = some parent ∨ parent ∈ c.interfaces) ∧
    parent.classId? = some sup

/-- The classes that a search still has to look at, and those that it has expanded. -/
structure Search where
  pending : List ClassId
  seen : List ClassId

/-- One round of a search. Any pending class may be taken, except that to take the goal ends the
search. -/
inductive Round (t : ClassTable) (goal : ClassId) : Search → Search → Prop
  | drop {id : ClassId} {pending rest seen : List ClassId} (taken : pending.Perm (id :: rest))
      (other : id ≠ goal)
      (known : id ∈ seen) : Round t goal ⟨pending, seen⟩ ⟨rest, seen⟩
  | expand {id : ClassId} {pending rest seen : List ClassId} (taken : pending.Perm (id :: rest))
      (other : id ≠ goal)
      (new : id ∉ seen) : Round t goal ⟨pending, seen⟩ ⟨t.parentsOf id ++ rest, id :: seen⟩

/-- The search can end with this answer: the goal can be taken, or nothing is pending. -/
def Search.Ends (s : Search) (goal : ClassId) : Bool → Prop
  | true => goal ∈ s.pending
  | false => s.pending = []

variable {t : ClassTable} {goal sub sup : ClassId} {s s' : Search}

/-- A class links to its parents. -/
theorem linksTo_iff : t.LinksTo sub sup ↔ sup ∈ t.parentsOf sub := by
  unfold LinksTo parentsOf
  cases t.get? sub with
  | none => simp
  | some c => simp [ClassDecl.mem_parentIds]

/-! ## Every search ends -/

/-- The rounds that a search can still make: one for each pending class and for each link that is
not used up. -/
def Search.left (t : ClassTable) (s : Search) : Nat := s.pending.length + t.linksBeyond s.seen

/-- Each round uses up one of the rounds that are left. -/
theorem Round.left (h : t.Round goal s s') : s'.left t + 1 = s.left t := by
  cases h with
  | drop taken =>
    simp only [Search.left, taken.length_eq, List.length_cons]
    omega
  | expand taken _ new =>
    have hlinks := linksBeyond_cons (t := t) new
    simp only [Search.left, taken.length_eq, List.length_cons, List.length_append]
    omega

/-- No search goes on for ever. -/
theorem wellFounded_round (t : ClassTable) (goal : ClassId) :
    WellFounded fun s' s => t.Round goal s s' := by
  refine Subrelation.wf ?_ (measure (Search.left t)).wf
  intro s' s hround
  show s'.left t < s.left t
  have hleft := hround.left
  omega

/-- With enough steps the search of `search` goes on until it has its answer. -/
theorem rounds_of_search {fuel : Nat} {pending seen : List ClassId}
    (hfuel : Search.left t ⟨pending, seen⟩ < fuel) :
    ∃ s, Relation.ReflTransGen (t.Round goal) ⟨pending, seen⟩ s ∧
      s.Ends goal (t.search goal fuel pending seen) := by
  -- each unit of fuel pays for one round, and each round leaves one less
  induction fuel generalizing pending seen with
  | zero => cases hfuel
  | succ fuel ih =>
    cases pending with
    | nil => exact ⟨_, .refl, rfl⟩
    | cons id pending =>
      unfold search
      by_cases hgoal : id = goal
      · rw [if_pos hgoal]
        exact ⟨_, .refl, hgoal ▸ List.mem_cons_self⟩
      rw [if_neg hgoal]
      by_cases hseen : id ∈ seen
      · rw [if_pos hseen]
        have hround : t.Round goal ⟨id :: pending, seen⟩ ⟨pending, seen⟩ :=
          .drop (.refl _) hgoal hseen
        have hleft := hround.left
        obtain ⟨s, hrounds, hends⟩ := ih (Nat.lt_of_succ_lt_succ (hleft ▸ hfuel))
        exact ⟨s, .head hround hrounds, hends⟩
      · rw [if_neg hseen]
        have hround : t.Round goal ⟨id :: pending, seen⟩ ⟨t.parentsOf id ++ pending, id :: seen⟩ :=
          .expand (.refl _) hgoal hseen
        have hleft := hround.left
        obtain ⟨s, hrounds, hends⟩ := ih (Nat.lt_of_succ_lt_succ (hleft ▸ hfuel))
        exact ⟨s, .head hround hrounds, hends⟩

/-! ## Every search ends with the same answer -/

/-- What a search from a class has found out: it looks at nothing but what the class derives from,
and it has lost no way to the goal. -/
structure Search.Explores (s : Search) (t : ClassTable) (sub goal : ClassId) : Prop where
  derived : ∀ id ∈ s.pending, t.Derives sub id
  expanded : t.Expanded goal s.pending s.seen
  started : sub ∈ s.pending ∨ sub ∈ s.seen

/-- A round keeps what the search has found out. -/
theorem Search.Explores.round (h : s.Explores t sub goal) (hround : t.Round goal s s') :
    s'.Explores t sub goal := by
  -- the order of the pending classes does not matter to the invariant, so the class that is taken
  -- may stand at the front
  cases hround with
  | @drop id pending rest seen taken _ known =>
    have hpending (sup : ClassId) : sup ∈ pending ↔ sup ∈ id :: rest := taken.mem_iff
    have hexpanded : t.Expanded goal (id :: rest) seen := by
      simpa only [Expanded, hpending] using h.expanded
    refine ⟨fun sup hsup => h.derived sup ((hpending sup).mpr (List.mem_cons_of_mem _ hsup)),
      hexpanded.drop known, ?_⟩
    rcases h.started with hstart | hstart
    · rcases List.mem_cons.mp ((hpending sub).mp hstart) with rfl | hrest
      · exact .inr known
      · exact .inl hrest
    · exact .inr hstart
  | @expand id pending rest seen taken other _ =>
    have hpending (sup : ClassId) : sup ∈ pending ↔ sup ∈ id :: rest := taken.mem_iff
    have hexpanded : t.Expanded goal (id :: rest) seen := by
      simpa only [Expanded, hpending] using h.expanded
    have hid : t.Derives sub id := h.derived id ((hpending id).mpr List.mem_cons_self)
    refine ⟨?_, hexpanded.expand other, ?_⟩
    · intro sup hsup
      rcases List.mem_append.mp hsup with hparent | hrest
      · exact hid.tail hparent
      · exact h.derived sup ((hpending sup).mpr (List.mem_cons_of_mem _ hrest))
    · rcases h.started with hstart | hstart
      · rcases List.mem_cons.mp ((hpending sub).mp hstart) with rfl | hrest
        · exact .inr List.mem_cons_self
        · exact .inl (List.mem_append_right _ hrest)
      · exact .inr (List.mem_cons_of_mem _ hstart)

/-- So does any number of rounds. -/
theorem Search.Explores.rounds (h : s.Explores t sub goal)
    (hrounds : Relation.ReflTransGen (t.Round goal) s s') : s'.Explores t sub goal := by
  induction hrounds with
  | refl => exact h
  | tail _ hround ih => exact ih.round hround

/-- At its start a search knows where it starts from. -/
theorem Search.explores_start (t : ClassTable) (sub goal : ClassId) :
    Explores ⟨[sub], []⟩ t sub goal where
  derived _ hid := List.mem_singleton.mp hid ▸ .refl
  expanded _ hid := absurd hid List.not_mem_nil
  started := .inl List.mem_cons_self

/-- The answer of a search says whether the class derives from the goal. -/
theorem Search.Explores.answer (h : s.Explores t sub goal) {answer : Bool}
    (hends : s.Ends goal answer) : answer = true ↔ t.Derives sub goal := by
  cases answer with
  | true => exact iff_of_true rfl (h.derived goal hends)
  | false =>
    refine iff_of_false Bool.false_ne_true fun hderives => ?_
    -- nothing is pending, so the class itself was expanded, and its way to the goal has no open end
    have hnone : s.pending = [] := hends
    have hseen : sub ∈ s.seen := h.started.resolve_left (by simp [hnone])
    obtain ⟨next, hnext, -⟩ := h.expanded.exists_pending hseen hderives
    simp [hnone] at hnext

/-! ## What the search decides -/

/-- On every table, the search for a subtype ends in whatever order it takes the pending classes,
and always with the answer of `isDerivedFrom`: whether the second class can be reached from the
first by going from classes of the table to their resolved superclasses and interfaces. So the
subtype relation is reflexive and transitive. -/
theorem isDerivedFrom_iff_reachable (t : ClassTable) :
    (∀ goal, WellFounded fun s' s => t.Round goal s s') ∧
      (∀ sub sup, ∃ s, Relation.ReflTransGen (t.Round sup) ⟨[sub], []⟩ s ∧
        s.Ends sup (t.isDerivedFrom sub sup)) ∧
      (∀ sub sup s answer, Relation.ReflTransGen (t.Round sup) ⟨[sub], []⟩ s → s.Ends sup answer →
        answer = t.isDerivedFrom sub sup) ∧
      (∀ sub sup, t.isDerivedFrom sub sup = true ↔ Relation.ReflTransGen t.LinksTo sub sup) ∧
      (∀ id, t.isDerivedFrom id id = true) ∧
      ∀ a b c, t.isDerivedFrom a b = true → t.isDerivedFrom b c = true →
        t.isDerivedFrom a c = true := by
  have hlinks : t.LinksTo = fun sub sup => sup ∈ t.parentsOf sub :=
    funext₂ fun _ _ => propext linksTo_iff
  refine ⟨t.wellFounded_round, ?_, ?_, ?_, ?_, ?_⟩
  · intro sub sup
    refine rounds_of_search ?_
    rw [Search.left, linksBeyond_nil, searchBound, List.length_singleton]
    omega
  · intro sub sup s answer hrounds hends
    have hanswer := ((Search.explores_start t sub sup).rounds hrounds).answer hends
    rw [Bool.eq_iff_iff, hanswer, isDerivedFrom_iff]
  · intro sub sup
    rw [isDerivedFrom_iff, Derives, hlinks]
  · intro id
    exact isDerivedFrom_iff.mpr .refl
  · intro a b c hab hbc
    exact isDerivedFrom_iff.mpr ((isDerivedFrom_iff.mp hab).trans (isDerivedFrom_iff.mp hbc))

/-- Two classes that extend each other, one of which also implements an absent class twice. -/
def circleTable : ClassTable := [
  { ClassDecl.empty "Hen" .ordinary with superclass := some (.resolved 26 "Egg") },
  { ClassDecl.empty "Egg" .ordinary with
    superclass := some (.resolved 25 "Hen")
    interfaces := [.resolved 99 "Gone", .resolved 99 "Gone"] }].foldl .add .seeded

/-- Everything on the circle is derived from what it leads to, and from nothing else. -/
theorem isDerivedFrom_iff_reachable_cycle :
    circleTable.isDerivedFrom 25 26 = true ∧ circleTable.isDerivedFrom 26 99 = true ∧
      circleTable.isDerivedFrom 25 99 = true ∧
      Relation.ReflTransGen circleTable.LinksTo 25 99 ∧
      ¬ Relation.ReflTransGen circleTable.LinksTo 25 0 := by
  obtain ⟨-, -, -, hreach, -, htrans⟩ := isDerivedFrom_iff_reachable circleTable
  have hhen : circleTable.isDerivedFrom 25 26 = true := by decide +kernel
  have hgone : circleTable.isDerivedFrom 26 99 = true := by decide +kernel
  have hobject : circleTable.isDerivedFrom 25 0 = false := by decide +kernel
  have hboth := htrans 25 26 99 hhen hgone
  refine ⟨hhen, hgone, hboth, (hreach 25 99).mp hboth, fun h => ?_⟩
  rw [(hreach 25 0).mpr h] at hobject
  cases hobject

end Metaobject.ClassTable
