import Mathlib.Data.List.Nodup
import Mathlib.Data.List.Perm.Subperm
import Mathlib.Logic.Relation
import Metaobject.Dispatch.Selection
import Metaobject.Proofs.ClassTable.WellFormed

/-!
# The search for a method that collects arguments

The search goes from class to superclass and keeps no list of the classes it has seen. Of all cycles
it notices those of one class only: any longer cycle on which no class has a fitting method keeps it
going for ever.

* `PassesOn`: one step of the search.
* `GoesRound`: the steps run into a cycle.
* `findVarargs_ok_iff`: the search ends if and only if it does not run into a cycle, and then it
  looks at each class at most once.
* `staticChoice_returns_iff`: the calls on a known class that get a choice.
-/

namespace Metaobject

namespace ClassTable

variable {t : ClassTable} {name : String} {arity fuel : Nat} {id parent : ClassId}

/-! ## Steps of the search -/

/-- The search passes on from a class to its superclass: the class has no method to offer, and it is
not its own superclass. -/
def PassesOn (t : ClassTable) (name : String) (arity : Nat) (id parent : ClassId) : Prop :=
  ∃ c, t.get? id = some c ∧ c.methods.find? (acceptsVarargs · name arity) = none ∧
    c.superId? = some parent ∧ parent ≠ id

/-- The search from a class runs into a cycle of classes that pass it on. -/
def GoesRound (t : ClassTable) (name : String) (arity : Nat) (id : ClassId) : Prop :=
  ∃ turn, Relation.ReflTransGen (t.PassesOn name arity) id turn ∧
    Relation.TransGen (t.PassesOn name arity) turn turn

theorem PassesOn.lt_size (h : t.PassesOn name arity id parent) : id < t.size := by
  obtain ⟨c, hget, -⟩ := h
  exact lt_size_of_get? hget

/-- A class passes the search on to its superclass. -/
theorem PassesOn.superclassOf (h : t.PassesOn name arity id parent) :
    t.superclassOf id = some parent := by
  obtain ⟨c, hget, -, hparent, -⟩ := h
  rw [superclassOf_of_get? hget, hparent]

/-- Passing the search on costs one unit. -/
theorem PassesOn.findVarargs (h : t.PassesOn name arity id parent) (fuel : Nat) :
    t.findVarargs name arity (fuel + 1) id = t.findVarargs name arity fuel parent := by
  obtain ⟨c, hget, hfind, hparent, hne⟩ := h
  rw [ClassTable.findVarargs, hget]
  simp only [hfind, hparent, if_neg hne]

/-- A class either passes the search on or ends it. -/
theorem passesOn_or_findVarargs_ok (t : ClassTable) (name : String) (arity : Nat) (id : ClassId) :
    (∃ parent, t.PassesOn name arity id parent) ∨ ∃ found, ∀ fuel,
      t.findVarargs name arity (fuel + 1) id = .ok found := by
  simp only [findVarargs]
  cases hget : t.get? id with
  | none => exact .inr ⟨none, fun _ => rfl⟩
  | some c =>
    cases hfind : c.methods.find? (acceptsVarargs · name arity) with
    | some m => exact .inr ⟨some (id, m), fun _ => by simp only [hfind]⟩
    | none =>
      cases hparent : c.superId? with
      | none => exact .inr ⟨none, fun _ => by simp only [hfind, hparent]⟩
      | some parent =>
        by_cases hself : parent = id
        · exact .inr ⟨none, fun _ => by simp only [hfind, hparent, if_pos hself]⟩
        · exact .inl ⟨parent, c, hget, hfind, hparent, hself⟩

/-! ## Cycles -/

/-- What is passed on to a search that goes round goes round. -/
theorem GoesRound.of_passesOn (hstep : t.PassesOn name arity id parent)
    (h : t.GoesRound name arity parent) : t.GoesRound name arity id := by
  obtain ⟨turn, hreach, hround⟩ := h
  exact ⟨turn, .head hstep hreach, hround⟩

/-- A search that runs into a cycle is passed on to a class from which it runs into the cycle
too. -/
theorem GoesRound.exists_passesOn (h : t.GoesRound name arity id) :
    ∃ parent, t.PassesOn name arity id parent ∧ t.GoesRound name arity parent := by
  obtain ⟨turn, hreach, hround⟩ := h
  rcases hreach.cases_head with rfl | ⟨parent, hstep, hrest⟩
  · obtain ⟨parent, hstep, hback⟩ := Relation.TransGen.head'_iff.mp hround
    exact ⟨parent, hstep, id, hback, hround⟩
  · exact ⟨parent, hstep, turn, hrest, hround⟩

/-- No search goes round along finite chains. -/
theorem not_goesRound (hc : t.FiniteChains) (name : String) (arity : Nat) (id : ClassId) :
    ¬ t.GoesRound name arity id := by
  rintro ⟨turn, -, hround⟩
  have hup : t.PassesOn name arity ≤ Function.swap fun parent child =>
    t.superclassOf child = some parent :=
    fun _ _ hstep => hstep.superclassOf
  exact hc.transGen.irrefl.irrefl turn
    (Relation.transGen_swap.mp (Relation.TransGen.mono hup turn turn hround))

/-! ## When the search ends -/

/-- A search that runs into a cycle uses up whatever fuel it is given. -/
theorem GoesRound.findVarargs_error : ∀ (fuel : Nat) {id : ClassId}, t.GoesRound name arity id →
    ∃ start, t.findVarargs name arity fuel id = .error (.endlessSearch start) := by
  intro fuel
  induction fuel with
  | zero => intro id _; exact ⟨id, rfl⟩
  | succ fuel ih =>
    intro id h
    obtain ⟨parent, hstep, hround⟩ := h.exists_passesOn
    rw [hstep.findVarargs]
    exact ih hround

/-- The classes `passed` on the way to `id` are all different and all present, so there are at most
as many of them as the table has classes. -/
theorem findVarargs_ok_of_passed (name : String) (arity : Nat) :
    ∀ (fuel : Nat) (id : ClassId) (passed : List ClassId),
    passed.Nodup → (∀ p ∈ passed, p < t.size) →
      (∀ p ∈ passed, Relation.TransGen (t.PassesOn name arity) p id) →
      ¬ t.GoesRound name arity id → t.size < fuel + passed.length →
        ∃ found, t.findVarargs name arity fuel id = .ok found := by
  intro fuel
  induction fuel with
  | zero =>
    intro id passed hnodup hsize _ _ hfuel
    -- more different classes were passed than the table has
    have hsub : passed ⊆ List.range t.size := fun p hp => List.mem_range.mpr (hsize p hp)
    have hle := (hnodup.subperm hsub).length_le
    rw [List.length_range] at hle
    omega
  | succ fuel ih =>
    intro id passed hnodup hsize hpast hends hfuel
    rcases t.passesOn_or_findVarargs_ok name arity id with ⟨parent, hstep⟩ | ⟨found, hfound⟩
    · rw [hstep.findVarargs]
      -- one class more is passed; passing it a second time would close a cycle
      have hfresh : id ∉ passed := fun hmem => hends ⟨id, .refl, hpast id hmem⟩
      refine ih parent (id :: passed) (List.nodup_cons.mpr ⟨hfresh, hnodup⟩) ?_ ?_
        (hends ∘ .of_passesOn hstep)
        (by simp; omega)
      · exact List.forall_mem_cons.mpr ⟨hstep.lt_size, hsize⟩
      · exact List.forall_mem_cons.mpr ⟨.single hstep, fun p hp => (hpast p hp).tail hstep⟩
    · exact ⟨found, hfound fuel⟩

/-- A search that does not go round ends within the bound. -/
theorem findVarargs_ok (h : ¬ t.GoesRound name arity id) :
    ∃ found, t.findVarargs name arity (t.size + 1) id = .ok found :=
  findVarargs_ok_of_passed name arity _ id [] .nil (by simp) (by simp) h (by simp)

/-- However long the search may take, it ends if and only if it does not run into a cycle. -/
theorem findVarargs_ok_iff :
    (∃ fuel found, t.findVarargs name arity fuel id = .ok found) ↔ ¬ t.GoesRound name arity id := by
  refine ⟨?_, fun h => ⟨t.size + 1, findVarargs_ok h⟩⟩
  rintro ⟨fuel, found, hfound⟩ hround
  obtain ⟨start, herror⟩ := hround.findVarargs_error fuel
  rw [hfound] at herror
  cases herror

/-! ## The choice for a call on a known class -/

/-- The search for a call ends exactly if a method fits or the other search does not go round. -/
theorem findApplicable_ok_iff :
    (∃ found, t.findApplicable id name arity = .ok found)
      ↔ (t.findMethod id name arity).isSome ∨ ¬ t.GoesRound name arity id := by
  rw [findApplicable]
  cases t.findMethod id name arity with
  | some found => simp
  | none =>
    simp only [Option.isSome_none, Bool.false_eq_true, false_or]
    exact ⟨fun ⟨found, h⟩ => findVarargs_ok_iff.mp ⟨_, found, h⟩, findVarargs_ok⟩

/-- A call on a known class gets a choice if it spreads an argument, if a method with this many
parameters is found, or if the search for a method that collects arguments does not run into a
cycle. Where that search ends at all, it has ended after one step for each class of the table and
one more. -/
theorem staticChoice_returns_iff (t : ClassTable) (caching : Bool) (owner : ClassId)
    (method : String) (args : List Expr) :
    ((∃ choice, t.staticChoice caching owner method args = .ok choice)
        ↔ args.any Expr.isSpread ∨ (t.findMethod owner method args.length).isSome
          ∨ ¬ t.GoesRound method args.length owner) ∧
      ∀ arity, ((∃ found, t.findVarargs method arity (t.size + 1) owner = .ok found) ↔
        ¬ t.GoesRound method arity owner) ∧
        ((∃ fuel found, t.findVarargs method arity fuel owner = .ok found) ↔
          ¬ t.GoesRound method arity owner) := by
  refine ⟨?_, fun arity => ⟨⟨fun ⟨found, h⟩ => findVarargs_ok_iff.mp ⟨_, found, h⟩, findVarargs_ok⟩,
    findVarargs_ok_iff⟩⟩
  rw [staticChoice, ← findApplicable_ok_iff]
  by_cases hspread : args.any Expr.isSpread
  · rw [if_pos hspread]
    exact ⟨fun _ => .inl hspread, fun _ => ⟨_, rfl⟩⟩
  · rw [if_neg hspread]
    cases t.findApplicable owner method args.length with
    | error e => simp [hspread, bind, Except.bind]
    | ok found =>
      refine iff_of_true ?_ (.inr ⟨found, rfl⟩)
      rcases found with _ | ⟨declaring, m⟩
      · cases caching <;> exact ⟨_, rfl⟩
      · exact ⟨_, rfl⟩

/-- Two classes without methods, each the superclass of the other. -/
def endlessTable : ClassTable := [
  { ClassDecl.empty "Hen" .ordinary with superclass := some (.resolved 26 "Egg") },
  { ClassDecl.empty "Egg" .ordinary with
    superclass := some (.resolved 25 "Hen") }].foldl .add .seeded

/-- No call on one of the two classes gets a choice, however long the search goes on. -/
theorem staticChoice_endless :
    (∀ choice, endlessTable.staticChoice true 25 "m" [] ≠ .ok choice) ∧
      ∀ fuel found, endlessTable.findVarargs "m" 0 fuel 25 ≠ .ok found := by
  have hforth : endlessTable.PassesOn "m" 0 25 26 := ⟨_, rfl, rfl, rfl, by decide⟩
  have hback : endlessTable.PassesOn "m" 0 26 25 := ⟨_, rfl, rfl, rfl, by decide⟩
  have hround : endlessTable.GoesRound "m" 0 25 := ⟨25, .refl, .head hforth (.single hback)⟩
  refine ⟨fun choice => ?_, fun fuel found hfound =>
    findVarargs_ok_iff.mp ⟨fuel, found, hfound⟩ hround⟩
  obtain ⟨start, herror⟩ := hround.findVarargs_error (endlessTable.size + 1)
  have hmethod : endlessTable.findMethod 25 "m" 0 = none := rfl
  have happlicable : endlessTable.findApplicable 25 "m" 0 = .error (.endlessSearch start) := by
    rw [findApplicable, hmethod]
    exact herror
  rw [staticChoice, if_neg (by decide), List.length_nil, happlicable]
  rintro ⟨⟩

end ClassTable

end Metaobject
