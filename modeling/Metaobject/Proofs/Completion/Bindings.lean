import Metaobject.Proofs.Completion.Steps
import Metaobject.Proofs.Dispatch.Choices

/-!
# Markers point at members

A call that is bound to a constructor or to a method of a known class carries the place of that
member. The member is looked up while classes are being marked, and by then nothing but markers
changes any more. So the place is right in the finished unit.

* `ClassTable.onlyConstructor_of_choice` and `ClassTable.boundMethod_of_choice`: what is looked up
  is there.
* `ClassTable.Answered.pointsAtMember`: a marker that is the choice for its call points at a member.
* `CompilationUnit.complete_answered`: after a run every marker is the choice for its call in the
  finished table.
* `CompilationUnit.complete_binds_members`: after a run every marker points at a member.
-/

namespace Metaobject

/-- The arguments of a call. -/
def Expr.callArgs : Expr → List Expr
  | .call _ _ args _ _ _ _ _ | .staticCall _ _ _ args _ _ | .construct _ args _ _ => args
  | _ => []

/-- Whether a marker binds its call to a method or a constructor. -/
def Dispatch.isBound : Dispatch → Bool
  | .direct _ | .directConstructor _ _ => true
  | _ => false

namespace ClassTable

/-- The class has a constructor of this number, and it is the only one with this many parameters. -/
def OnlyConstructor (t : ClassTable) (owner : ClassId) (index arity : Nat) : Prop :=
  ∃ c k, t.get? owner = some c ∧ c.constructors[index]? = some k ∧ k.arity = arity ∧
    ∀ j k', c.constructors[j]? = some k' → k'.arity = arity → j = index

/-- The target is a method of this name in a class that `owner` extends, and takes this many
arguments. -/
structure BoundMethod (t : ClassTable) (owner : ClassId) (name : String) (arity : Nat)
    (target : MethodTarget) :
    Prop where
  inherited : t.Extends owner target.owner
  name : target.name = name
  declared : ∃ c m, t.get? target.owner = some c ∧ m ∈ c.methods ∧ m.name = target.name ∧
    m.arity = target.arity ∧
    m.isStatic = target.isStatic ∧
    (m.arity = arity ∨ m.modifiers.isVarargs = true ∧ m.arity ≤ arity + 1)

/-- If an expression carries a marker that binds it, the marker points at a member that takes the
arguments. -/
structure PointsAtMember (t : ClassTable) (e : Expr) : Prop where
  constructor : ∀ owner index, e.dispatch? = some (.directConstructor owner index) →
    t.OnlyConstructor owner index e.callArgs.length
  static : ∀ owner ownerName method args target span,
    e = .staticCall owner ownerName method args (some (.direct target)) span →
      t.BoundMethod owner method args.length target
  spread : ∀ d, e.dispatch? = some d → d.isBound = true → e.callArgs.any Expr.isSpread = false

variable {t : ClassTable} {caching : Bool} {ctx : CallContext} {e : Expr} {id owner : ClassId}
  {name : String} {arity : Nat}

/-! ## Constructors -/

/-- A constructor call is bound to the only constructor that fits, and no argument is spread. -/
theorem onlyConstructor_of_choice (hn : t.Numbered) {kind : ConstructorKind} {args : List Expr}
    {index : Nat} (h : t.constructorChoice ctx kind args = .directConstructor owner index) :
    t.OnlyConstructor owner index args.length ∧ args.any Expr.isSpread = false := by
  rw [constructorChoice] at h
  split at h
  · cases h
  rename_i hspread
  refine ⟨?_, by simpa using hspread⟩
  split at h
  · cases h
  rename_i c hclass
  obtain ⟨id, -, hget⟩ := Option.bind_eq_some_iff.mp hclass
  split at h
  · cases h
  · -- the constructors that fit, with their numbers, are one pair
    rename_i k _ hfits
    cases h
    have hmem (j : Nat) (k' : Constructor) :
        c.constructors[j]? = some k' ∧ k'.arity = args.length ↔ k' = k ∧ j = index := by
      have hpair := congrArg ((k', j) ∈ ·) hfits
      simpa [List.mem_zipIdx_iff_getElem?] using hpair
    obtain ⟨hindex, harity⟩ := (hmem index k).mpr ⟨rfl, rfl⟩
    refine ⟨c, k, ?_, hindex, harity, fun j k' hj hk' => ((hmem j k').mp ⟨hj, hk'⟩).2⟩
    rw [hn id c hget]
    exact hget
  · cases h

/-! ## Methods -/

/-- A call on a class is bound to a method that is found there, and no argument is spread. -/
theorem boundMethod_of_choice {args : List Expr} {target : MethodTarget}
    (h : t.staticChoice caching owner name args = .ok (.settled (.direct target))) :
    t.BoundMethod owner name args.length target ∧ args.any Expr.isSpread = false := by
  rw [staticChoice] at h
  split at h
  · cases h
  rename_i hspread
  refine ⟨?_, by simpa using hspread⟩
  obtain ⟨found, hfound, h⟩ := bind_eq_ok.mp h
  rcases found with _ | ⟨declaring, m⟩
  · cases caching <;> cases h
  · cases h
    have hinherits := inherits_of_findApplicable hfound
    obtain ⟨c, hget, hm⟩ := hinherits.declared
    exact ⟨hinherits.inherited, hinherits.name, c, m, hget, hm, rfl, rfl, rfl, hinherits.fits⟩

/-! ## Markers that bind -/

/-- A marker that is bound for a call on an object is a method, and no argument is spread. -/
theorem direct_of_methodChoice {object : Expr} {method : MethodName} {args : List Expr}
    {implicitThis : Bool} {target : Option MethodTarget} {d : Dispatch}
    (h : (t.methodChoice caching ctx object method args implicitThis target).Gives d)
    (hbound : d.isBound = true) :
    (∃ target, d = .direct target) ∧ args.any Expr.isSpread = false := by
  unfold methodChoice at h
  dsimp only at h
  cases hfound : target.filter _ with
  | some target' =>
    rw [hfound] at h
    obtain rfl : d = .direct target' := h
    have hspread := (Option.filter_eq_some_iff.mp hfound).2
    exact ⟨⟨target', rfl⟩, by simpa using hspread⟩
  | none =>
    -- no other choice binds the call
    rw [hfound] at h
    cases method with
    | computed e =>
      obtain rfl : d = .reflective .dynamicName := h
      cases hbound
    | named name =>
      dsimp only at h
      split_ifs at h
      all_goals
        first
        | obtain ⟨index, rfl⟩ : ∃ index, d = .callSite index _ := h
          cases hbound
        | obtain rfl : d = _ := h
          cases hbound

/-- A marker that is bound for a call on a class is a method that the choice settled on. -/
theorem direct_of_staticChoice {args : List Expr} {choice : Choice} {d : Dispatch}
    (h : t.staticChoice caching owner name args = .ok choice) (hgives : choice.Gives d)
    (hbound : d.isBound = true) :
    ∃ target, d = .direct target ∧ choice = .settled (.direct target) := by
  rw [staticChoice] at h
  split at h
  · cases h
    obtain rfl : d = .reflective .spreadArguments := hgives
    cases hbound
  · obtain ⟨found, hfound, h⟩ := bind_eq_ok.mp h
    rcases found with _ | ⟨declaring, m⟩
    · cases caching <;> cases h
      · obtain rfl : d = .reflective .cachingDisabled := hgives
        cases hbound
      · obtain ⟨index, rfl⟩ := hgives
        cases hbound
    · cases h
      exact ⟨_, hgives, rfl⟩

/-- A marker that is bound for a constructor call is a constructor. -/
theorem directConstructor_of_choice {kind : ConstructorKind} {args : List Expr}
    (hbound : (t.constructorChoice ctx kind args).isBound = true) :
    ∃ owner index, t.constructorChoice ctx kind args = .directConstructor owner index := by
  unfold constructorChoice at *
  split_ifs at * with hspread
  · cases hbound
  · split at hbound
    · cases hbound
    · split at hbound
      · cases hbound
      · exact ⟨_, _, rfl⟩
      · cases hbound

/-- A marker that is the choice for its call points at a member. -/
theorem Answered.pointsAtMember (hn : t.Numbered) (h : t.Answered caching ctx e) :
    t.PointsAtMember e := by
  obtain ⟨choice, d, hchoice, hgives, hd⟩ := h
  -- three kinds of call are answered at all, and a static call is the only one that also names its
  -- target
  cases e with
  | call object method args implicitThis safe target marker span =>
    cases hchoice
    refine ⟨fun owner index hmarker => ?_, fun _ _ _ _ _ _ he => Expr.noConfusion he,
      fun d' hmarker hbound => ?_⟩
    · obtain rfl : d = .directConstructor owner index := Option.some.inj (hd.symm.trans hmarker)
      obtain ⟨⟨target, htarget⟩, -⟩ := direct_of_methodChoice hgives rfl
      cases htarget
    · obtain rfl : d = d' := Option.some.inj (hd.symm.trans hmarker)
      exact (direct_of_methodChoice hgives hbound).2
  | staticCall owner ownerName method args marker span =>
    obtain ⟨choice', hstatic, heq⟩ := bind_eq_ok.mp hchoice
    cases heq
    refine ⟨fun owner index hmarker => ?_, fun owner' _ method' args' target _ he => ?_,
      fun d' hmarker hbound => ?_⟩
    · obtain rfl : d = .directConstructor owner index := Option.some.inj (hd.symm.trans hmarker)
      obtain ⟨target, htarget, -⟩ := direct_of_staticChoice hstatic hgives rfl
      cases htarget
    · cases he
      obtain rfl : Dispatch.direct target = d := Option.some.inj hd
      obtain ⟨target', htarget, rfl⟩ := direct_of_staticChoice hstatic hgives rfl
      cases htarget
      exact (boundMethod_of_choice hstatic).1
    · obtain rfl : d = d' := Option.some.inj (hd.symm.trans hmarker)
      obtain ⟨target, -, rfl⟩ := direct_of_staticChoice hstatic hgives hbound
      exact (boundMethod_of_choice hstatic).2
  | construct kind args marker span =>
    cases hchoice
    obtain rfl : d = t.constructorChoice ctx kind args := hgives
    refine ⟨fun owner index hmarker => ?_, fun _ _ _ _ _ _ he => Expr.noConfusion he,
      fun d' hmarker hbound => ?_⟩
    · exact (onlyConstructor_of_choice hn (Option.some.inj (hd.symm.trans hmarker))).1
    · obtain rfl : t.constructorChoice ctx kind args = d' := Option.some.inj (hd.symm.trans hmarker)
      obtain ⟨owner, index, hdirect⟩ := directConstructor_of_choice hbound
      exact (onlyConstructor_of_choice hn hdirect).2
  | _ => cases hchoice

end ClassTable

/-! ## Whole runs -/

namespace CompilationUnit

open ClassTable

variable {settings : CompilerSettings} {u u' : CompilationUnit} {sites : List (ClassId × SiteTable)}

/-- After a run that does not stop early, every marker that a walk over a class of the source meets
is the choice for its call in the finished table. -/
theorem complete_answered (hn : u.table.Numbered) (hc : u.table.FiniteChains)
    (h : u.complete settings = .ok (u', sites)) (hfull : u'.log.isFull = false) {id : ClassId}
    {c : ClassDecl} (hget : u'.table.get? id = some c) (hsource : c.builtin = false) :
    u'.table.AllAnswered settings.callSiteCaching c.id c.nodes := by
  have hsteps := complete_steps hn hc h
  obtain ⟨hstop, -⟩ | ⟨v, hbefore, hmarks⟩ := complete_stops_or_marks hn hc h
  · exact Bool.noConfusion (hfull.symm.trans hstop)
  have hheader := hbefore.header hc
  have hsources : ∀ id ∈ v.table.sourceIds, ∃ c, v.table.get? id = some c := fun id hid =>
    ((mem_sourceIds (hheader.numbered hn)).mp hid).imp fun _ hc => hc.1
  -- marking a class of the finished table once more gives it back
  obtain ⟨t', sites', hrun, hunmarked, hsettled, -⟩ :=
    markClasses_settles settings.callSiteCaching v.table.sourceIds v.table
      (hheader.finiteChains hc) hsources
  obtain ⟨rfl, rfl⟩ : (⟨t', v.log⟩ : CompilationUnit) = u' ∧ sites' = sites := by
    simpa using (hrun v.log).symm.trans hmarks
  have hid : id ∈ v.table.sourceIds := by
    rw [hheader.sourceIds, ← (hsteps.header hc).sourceIds,
      mem_sourceIds ((hsteps.header hc).numbered hn)]
    exact ⟨c, hget, hsource⟩
  obtain ⟨c', keys, hget', hagain⟩ := hsettled id hid
  obtain rfl : c = c' := Option.some.inj (hget.symm.trans hget')
  have hchains := (hsteps.header hc).finiteChains hc
  exact ((markMembers_answers hchains settings.callSiteCaching c).of_run hagain).2

/-- After a run that does not stop early, every marker that a walk over a class of the source meets
points at a member: the only constructor that takes the arguments, or a method that the called class
declares or inherits and that takes them. A call that spreads an argument is never bound. -/
theorem complete_binds_members (hn : u.table.Numbered) (hc : u.table.FiniteChains)
    (h : u.complete settings = .ok (u', sites)) (hfull : u'.log.isFull = false) {id : ClassId}
    {c : ClassDecl} (hget : u'.table.get? id = some c) (hsource : c.builtin = false) {e : Expr}
    (he : .node (.expr e) ∈ c.visits) : u'.table.PointsAtMember e := by
  cases hcall : e.isCall with
  | true =>
    have hnode := ClassDecl.node_mem_visits.mp he
    obtain ⟨inStatic, hanswered⟩ := complete_answered hn hc h hfull hget hsource e hnode hcall
    exact hanswered.pointsAtMember (((complete_steps hn hc h).header hc).numbered hn)
  | false =>
    -- no other expression carries a marker
    have hnone := Expr.dispatch?_of_not_isCall hcall
    refine ⟨fun _ _ hd => ?_, fun _ _ _ _ _ _ he => ?_, fun _ hd => ?_⟩
    · exact nomatch hnone.symm.trans hd
    · rw [he] at hcall
      cases hcall
    · exact nomatch hnone.symm.trans hd

/-- A method that collects its arguments. -/
def collectMethod : Method :=
  ⟨"of", { isPublic := true, isStatic := true, isVarargs := true }, Builtin.objectType,
    [.plain "numbers" (.array Builtin.intType)], some [], none, [], .synthetic⟩

/-- A call of the method on a subclass of the class that declares it. -/
def collectCall (d : Option Dispatch) : Expr :=
  .staticCall 26 "Derived" "of" [.int 1, .int 2] d .synthetic

/-- A constructor call. -/
def baseConstruction (d : Option Dispatch) : Expr :=
  .construct (.new (.resolved 25 "Base")) [.int 1] d .synthetic

/-- The class that declares the method and the constructor, and its subclass with the calls. -/
def derivedTable : ClassTable := [
  { ClassDecl.empty "Base" .ordinary with
    methods := [collectMethod]
    constructors :=
      [{ modifiers := .publicOnly, params := [.plain "n" Builtin.intType], body := [] }] },
  { ClassDecl.empty "Derived" .ordinary with
    superclass := some (.resolved 25 "Base")
    staticInit :=
      [.expr (collectCall none), .expr (baseConstruction none)] }].foldl .add .seeded

def derivedUnit : CompilationUnit := ⟨derivedTable, {}⟩

/-- A call that is bound to an inherited method, and a constructor call. -/
theorem complete_binds_members_inherited :
    ∃ u' sites, derivedUnit.complete {} = .ok (u', sites) ∧
      u'.table.PointsAtMember (collectCall (some (.direct ⟨25, "of", 1, true⟩))) ∧
      u'.table.PointsAtMember (baseConstruction (some (.directConstructor 25 0))) := by
  have hn : derivedUnit.table.Numbered := ClassTable.numbered_iff.mpr (by decide)
  have hc : derivedUnit.table.FiniteChains := finiteChains_of_lt (by decide)
  have hmarked : ∃ u' sites c, derivedUnit.complete {} = .ok (u', sites) ∧
      u'.log.isFull = false ∧ u'.table.get? 26 = some c ∧ c.builtin = false ∧
      c.visits[2]? = some (.node (.expr (collectCall (some (.direct ⟨25, "of", 1, true⟩))))) ∧
      c.visits[6]? = some (.node (.expr (baseConstruction (some (.directConstructor 25 0))))) :=
    ⟨_, _, _, rfl, rfl, rfl, rfl, rfl, rfl⟩
  obtain ⟨u', sites, c, hrun, hfull, hget, hsource, hcall, hmake⟩ := hmarked
  exact ⟨u', sites, hrun,
    complete_binds_members hn hc hrun hfull hget hsource (List.mem_of_getElem? hcall),
    complete_binds_members hn hc hrun hfull hget hsource (List.mem_of_getElem? hmake)⟩

end CompilationUnit

end Metaobject
