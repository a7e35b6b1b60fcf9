import Metaobject.Proofs.ClassTable.Outline
import Metaobject.Proofs.Dispatch.MarkingWalk
import Metaobject.Proofs.Dispatch.VarargsSearch

/-!
# The choice of a dispatch strategy

* `choice?_ok`: where superclass chains end, every call gets a choice, and the key of a call site
  has the name of the called method.
* `choice?_outline`: the choice reads no code of the table, so it does not depend on what other
  classes were marked with.
-/

namespace Metaobject

/-- A choice for a call of the given name: only a call site has a key, and the key has the name. -/
def Choice.Suits (name : Option String) : Choice → Prop
  | .settled d => d.site? = none
  | .site key => name = some key.name

namespace ClassTable

/-! ## Every call gets a choice -/

section Total

variable {t : ClassTable}

/-- The search for a method ends. -/
theorem findApplicable_ok (hc : t.FiniteChains) (id : ClassId) (name : String) (arity : Nat) :
    ∃ found, t.findApplicable id name arity = .ok found :=
  findApplicable_ok_iff.mpr (.inr (not_goesRound hc name arity id))

/-- The choice for a call on an object suits its name. -/
theorem methodChoice_suits (caching : Bool) (ctx : CallContext) (object : Expr)
    (method : MethodName) (args : List Expr) (implicitThis : Bool) (target : Option MethodTarget) :
    (t.methodChoice caching ctx object method args implicitThis target).Suits method.known? := by
  unfold methodChoice
  dsimp only
  -- a bound target settles the call; without one only the name and the settings matter
  generalize target.filter _ = bound
  rcases bound with _ | target
  · cases method with
    | computed e => rfl
    | named name =>
      dsimp only
      split_ifs <;> rfl
  · cases method <;> rfl

/-- There is a choice for a call on a class, and it suits its name. -/
theorem staticChoice_ok (hc : t.FiniteChains) (caching : Bool) (owner : ClassId) (method : String)
    (args : List Expr) :
    ∃ choice, t.staticChoice caching owner method args = .ok choice ∧
      choice.Suits (some method) := by
  obtain ⟨found, hfound⟩ := findApplicable_ok hc owner method args.length
  rw [staticChoice, hfound]
  split
  · exact ⟨_, rfl, rfl⟩
  · rcases found with _ | ⟨declaring, m⟩
    · cases caching <;> exact ⟨_, rfl, rfl⟩
    · exact ⟨_, rfl, rfl⟩

/-- No constructor call gets a call site. -/
theorem constructorChoice_suits (ctx : CallContext) (kind : ConstructorKind) (args : List Expr) :
    (t.constructorChoice ctx kind args).site? = none := by
  rw [constructorChoice]
  split
  · rfl
  · split
    · rfl
    · split <;> rfl

/-- Every call gets a choice, and the key of a call site has the name of the called method. -/
theorem choice?_ok (hc : t.FiniteChains) (caching : Bool) (ctx : CallContext) {e : Expr}
    (he : e.isCall) :
    ∃ choice, t.choice? caching ctx e = .ok (some choice) ∧ choice.Suits e.calledName? := by
  cases e with
  | call object method args implicitThis safe target d span =>
    exact ⟨_, rfl, t.methodChoice_suits ..⟩
  | staticCall owner ownerName method args d span =>
    obtain ⟨choice, hchoice, hsuits⟩ := staticChoice_ok hc caching owner method args
    refine ⟨choice, ?_, hsuits⟩
    rw [choice?, hchoice]
    rfl
  | construct kind args d span => exact ⟨_, rfl, constructorChoice_suits ..⟩
  | _ => cases he

end Total

/-! ## The choice depends on outlines only -/

section Outline

variable (t : ClassTable)

theorem callsClosureField_outline (id : ClassId) (name : String) (arity : Nat) :
    t.outline.callsClosureField id name arity = t.callsClosureField id name arity := by
  rw [callsClosureField, callsClosureField, findField_outline, findMethod_outline]
  cases t.findField id name <;> simp [Field.outline]

/-- The type of a receiver is the same in the outline. -/
theorem receiverType?_outline (ctx : CallContext) (object : Expr) :
    t.outline.receiverType? ctx object = t.receiverType? ctx object := by
  have hfield : ∀ owner name span,
      t.outline.receiverType? ctx (.field owner name span) = t.receiverType? ctx
        (.field owner name span) := by
    intro owner name span
    show (t.outline.findField owner name).map _ = (t.findField owner name).map _
    rw [findField_outline]
    cases t.findField owner name <;> simp [Field.outline]
  cases object with
  | var name binding span =>
    show (if name = "this" then some (t.outline.typeRef ctx.classId) else _) =
      if name = "this" then _ else _
    rw [typeRef_outline]
    split
    · rfl
    · rcases binding with _ | ⟨owner, field⟩ | _ | _
      · rfl
      · exact hfield owner field span
      · rfl
      · rfl
  | field owner name span => exact hfield owner name span
  | construct kind args d span => cases kind <;> simp [receiverType?]
  | constant value span =>
    simp only [receiverType?]
    cases Builtin.constantClass value <;> simp
  | _ => simp [receiverType?]

/-- The choice for a call on an object is the same in the outline. -/
theorem methodChoice_outline (caching : Bool) (ctx : CallContext) (object : Expr)
    (method : MethodName) (args : List Expr) (implicitThis : Bool) (target : Option MethodTarget) :
    t.outline.methodChoice caching ctx object method args implicitThis target
      = t.methodChoice caching ctx object method args implicitThis target := by
  simp only [methodChoice, callsClosureField_outline, receiverType?_outline]

@[simp]
theorem acceptsVarargs_outline (m : Method) (name : String) (arity : Nat) :
    acceptsVarargs m.outline name arity = acceptsVarargs m name arity := by
  rw [acceptsVarargs, acceptsVarargs, Method.arity_outline]
  rfl

/-- The same method that collects arguments is found in the outline. -/
theorem findVarargs_outline (name : String) (arity : Nat) : ∀ (fuel : Nat) (id : ClassId),
    t.outline.findVarargs name arity fuel id
      = (t.findVarargs name arity fuel id).map
        (Option.map fun (owner, m) => (owner, m.outline)) := by
  intro fuel
  induction fuel with
  | zero => intro id; rfl
  | succ fuel ih =>
    intro id
    rw [findVarargs, findVarargs, get?_outline]
    cases t.get? id with
    | none => rfl
    | some c =>
      -- both searches look at the same class and go on to the same parent
      have hfind : c.outline.methods.find? (acceptsVarargs · name arity)
          = (c.methods.find? (acceptsVarargs · name arity)).map Method.outline := by
        have haccepts :
          (acceptsVarargs · name arity) ∘ Method.outline = (acceptsVarargs · name arity) :=
          funext fun m => acceptsVarargs_outline m name arity
        show (c.methods.map Method.outline).find? _ = _
        rw [List.find?_map, haccepts]
      simp only [Option.map_some, hfind, ClassDecl.superId?_outline]
      cases c.methods.find? (acceptsVarargs · name arity) with
      | some m => rfl
      | none =>
        cases c.superId? with
        | none => rfl
        | some parent =>
          simp only [Option.map_none]
          split
          · rfl
          · exact ih parent

/-- The choice for a call on a class is the same in the outline. -/
theorem staticChoice_outline (caching : Bool) (owner : ClassId) (method : String)
    (args : List Expr) :
    t.outline.staticChoice caching owner method args =
      t.staticChoice caching owner method args := by
  have happlicable : t.outline.findApplicable owner method args.length
      = (t.findApplicable owner method args.length).map
        (Option.map fun (owner, m) => (owner, m.outline)) := by
    rw [findApplicable, findApplicable, findMethod_outline, findVarargs_outline, size_outline]
    cases t.findMethod owner method args.length <;> rfl
  rw [staticChoice, staticChoice, happlicable, typeRef_outline]
  split
  · rfl
  · cases t.findApplicable owner method args.length with
    | error e => rfl
    | ok found =>
      cases found with
      | none => rfl
      | some p =>
        simp [Except.map, Method.outline, Method.arity, Method.isStatic, bind, Except.bind]

/-- The choice for a constructor call is the same in the outline. -/
theorem constructorChoice_outline (ctx : CallContext) (kind : ConstructorKind) (args : List Expr) :
    t.outline.constructorChoice ctx kind args = t.constructorChoice ctx kind args := by
  have hclass : t.outline.constructedClass? ctx kind = t.constructedClass? ctx kind := by
    cases kind <;> simp [constructedClass?]
  rw [constructorChoice, constructorChoice, hclass]
  split
  · rfl
  · cases t.constructedClass? ctx kind with
    | none => rfl
    | some id =>
      rw [Option.bind_some, Option.bind_some, get?_outline]
      cases t.get? id with
      | none => rfl
      | some c =>
        simp only [Option.map_some, ClassDecl.fitting_outline]
        -- the choice asks whether there is exactly one fitting constructor, and for its index
        generalize c.constructors.zipIdx.filter _ = fitting
        rcases fitting with _ | ⟨⟨k, i⟩, _ | _⟩ <;> rfl

/-- A call is dispatched by the outlines of classes alone. -/
theorem choice?_outline (caching : Bool) (ctx : CallContext) (e : Expr) :
    t.outline.choice? caching ctx e = t.choice? caching ctx e := by
  cases e
    <;> simp only [choice?, methodChoice_outline, staticChoice_outline, constructorChoice_outline]

end Outline

end ClassTable

end Metaobject
