import Metaobject.Proofs.Enumeration.Repetition
import Metaobject.Proofs.FreshName
import Metaobject.Proofs.Tree.VariableNames

/-!
# Hidden parameters

A constructor that gets hidden parameters must not notice them. Their names are used nowhere else in
it, it hands them on in its first statement, and when both are taken out it is what it was. Its
`this(...)` call means the same constructor as before, since all constructors of the class and the
call itself grow by two.

* `hiddenNames_not_taken`: the hidden parameters of a constructor are no parameters or variables of
  it.
* `injected_addHidden`: what becomes of a constructor that gets hidden parameters.
* `constructorChoice_this_of_shifted`: what a `this(...)` call is bound to when everything grows by
  two.
* `completeConstructors_injects_hidden` and `completeConstructors_keeps_this_choices` say this of
  whole classes.
-/

namespace Metaobject

namespace Constructor

/-! ## Taking hidden parameters out -/

/-- The arguments of the `this(...)` call that a constructor starts with. -/
def thisArgs? (k : Constructor) : Option (List Expr) :=
  match k.body with
  | .expr (.construct .this args _ _) :: _ => some args
  | _ => none

/-- A body that no longer hands on two hidden parameters: the `this(...)` call that it starts with
loses its first two arguments, and a `super(...)` call goes. -/
def dropHandedOn : Block → Block
  | .expr (.construct .this args d s) :: rest => .expr (.construct .this (args.drop 2) d s) :: rest
  | .expr (.construct .super _ _ _) :: rest => rest
  | body => body

/-- A constructor without its hidden parameters. -/
def withoutHidden (k : Constructor) : Constructor :=
  { k with params := k.params.drop 2, body := dropHandedOn k.body, hiddenParams := false }

/-- What becomes of a constructor that gets the hidden parameters `p` and `q`. With `forward`, its
own parameters are handed on too. -/
structure Injected (forward : Bool) (p q : String) (k k' : Constructor) : Prop where
  params : k'.params = .plain p Builtin.stringType :: .plain q Builtin.intType :: k.params
  distinct : p ≠ q
  unlike_params : ∀ x ∈ k.params, x.name ≠ p ∧ x.name ≠ q
  unnamed : ¬Stmt.AnyNamesVar p k.body ∧ ¬Stmt.AnyNamesVar q k.body
  /-- A constructor that starts with `this(...)` hands them on there. -/
  this_call : ∀ args d s rest, k.body = .expr (.construct .this args d s) :: rest →
    k'.body = .expr (.construct .this ([.param p, .param q] ++ args) d s) :: rest
  /-- Any other constructor hands them on to the superclass first. -/
  super_call : k.thisArgs? = none →
    k'.body = .expr
      (.superCall ([.param p, .param q] ++ if forward then k.params.map (.param ·.name) else [])) ::
      k.body
  marked : k'.hiddenParams = true
  undone : k'.withoutHidden = k

/-- What becomes of a constructor when its class is completed. -/
inductive CompletedTo (forward : Bool) (k k' : Constructor) : Prop where
  /-- It has hidden parameters or starts with `super(...)`, and stays as it is. -/
  | kept (h : k.hiddenParams = true ∨ k.superArgs?.isSome = true) (hsame : k' = k)
  | injected (hplain : k.hiddenParams = false) (hsuper : k.superArgs? = none) (p q : String)
      (h : k.Injected forward p q k')

/-- A constructor is complete if it has hidden parameters or starts with `super(...)`. -/
theorem isComplete_eq (k : Constructor) :
    k.isComplete = (k.hiddenParams || k.superArgs?.isSome) := by
  rw [isComplete, superArgs?]
  cases k.body with
  | nil => rfl
  | cons s rest =>
    cases s with
    | expr e =>
      cases e with
      | construct kind => cases kind <;> rfl
      | _ => rfl
    | _ => rfl

end Constructor

namespace Enumeration

/-! ## One constructor -/

variable {k : Constructor}

/-- Each name is fresh for what the constructor names, and the second one also differs from the
first. -/
theorem hiddenNames_fresh (k : Constructor) :
    (hiddenNames k).1 ∉ Block.variableNames k.body ++ k.params.map (·.name) ∧
      (hiddenNames k).2 ∉ Block.variableNames k.body
        ++ k.params.map (·.name) ++ [(hiddenNames k).1] :=
  ⟨freshName_not_mem _ _, freshName_not_mem _ _⟩

/-- The two hidden names differ. -/
theorem hiddenNames_distinct (k : Constructor) : (hiddenNames k).1 ≠ (hiddenNames k).2 := by
  intro heq
  exact (hiddenNames_fresh k).2 (List.mem_append_right _ (List.mem_singleton.mpr heq.symm))

/-- The hidden names are no names that the constructor uses. -/
theorem hiddenNames_not_taken (k : Constructor) {n : String}
    (hn : n ∈ Block.variableNames k.body ++ k.params.map (·.name)) :
    n ≠ (hiddenNames k).1 ∧ n ≠ (hiddenNames k).2 := by
  constructor
  · intro heq
    exact (hiddenNames_fresh k).1 (heq ▸ hn)
  · intro heq
    exact (hiddenNames_fresh k).2 (List.mem_append_left _ (heq ▸ hn))

/-- What a constructor that is not complete becomes. -/
theorem addHidden_of_open (forward : Bool) (hopen : k.isComplete = false) :
    addHidden forward k = { k with
      params :=
        .plain (hiddenNames k).1 Builtin.stringType :: .plain
        (hiddenNames k).2 Builtin.intType :: k.params
      body := passHidden [.param (hiddenNames k).1, .param (hiddenNames k).2]
        (if forward then k.params.map (.param ·.name) else []) k.body
      hiddenParams := true } := by
  rw [addHidden]
  exact if_neg (show ¬k.isComplete = true by rw [hopen]; exact Bool.false_ne_true)

/-- Without `this(...)`, the hidden parameters go into a new `super(...)`. -/
theorem passHidden_of_thisArgs?_eq_none (hidden forward : List Expr) (hthis : k.thisArgs? = none) :
    passHidden hidden forward k.body = .expr (.superCall (hidden ++ forward)) :: k.body := by
  rw [passHidden]
  intro args d s rest hbody
  rw [Constructor.thisArgs?, hbody] at hthis
  exact Option.some_ne_none _ hthis

/-- Handing on two parameters can be undone. -/
theorem dropHandedOn_passHidden (a b : Expr) (forward : List Expr) (body : Block) :
    Constructor.dropHandedOn (passHidden [a, b] forward body) = body := by
  unfold passHidden
  split <;> rfl

/-- A constructor that is not complete gets hidden parameters that nothing in it names, and loses
nothing. -/
theorem injected_addHidden (forward : Bool) (hopen : k.isComplete = false) :
    k.Injected forward (hiddenNames k).1 (hiddenNames k).2 (addHidden forward k) := by
  have hplain : k.hiddenParams = false := by
    rw [Constructor.isComplete, Bool.or_eq_false_iff] at hopen
    exact hopen.1
  -- the two names are chosen apart from all names of the body and of the parameters
  have hbody {n : String} (h : Stmt.AnyNamesVar n k.body) : n ≠ (hiddenNames k).1 ∧
    n ≠ (hiddenNames k).2 :=
    hiddenNames_not_taken k (List.mem_append_left _ (Block.mem_variableNames_iff.mpr h))
  rw [addHidden_of_open forward hopen]
  constructor
  case params => rfl
  case distinct => exact hiddenNames_distinct k
  case unlike_params =>
    intro x hx
    exact hiddenNames_not_taken k (List.mem_append_right _ (List.mem_map_of_mem hx))
  case unnamed => exact ⟨fun h => (hbody h).1 rfl, fun h => (hbody h).2 rfl⟩
  case this_call =>
    intro args d s rest hthis
    show passHidden _ _ k.body = _
    rw [hthis, passHidden]
  case super_call => exact passHidden_of_thisArgs?_eq_none _ _
  case marked => rfl
  case undone =>
    show { k with
      params := k.params, body := Constructor.dropHandedOn (passHidden _ _ k.body),
      hiddenParams := false } = k
    rw [dropHandedOn_passHidden, ← hplain]

/-- Every constructor is completed in one of the three ways. -/
theorem completedTo_addHidden (forward : Bool) (k : Constructor) :
    k.CompletedTo forward (addHidden forward k) := by
  cases hcomplete : k.isComplete with
  | true =>
    rw [addHidden_of_isComplete hcomplete]
    rw [Constructor.isComplete_eq, Bool.or_eq_true] at hcomplete
    exact .kept hcomplete rfl
  | false =>
    have hinjected := injected_addHidden forward hcomplete
    rw [Constructor.isComplete_eq, Bool.or_eq_false_iff, Option.isSome_eq_false_iff,
      Option.isNone_iff_eq_none]
      at hcomplete
    exact .injected hcomplete.1 hcomplete.2 _ _ hinjected

/-- A `this(...)` call gets the hidden parameters in front. -/
theorem thisArgs?_addHidden (forward : Bool) (hopen : k.isComplete = false) {args : List Expr}
    (hthis : k.thisArgs? = some args) : (addHidden forward k).thisArgs?
      = some (.param (hiddenNames k).1 :: .param (hiddenNames k).2 :: args) := by
  have hinjected := injected_addHidden forward hopen
  rw [Constructor.thisArgs?] at hthis
  split at hthis
  · rename_i args' d s rest hbody
    have hsame : args' = args := Option.some.inj hthis
    rw [Constructor.thisArgs?, hinjected.this_call args' d s rest hbody, hsame]
    rfl
  · exact absurd hthis.symm (Option.some_ne_none args)

end Enumeration

namespace ClassTable

variable {t t' : ClassTable} {id : ClassId} {c c' : ClassDecl}

/-! ## What a call is bound to -/

/-- What a constructor call is bound to, given the places of the constructors with as many
parameters as it has arguments. -/
def boundTo (id : ClassId) : List Nat → Dispatch
  | [] => .reflective .unknownConstructor
  | [index] => .directConstructor id index
  | _ => .reflective .ambiguousConstructor

/-- The places of the constructors with the given number of parameters. -/
def placesOfArity (ks : List Constructor) (arity : Nat) : List Nat :=
  (ks.zipIdx.filter fun x => x.1.arity == arity).map (·.2)

/-- The choice for a `this(...)` call is made among the constructors of the class. -/
theorem constructorChoice_this (hget : t.get? id = some c) (inStatic : Bool) (args : List Expr) :
    t.constructorChoice ⟨id, inStatic⟩ .this args
      = if args.any Expr.isSpread then .reflective .spreadArguments
        else boundTo c.id (placesOfArity c.constructors args.length) := by
  have hclass : (t.constructedClass? ⟨id, inStatic⟩ .this).bind t.get? = some c := hget
  rw [constructorChoice, hclass, placesOfArity]
  congr 1
  dsimp only
  -- the three cases of the definition, read back as no place, one place, several places
  split
  · rename_i hnone
    have hplaces : (c.constructors.zipIdx.filter fun x => x.1.arity == args.length) = [] := hnone
    rw [hplaces]
    rfl
  · rename_i k index hone
    have hplaces : (c.constructors.zipIdx.filter fun x => x.1.arity == args.length) =
      [(k, index)] := hone
    rw [hplaces]
    rfl
  · rename_i hnone hone
    cases hplaces : c.constructors.zipIdx.filter fun x => x.1.arity == args.length with
    | nil => exact absurd hplaces hnone
    | cons x rest =>
      cases rest with
      | nil => exact absurd hplaces (hone x.1 x.2)
      | cons y rest => rfl

/-- Constructors keep their places when every one of them grows by the same number of parameters. -/
theorem placesOfArity_map {ks : List Constructor} {f : Constructor → Constructor} {more : Nat}
    (hf : ∀ k ∈ ks, (f k).arity = k.arity + more) (arity : Nat) :
    placesOfArity (ks.map f) (arity + more) = placesOfArity ks arity := by
  rw [placesOfArity, List.zipIdx_map, List.filter_map, List.map_map, placesOfArity]
  congr 1
  apply List.filter_congr
  intro x hx
  have hmem : x.1 ∈ ks := List.fst_mem_of_mem_zipIdx hx
  show ((f x.1).arity == arity + more) = (x.1.arity == arity)
  rw [hf x.1 hmem, Bool.eq_iff_iff, beq_iff_eq, beq_iff_eq]
  exact Nat.add_right_cancel_iff

/-- A `this(...)` call is bound as before when all constructors of its class grow by two parameters
and it grows by two arguments. -/
theorem constructorChoice_this_of_shifted (hget : t.get? id = some c) (hget' : t'.get? id = some c')
    (hid : c'.id = c.id) {f : Constructor → Constructor}
    (hmap : c'.constructors = c.constructors.map f)
    (hf : ∀ k ∈ c.constructors, (f k).arity = k.arity + 2) {a b : Expr} (ha : a.isSpread = false)
    (hb : b.isSpread = false) (inStatic : Bool) (args : List Expr) :
    t'.constructorChoice ⟨id, inStatic⟩ .this
      (a :: b :: args) = t.constructorChoice ⟨id, inStatic⟩ .this args := by
  rw [constructorChoice_this hget', constructorChoice_this hget, hid, hmap, List.any_cons,
    List.any_cons, ha, hb]
  show (if args.any Expr.isSpread then _ else boundTo c.id (placesOfArity _ (args.length + 2))) = _
  rw [placesOfArity_map hf]

/-! ## Whole classes -/

theorem visited_of_builtin (t : ClassTable) (hbuiltin : c.builtin = true) : t.visited c = c := by
  rw [visited, if_neg]
  intro hsource
  rw [hsource.2] at hbuiltin
  exact Bool.false_ne_true hbuiltin

/-- A visit of an enum with constructors completes each of them. -/
theorem constructors_visited_of_source (t : ClassTable) (henum : c.isEnum = true)
    (hsource : c.builtin = false) (hne : c.constructors ≠ []) :
    (t.visited c).constructors =
      c.constructors.map (Enumeration.addHidden (c.kind = .constantBody)) := by
  have hempty : ¬c.constructors.isEmpty = true := by rwa [List.isEmpty_iff]
  rw [visited, if_pos ⟨henum, hsource⟩, Enumeration.completeConstructors]
  exact congrArg (List.map _) (if_neg hempty)

/-- Completing an enum or the body of a constant that is not built in gives hidden parameters to
every constructor that has none and does not start with `super(...)`. They are the first two
parameters, nothing else in the constructor has their names, and the constructor hands them on in
its first statement. Taking them out gives the constructor back. All other constructors stay as they
are, and so do the classes that are built in. -/
theorem completeConstructors_injects_hidden (hget : t.get? id = some c) (henum : c.isEnum = true) :
    ∃ t' c', t.completeConstructors id = .ok t' ∧ t'.get? id = some c' ∧
      (c.builtin = true → t' = t) ∧
      (c.builtin = false → c.constructors ≠ [] →
        List.Forall₂
          (Constructor.CompletedTo (c.kind = .constantBody)) c.constructors c'.constructors) := by
  refine ⟨_, _, completeConstructors_of_get? hget, get?_set_self hget _, fun hbuiltin => ?_,
    fun hsource hne => ?_⟩
  · rw [visited_of_builtin t hbuiltin, set_get? hget]
  · rw [constructors_visited_of_source t henum hsource hne, List.forall₂_map_right_iff,
      List.forall₂_same]
    exact fun k _ => Enumeration.completedTo_addHidden _ k

/-- A constructor that uses the names of hidden parameters: it has a parameter `__str`, declares
`__int` and assigns `___int` in a closure. -/
def crowdedConstructor : Constructor :=
  { modifiers := .privateOnly
    params := [.plain "__str" Builtin.stringType]
    body := [.declare "__int" Builtin.intType none .synthetic,
      .expr (.closure [] [.expr (.set (.name "___int") (.int 1))] [] .synthetic)] }

/-- A constructor that starts with `super(...)`. -/
def superConstructor : Constructor :=
  { modifiers := .privateOnly, params := [], body := [.expr (.superCall [])] }

/-- An enum whose constructor uses the names of hidden parameters, so that they get longer ones. Its
other constructors start with `this(...)` and with `super(...)`. -/
def crowdedLevel : ClassDecl := { ClassDecl.empty "Level" .enum with
  superclass := some (.resolved 23 "Enum")
  constructors := [crowdedConstructor, unlabelledConstructor, superConstructor] }

/-- The hidden parameters are named after what the three constructors use. -/
theorem completeConstructors_injects_hidden_level :
    ∃ t' level', (ClassTable.seeded.add crowdedLevel).completeConstructors 25 = .ok t' ∧
      t'.get? 25 = some level' ∧
      List.Forall₂ (Constructor.CompletedTo false) crowdedLevel.constructors level'.constructors ∧
      level'.constructors.map (fun k => k.params.map (·.name))
        = [["___str", "____int", "__str"], ["__str", "__int"], []] := by
  have hget : (ClassTable.seeded.add crowdedLevel).get? 25 = some { crowdedLevel with id := 25 } :=
    rfl
  obtain ⟨t', level', hrun, hget', -, hcompleted⟩ := completeConstructors_injects_hidden hget rfl
  refine ⟨t', level', hrun, hget', hcompleted rfl (List.cons_ne_nil _ _), ?_⟩
  have ht' := Except.ok.inj ((completeConstructors_of_get? hget).symm.trans hrun)
  have hlevel' := Option.some.inj (hget'.symm.trans (ht' ▸ get?_set_self hget _))
  rw [hlevel']
  decide +kernel

/-- A constructor without parameters and code. -/
def bareConstructor : Constructor := { modifiers := .privateOnly, params := [], body := [] }

/-- A built-in enum with such a constructor. -/
def builtinLevel : ClassDecl := { ClassDecl.empty "E" .enum with
  superclass := some (.resolved 23 "Enum"), builtin := true, constructors := [bareConstructor] }

/-- A built-in enum keeps its constructor as it is, though it has no hidden parameters and does not
start with `super(...)`. -/
theorem builtin_enum_gets_no_hidden :
    ∃ t' enum', (ClassTable.seeded.add builtinLevel).completeConstructors 25 = .ok t' ∧
      t'.get? 25 = some enum' ∧
      bareConstructor.hiddenParams = false ∧ bareConstructor.superArgs? = none ∧
      enum'.constructors = [bareConstructor] ∧
      ¬∃ p q, bareConstructor.Injected false p q bareConstructor := by
  refine ⟨_, _, rfl, rfl, rfl, rfl, rfl, ?_⟩
  intro hinjected
  obtain ⟨p, q, h⟩ := hinjected
  exact Bool.false_ne_true h.marked

/-- A `this(...)` call that a constructor starts with is bound to the same constructor as before, or
fails to be bound for the same reason. -/
def KeepsThisChoice (t t' : ClassTable) (id : ClassId) (k k' : Constructor) : Prop :=
  ∀ args, k.thisArgs? = some args → ∃ args', k'.thisArgs? = some args' ∧
    ∀ inStatic, t'.constructorChoice ⟨id, inStatic⟩ .this args' =
      t.constructorChoice ⟨id, inStatic⟩ .this args

/-- Where all constructors of an enum or of the body of a constant get hidden parameters, completing
the class changes nothing in what their `this(...)` calls are bound to. -/
theorem completeConstructors_keeps_this_choices (hget : t.get? id = some c)
    (henum : c.isEnum = true) (hne : c.constructors ≠ [])
    (hopen : ∀ k ∈ c.constructors, k.hiddenParams = false ∧ k.superArgs? = none) :
    ∃ t' c', t.completeConstructors id = .ok t' ∧ t'.get? id = some c' ∧
      List.Forall₂ (t.KeepsThisChoice t' id) c.constructors c'.constructors := by
  refine ⟨_, _, completeConstructors_of_get? hget, get?_set_self hget _, ?_⟩
  cases hbuiltin : c.builtin with
  | true =>
    rw [visited_of_builtin t hbuiltin, set_get? hget, List.forall₂_same]
    exact fun k _ args hthis => ⟨args, hthis, fun _ => rfl⟩
  | false =>
    have hmap := constructors_visited_of_source t henum hbuiltin hne
    have hincomplete : ∀ k ∈ c.constructors, k.isComplete = false := by
      intro k hk
      rw [Constructor.isComplete_eq, (hopen k hk).1, (hopen k hk).2]
      rfl
    have harity : ∀ k ∈ c.constructors,
        (Enumeration.addHidden (c.kind = .constantBody) k).arity = k.arity + 2 := by
      intro k hk
      rw [Enumeration.arity_addHidden, hincomplete k hk, if_neg Bool.false_ne_true]
    have hid : (t.visited c).id = c.id := by
      rw [visited]
      split <;> rfl
    rw [hmap, List.forall₂_map_right_iff, List.forall₂_same]
    intro k hk args hthis
    refine ⟨_, Enumeration.thisArgs?_addHidden _ (hincomplete k hk) hthis, fun inStatic => ?_⟩
    exact constructorChoice_this_of_shifted hget (get?_set_self hget _) hid hmap harity rfl rfl
      inStatic args

/-- Four constructors, two of which take one parameter. A call with two arguments is bound to the
first one, a call with one argument may mean two of them, and a call with a spread argument may mean
any. -/
def delegatingConstructors : List Constructor :=
  [(["label", "unit"], []),
    (["label"], [.expr (.thisCall [.param "label", .string "m"])]),
    (["other"], [.expr (.thisCall [.param "other"])]),
    ([], [.expr (.thisCall [.spread (.name "defaults") .synthetic])])].map
  fun (params, body) =>
    { modifiers := .privateOnly, params := params.map (.plain · Builtin.stringType), body }

def delegatingLevel : ClassDecl := { ClassDecl.empty "Level" .enum with
  superclass := some (.resolved 23 "Enum"), constructors := delegatingConstructors }

def delegatingTable : ClassTable := ClassTable.seeded.add delegatingLevel

/-- Each of the calls means the same with the hidden parameters as without them. -/
theorem completeConstructors_keeps_this_choices_level :
    ∃ t' level', delegatingTable.completeConstructors 25 = .ok t' ∧ t'.get? 25 = some level' ∧
      List.Forall₂ (delegatingTable.KeepsThisChoice t' 25) delegatingConstructors
        level'.constructors ∧
      (delegatingConstructors.map fun k =>
          k.thisArgs?.map (delegatingTable.constructorChoice ⟨25, false⟩ .this))
        = [none, some (.directConstructor 25 0), some (.reflective .ambiguousConstructor),
          some (.reflective .spreadArguments)] := by
  have hget : delegatingTable.get? 25 = some { delegatingLevel with id := 25 } := rfl
  have hopen : ∀ k ∈ delegatingConstructors, k.hiddenParams = false ∧ k.superArgs? = none := by
    refine List.forall_mem_map.mpr fun p hp => ?_
    simp only [List.mem_cons, List.not_mem_nil, or_false] at hp
    rcases hp with rfl | rfl | rfl | rfl <;> exact ⟨rfl, rfl⟩
  obtain ⟨t', level', hrun, hget', hchoices⟩ :=
    completeConstructors_keeps_this_choices hget rfl (List.cons_ne_nil _ _) hopen
  exact ⟨t', level', hrun, hget', hchoices, rfl⟩

end ClassTable

end Metaobject
