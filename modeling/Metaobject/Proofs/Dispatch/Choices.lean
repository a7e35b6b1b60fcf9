import Mathlib.Logic.Relation
import Metaobject.Proofs.Annotation.Totality
import Metaobject.Proofs.ClassTable.Mentions
import Metaobject.Proofs.Dispatch.Erasure

/-!
# Markers are choices

After a class is marked, every call that a walk over it meets carries the marker of the choice for
it. Where the table mentions its own classes only, so does every choice.

* `markMembers_answers`: the marker of each call is its choice.
* `inherits_of_findApplicable`: a method that is found for a call is declared or inherited, and
  takes the arguments.
* `below_choice`: a choice names classes of the table.
-/

namespace Metaobject

/-- The markers that a choice stands for: a call site may have any number. -/
def Choice.Gives : Choice → Dispatch → Prop
  | .settled d, d' => d' = d
  | .site key, d' => ∃ index, d' = .callSite index key

/-- The class numbers in a choice. -/
def Choice.classIds : Choice → List ClassId
  | .settled d => d.classIds
  | .site key => key.receiver.elim [] TypeRef.classIds

/-- A marker mentions the classes of the choice that gives it. -/
theorem Choice.Gives.classIds {choice : Choice} {d : Dispatch} (h : choice.Gives d) :
    d.classIds = choice.classIds := by
  cases choice with
  | settled d' => exact congrArg Dispatch.classIds h
  | site key =>
    obtain ⟨index, rfl⟩ := h
    rfl

/-- Registering a choice succeeds with a marker that it gives. -/
theorem Choice.register_gives (choice : Choice) (keys : List SiteKey) :
    choice.register.Succeeds keys fun d _ => choice.Gives d := by
  cases choice with
  | settled d => exact ⟨d, keys, rfl, rfl⟩
  | site key => exact ⟨_, _, rfl, keys.length, rfl⟩

namespace ClassTable

/-! ## The marker of a call is its choice -/

/-- The call carries a marker of its choice. -/
def Answered (t : ClassTable) (caching : Bool) (ctx : CallContext) (e : Expr) : Prop :=
  ∃ choice d, t.choice? caching ctx e = .ok (some choice) ∧ choice.Gives d ∧ e.dispatch? = some d

/-- Every call among the nodes carries a marker of its choice in the class with this number. -/
def AllAnswered (t : ClassTable) (caching : Bool) (id : ClassId) (vs : List Visit) : Prop :=
  ∀ e, .expr e ∈ vs → e.isCall → ∃ inStatic, t.Answered caching ⟨id, inStatic⟩ e

variable {t : ClassTable}

/-- The walk leaves every call with a marker that its choice gives. -/
theorem markingWalk_answers (hc : t.FiniteChains) (caching : Bool) (id : ClassId)
    (inStatic : Bool) :
    (t.markingWalk caching ⟨id, inStatic⟩).OnlyMarks fun _ vs _ => t.AllAnswered caching id vs where
  look _ := rfl
  rename _ := rfl
  nil _ := by simp [AllAnswered]
  append hv hw e he hcall := (List.mem_append.mp he).elim (hv e · hcall) (hw e · hcall)
  other hv e he hcall := by
    rw [hv e (List.mem_singleton.mp he).symm] at hcall
    cases hcall
  mark e d keys he := by
    obtain ⟨choice, hchoice, -⟩ := choice?_ok hc caching ⟨id, inStatic⟩ he
    show (t.marker caching ⟨id, inStatic⟩ e d).Succeeds keys _
    rw [marker, hchoice]
    show (choice.register >>= fun d => pure (some d)).Succeeds keys _
    refine (choice.register_gives keys).bind fun d' keys' hgives =>
      .pure fun e' hsame hd e'' he'' _ => ?_
    obtain rfl : e'' = e' := by simpa using he''
    -- the choice reads no marker, so it is the choice for the marked call too
    refine ⟨inStatic, choice, d', ?_, hgives, hd⟩
    rw [← t.choice?_unmarked, hsame, choice?_unmarked, hchoice]

/-- Marking a class changes markers only, and every call met in it afterwards carries a marker of
its choice. -/
theorem markMembers_answers (hc : t.FiniteChains) (caching : Bool) (c : ClassDecl) :
    (t.markMembers caching c).Succeeds [] fun c' _ => c'.unmarked = c.unmarked ∧
      t.AllAnswered caching c.id c'.nodes :=
  markMembers_walks fun inStatic => markingWalk_answers hc caching c.id inStatic

/-! ## Members that are found belong to the table -/

/-- The first class is the second one, or has it among its superclasses. -/
def Extends (t : ClassTable) : ClassId → ClassId → Prop :=
  Relation.ReflTransGen fun sub sup => t.superclassOf sub = some sup

/-- A class on the chain of superclasses is reached by extending, and is in the table. -/
theorem extends_of_mem_chainFrom {owner : ClassId} {c : ClassDecl} :
    ∀ {fuel : Nat} {passed : List ClassId} {id : ClassId}, (owner, c) ∈ t.chainFrom fuel passed id →
      t.Extends id owner ∧ t.get? owner = some c := by
  intro fuel
  induction fuel with
  | zero => simp [chainFrom]
  | succ fuel ih =>
    intro passed id h
    rw [chainFrom] at h
    split at h
    · cases h
    · split at h
      · cases h
      · rename_i d hget
        rcases List.mem_cons.mp h with hfirst | hrest
        · cases hfirst
          exact ⟨.refl, hget⟩
        · split at hrest
          · cases hrest
          · rename_i parent hparent
            obtain ⟨hextends, hget'⟩ := ih hrest
            exact ⟨.head ((superclassOf_of_get? hget).trans hparent) hextends, hget'⟩

/-- A field that is found is declared by the class that is named with it. -/
theorem field?_of_findField {id declaring : ClassId} {name : String} {f : Field}
    (h : t.findField id name = some (declaring, f)) :
    ∃ c, t.get? declaring = some c ∧ c.field? name = some f := by
  obtain ⟨⟨i, c⟩, hchain, hfield⟩ := List.exists_of_findSome?_eq_some h
  obtain ⟨f', hfind, heq⟩ := Option.map_eq_some_iff.mp hfield
  cases heq
  exact ⟨c, (extends_of_mem_chainFrom hchain).2, hfind⟩

theorem get?_of_findField {id owner : ClassId} {name : String} {f : Field}
    (h : t.findField id name = some (owner, f)) : ∃ c, t.get? owner = some c ∧ f ∈ c.fields := by
  obtain ⟨c, hget, hfind⟩ := field?_of_findField h
  exact ⟨c, hget, List.mem_of_find?_eq_some hfind⟩

/-- A method of this name that the class declares or inherits. It has as many parameters as there
are arguments, or it collects them and has at most one more. -/
structure Inherits (t : ClassTable) (id : ClassId) (name : String) (arity : Nat) (owner : ClassId)
    (m : Method) : Prop where
  inherited : t.Extends id owner
  declared : ∃ c, t.get? owner = some c ∧ m ∈ c.methods
  name : m.name = name
  fits : m.arity = arity ∨ m.modifiers.isVarargs = true ∧ m.arity ≤ arity + 1

/-- A method that is found with the right number of parameters is inherited. -/
theorem inherits_of_findMethod {id owner : ClassId} {name : String} {arity : Nat} {m : Method}
    (h : t.findMethod id name arity = some (owner, m)) : t.Inherits id name arity owner m := by
  obtain ⟨⟨i, c⟩, hchain, hmethod⟩ := List.exists_of_findSome?_eq_some h
  obtain ⟨m', hfind, heq⟩ := Option.map_eq_some_iff.mp hmethod
  cases heq
  obtain ⟨hextends, hget⟩ := extends_of_mem_chainFrom hchain
  have hfits := List.find?_some hfind
  simp only [Bool.and_eq_true, beq_iff_eq] at hfits
  exact ⟨hextends, ⟨c, hget, List.mem_of_find?_eq_some hfind⟩, hfits.1, .inl hfits.2⟩

/-- A method that is found because it collects arguments is inherited. -/
theorem inherits_of_findVarargs {name : String} {arity : Nat} {owner : ClassId} {m : Method} :
    ∀ {fuel : Nat} {id : ClassId}, t.findVarargs name arity fuel id = .ok (some (owner, m)) →
      t.Inherits id name arity owner m := by
  intro fuel
  -- the search goes up one superclass with every unit of fuel, and the link it takes is put before
  -- the chain it finds
  induction fuel with
  | zero =>
    intro id h
    cases h
  | succ fuel ih =>
    intro id h
    rw [findVarargs] at h
    split at h
    · cases h
    · rename_i c hget
      split at h
      · rename_i m' _ hfind
        cases h
        have hfits := List.find?_some hfind
        simp only [acceptsVarargs, Bool.and_eq_true, beq_iff_eq, decide_eq_true_eq] at hfits
        exact ⟨.refl, ⟨c, hget, List.mem_of_find?_eq_some hfind⟩, hfits.1.1.1,
          .inr ⟨hfits.1.1.2, hfits.2⟩⟩
      · cases h
      · rename_i parent _ hparent
        split at h
        · cases h
        · have hrest := ih h
          exact ⟨.head ((superclassOf_of_get? hget).trans hparent) hrest.inherited, hrest.declared,
            hrest.name, hrest.fits⟩

/-- A method that is found for a call is inherited. -/
theorem inherits_of_findApplicable {id owner : ClassId} {name : String} {arity : Nat} {m : Method}
    (h : t.findApplicable id name arity = .ok (some (owner, m))) :
    t.Inherits id name arity owner m := by
  rw [findApplicable] at h
  split at h
  · rename_i found hfound
    cases h
    exact inherits_of_findMethod hfound
  · exact inherits_of_findVarargs h

/-! ## Choices name classes of the table -/

theorem below_typeRef {id : ClassId} (h : id < t.size) : Below t.size (t.typeRef id).classIds :=
  List.forall_mem_singleton.mpr h

/-- What a type resolves to is in the table. -/
theorem below_resolve (hn : t.Numbered) {type : TypeRef} (h : Below t.size type.classIds) :
    Below t.size (t.resolve type).classIds := by
  induction type with
  | resolved id name => exact h
  | array c ih => exact ih h
  | unresolved name =>
    rw [resolve, typeNamed]
    split
    · rename_i id hlookup
      exact below_typeRef (lookup_lt hn hlookup)
    · exact below_nil

/-- The type of a field that is found only names classes of the table. -/
theorem below_fieldType (ht : t.Confined true) (hn : t.Numbered) {id : ClassId} {name : String}
    {type : TypeRef} (h : (t.findField id name).map (fun (_, f) => t.resolve f.type) = some type) :
    Below t.size type.classIds := by
  obtain ⟨⟨owner, f⟩, hfind, rfl⟩ := Option.map_eq_some_iff.mp h
  obtain ⟨c, hget, hf⟩ := get?_of_findField hfind
  have hfield := (ClassDecl.below_mentions.mp (ht.get? hget)).2.1 f hf
  simp only [Field.mentions, below_append] at hfield
  exact below_resolve hn hfield.1.1

/-- So does the type of a receiver. -/
theorem below_receiverType (ht : t.Confined true) (hb : t.Based) {ctx : CallContext}
    (hctx : ctx.classId < t.size) {object : Expr} (hobject : Below t.size (object.mentions true)) :
    Below t.size ((t.receiverType? ctx object).elim [] TypeRef.classIds) := by
  cases htype : t.receiverType? ctx object with
  | none => exact below_nil
  | some type =>
    show Below t.size type.classIds
    unfold receiverType? at htype
    split at htype
    · -- the current object, or a variable bound to a field
      split_ifs at htype
      · cases htype
        exact below_typeRef hctx
      · split at htype
        · exact below_fieldType ht hb.numbered htype
        · cases htype
    · cases htype
      exact below_resolve hb.numbered hobject
    · obtain ⟨id, hclass, rfl⟩ := Option.map_eq_some_iff.mp htype
      exact below_typeRef (constantClass_lt hb hclass)
    · exact below_fieldType ht hb.numbered htype
    · cases htype
      simp only [Expr.mentions, ConstructorKind.classIds, below_append] at hobject
      exact below_resolve hb.numbered hobject.1.1
    · cases htype

/-- The choice for a call on an object only mentions classes of the table. -/
theorem below_methodChoice (ht : t.Confined true) (hb : t.Based) (caching : Bool)
    {ctx : CallContext} (hctx : ctx.classId < t.size) {object : Expr}
    (hobject : Below t.size (object.mentions true)) (method : MethodName) (args : List Expr)
    (implicitThis : Bool) {target : Option MethodTarget}
    (htarget : Below t.size (callIds true target none)) :
    Below t.size (t.methodChoice caching ctx object method args implicitThis target).classIds := by
  have hreceiver := below_receiverType ht hb hctx hobject
  unfold methodChoice
  dsimp only
  -- a bound target is mentioned by the call; otherwise only the key of a call site holds a class
  cases hbound : target.filter _ with
  | some target' =>
    obtain rfl := (Option.filter_eq_some_iff.mp hbound).1
    simpa [callIds, Choice.classIds, Dispatch.classIds] using htarget
  | none =>
    cases method with
    | computed e => exact below_nil
    | named name =>
      dsimp only
      split_ifs
      all_goals first | exact below_nil | exact hreceiver

/-- The choice for a call on a class only mentions classes of the table. -/
theorem below_staticChoice {caching : Bool} {owner : ClassId} (howner : owner < t.size)
    {method : String} {args : List Expr} {choice : Choice}
    (h : t.staticChoice caching owner method args = .ok choice) : Below t.size choice.classIds := by
  rw [staticChoice] at h
  split at h
  · cases h
    exact below_nil
  · cases hfound : t.findApplicable owner method args.length with
    | error e =>
      rw [hfound] at h
      cases h
    | ok found =>
      rw [hfound] at h
      -- without a method the call site knows the owner; with one the class that declares it is in
      -- the table
      rcases found with _ | ⟨declaring, m⟩
      · cases caching <;> cases h
        · exact below_nil
        · exact below_typeRef howner
      · cases h
        obtain ⟨c, hget, -⟩ := (inherits_of_findApplicable hfound).declared
        exact List.forall_mem_singleton.mpr (lt_size_of_get? hget)

/-- The choice for a constructor call only mentions classes of the table. -/
theorem below_constructorChoice (hn : t.Numbered) (ctx : CallContext) (kind : ConstructorKind)
    (args : List Expr) : Below t.size (t.constructorChoice ctx kind args).classIds := by
  rw [constructorChoice]
  split
  · exact below_nil
  · split
    · exact below_nil
    · rename_i c hclass
      obtain ⟨id, -, hget⟩ := Option.bind_eq_some_iff.mp hclass
      split
      · exact below_nil
      · refine List.forall_mem_singleton.mpr ?_
        rw [hn id c hget]
        exact lt_size_of_get? hget
      · exact below_nil

/-- A choice names classes of the table. -/
theorem below_choice (ht : t.Confined true) (hb : t.Based) {caching : Bool} {ctx : CallContext}
    (hctx : ctx.classId < t.size) {e : Expr} (he : Below t.size (e.mentions true)) {choice : Choice}
    (h : t.choice? caching ctx e = .ok (some choice)) : Below t.size choice.classIds := by
  cases e with
  | call object method args implicitThis safe target d span =>
    cases h
    simp only [Expr.mentions, callIds, below_append, if_true] at he
    refine below_methodChoice ht hb caching hctx he.1.1.1 method args implicitThis ?_
    simpa [callIds] using he.2.1
  | staticCall owner ownerName method args d span =>
    rw [choice?] at h
    cases hstatic : t.staticChoice caching owner method args with
    | error e =>
      rw [hstatic] at h
      cases h
    | ok choice' =>
      rw [hstatic] at h
      cases h
      simp only [Expr.mentions, List.cons_append, below_cons] at he
      exact below_staticChoice he.1 hstatic
  | construct kind args d span =>
    cases h
    exact below_constructorChoice hb.numbered ctx kind args
  | _ => cases h

end ClassTable

end Metaobject
