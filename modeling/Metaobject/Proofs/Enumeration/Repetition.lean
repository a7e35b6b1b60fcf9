import Mathlib.Data.List.Induction
import Metaobject.Dispatch.Selection
import Metaobject.Proofs.Enumeration.VisitingOrder

/-!
# Bodies that repeat the constructors of their enum

The body of a constant that declares no constructors repeats those of its enum. In the end each of
them should take what the constructor of the enum at the same place takes, and hand it on. This
works for constructors that get their hidden parameters, and for those that have them. A constructor
of the enum that starts with `super(...)` gets none, but the constructor that repeats it does. The
two then differ by two parameters.

* `buildsOn_repeated_iff`: which constructors of an enum are repeated as they should be.
* `StandsAfter.visits`: in which versions an enum and a body stand after any visits.
* `body_built_like_enum_iff`: when a body can be built like its enum.
-/

namespace Metaobject

/-! ## Constructors that hand on their parameters -/

/-- The arguments of the `super(...)` call that a constructor starts with. -/
def Constructor.superArgs? (k : Constructor) : Option (List Expr) :=
  match k.body with
  | .expr (.construct .super args _ _) :: _ => some args
  | _ => none

/-- A constructor of a body that builds on one of its enum: it takes as many parameters, and starts
by handing on exactly its own, in order. -/
def Constructor.BuildsOn (l k : Constructor) : Prop :=
  l.arity = k.arity ∧ l.superArgs? = some (l.params.map fun p => Expr.param p.name)

/-- Whether a constructor of an enum has the hidden parameters in front when it is complete. One
that starts with `super(...)` has them only if it says so itself. -/
def Constructor.takesHidden (k : Constructor) : Bool :=
  if k.hiddenParams then 2 ≤ k.arity else !k.isComplete

namespace Enumeration

/-- Hidden parameters are two more. -/
theorem arity_addHidden (forward : Bool) (k : Constructor) :
    (addHidden forward k).arity = if k.isComplete then k.arity else k.arity + 2 := by
  rw [addHidden]
  split
  · rename_i hcomplete
    rw [if_pos (show k.isComplete = true from hcomplete)]
  · rename_i hopen
    rw [if_neg (show ¬k.isComplete = true from hopen)]
    rfl

/-- Repeating a constructor leaves its hidden parameters out. -/
theorem arity_repeated (k : Constructor) :
    (repeated k).arity = if k.hiddenParams then k.arity - 2 else k.arity := by
  show (if k.hiddenParams then k.params.drop 2 else k.params).length = _
  split
  · rw [List.length_drop, Constructor.arity]
  · rfl

/-- What a constructor repeats has an empty body, so the repeated constructor gets the hidden
parameters and hands on all it takes. -/
theorem superArgs?_repeated (k : Constructor) : (addHidden true (repeated k)).superArgs?
    = some ((addHidden true (repeated k)).params.map fun p => Expr.param p.name) := rfl

/-- A body builds on the constructors that have their hidden parameters in front, and on no
others. -/
theorem buildsOn_repeated_iff (k : Constructor) :
    (addHidden true (repeated k)).BuildsOn (addHidden false k) ↔ k.takesHidden = true := by
  have hopen : (repeated k).isComplete = false := rfl
  have harity : (addHidden true (repeated k)).arity = (repeated k).arity + 2 := by
    rw [arity_addHidden, hopen, if_neg Bool.false_ne_true]
  have hbuilds : (addHidden true (repeated k)).BuildsOn (addHidden false k)
      ↔ (repeated k).arity + 2 = (addHidden false k).arity := by
    rw [Constructor.BuildsOn, harity]
    exact and_iff_left (superArgs?_repeated k)
  rw [hbuilds, arity_repeated, arity_addHidden, Constructor.takesHidden]
  cases hhidden : k.hiddenParams with
  | true =>
    -- the enum leaves the constructor alone, and two parameters are taken off and put back
    have hcomplete : k.isComplete = true := by rw [Constructor.isComplete, hhidden, Bool.true_or]
    simp only [hcomplete, if_true, decide_eq_true_eq]
    omega
  | false =>
    cases hcomplete : k.isComplete
    · simp
    · simp

/-- The constructors that an enum ends up with, before the hidden parameters are added. -/
def declaredOrDefault (c : ClassDecl) : List Constructor :=
  if c.constructors.isEmpty then enumConstructors c.name else c.constructors

theorem declaredOrDefault_ne_nil (c : ClassDecl) : declaredOrDefault c ≠ [] := by
  rw [declaredOrDefault]
  split
  · exact List.cons_ne_nil _ _
  · rename_i hne
    exact mt List.isEmpty_iff.mpr hne

/-- A body inherits the constructors of its enum, declared or default. -/
theorem inherited_eq_map (c : ClassDecl) :
    inherited c.constructors = (declaredOrDefault c).map repeated := by
  rw [inherited, declaredOrDefault]
  split <;> rfl

/-- Default constructors take hidden parameters anyway. -/
theorem takesHidden_declaredOrDefault_iff (c : ClassDecl) :
    (∀ k ∈ declaredOrDefault c, k.takesHidden = true) ↔ ∀ k ∈ c.constructors,
      k.takesHidden = true := by
  rw [declaredOrDefault]
  split
  · -- the default constructors of an enum start with no `super(...)`
    rename_i hempty
    rw [List.isEmpty_iff.mp hempty]
    have hdefault : (enumConstructors c.name).all Constructor.takesHidden = true := rfl
    exact iff_of_true (List.all_eq_true.mp hdefault) (by simp)
  · rfl

end Enumeration

namespace ClassTable

open Enumeration (declaredOrDefault inherited)

/-! ## An enum and a body without constructors -/

/-- `enum` is an enum of the source, and `body` is the body of one of its constants and declares no
constructors. -/
structure BareBody (t : ClassTable) (enum body : ClassId) (e b : ClassDecl) : Prop where
  getEnum : t.get? enum = some e
  enumKind : e.kind = .enum
  source : e.builtin = false
  getBody : t.get? body = some b
  bodyKind : b.kind = .constantBody
  superclass : b.superId? = some enum
  bare : b.constructors = []

variable {t t' : ClassTable} {enum body : ClassId} {e b : ClassDecl}

namespace BareBody

/-- The enum is no body itself. -/
theorem enum_ne_body (h : t.BareBody enum body e b) : e.kind ≠ .constantBody := by
  rw [h.enumKind]
  exact ClassKind.noConfusion

/-- What an enum becomes depends on no other class. -/
theorem visited_enum (h : t.BareBody enum body e b) (t' : ClassTable) :
    t'.visited e = t.visited e := by
  rw [visited, visited, Enumeration.completeConstructors, Enumeration.completeConstructors,
    Enumeration.defaultConstructors, Enumeration.defaultConstructors, if_neg h.enum_ne_body,
    if_neg h.enum_ne_body]

/-- What a body becomes depends on its enum only, and not on whether the enum has been visited. -/
theorem visited_body (h : t.BareBody enum body e b) {d : ClassDecl} (hget : t'.get? enum = some d)
    (hd : d = e ∨ d = t.visited e) : t'.visited b = t.visited b := by
  have hinherited : inherited d.constructors = inherited e.constructors := by
    rcases hd with rfl | rfl
    · rfl
    · exact t.inherited_visited h.enum_ne_body
  have hdefault : Enumeration.defaultConstructors t' b = Enumeration.defaultConstructors t b := by
    rw [Enumeration.defaultConstructors_of_body h.bodyKind,
      Enumeration.defaultConstructors_of_body h.bodyKind, h.superclass, Option.bind_some,
      Option.bind_some, hget, h.getEnum]
    exact hinherited
  rw [visited, visited, Enumeration.completeConstructors, Enumeration.completeConstructors,
    hdefault]

end BareBody

/-! ## Visits -/

/-- After the visits `done` the enum and the body stand in their new versions if they were visited,
and otherwise in their old ones. -/
structure StandsAfter (t : ClassTable) (enum body : ClassId) (e b : ClassDecl) (done : List ClassId)
    (t' : ClassTable) :
    Prop where
  size : t'.size = t.size
  enum : t'.get? enum = some (if enum ∈ done then t.visited e else e)
  body : t'.get? body = some (if body ∈ done then t.visited b else b)

/-- A visit that puts a class into the version `v` puts no other class into it. -/
theorem get?_visit {done : List ClassId} {id j : ClassId} {c d v : ClassDecl}
    (hnow : t'.get? j = some (if j ∈ done then v else c)) (hget : t'.get? id = some d)
    (hnew : id = j → t'.visited d = v) :
    (t'.set id (t'.visited d)).get? j = some (if j ∈ done ++ [id] then v else c) := by
  by_cases hj : id = j
  · subst hj
    rw [get?_set_self hget, hnew rfl, if_pos (by simp)]
  · have hmem : j ∈ done ++ [id] ↔ j ∈ done := by simp [Ne.symm hj]
    rw [get?_set, if_neg fun hsame => hj hsame.1.symm, hnow]
    simp only [hmem]

/-- One more visit. -/
theorem StandsAfter.visit (h : t.BareBody enum body e b) {done : List ClassId}
    (hstands : t.StandsAfter enum body e b done t') {id : ClassId} (hid : id < t.size) :
    ∃ t'', t'.completeConstructors id = .ok t'' ∧
      t.StandsAfter enum body e b (done ++ [id]) t'' := by
  obtain ⟨c, hget⟩ := exists_get?_of_lt (hstands.size.symm ▸ hid)
  refine ⟨_, completeConstructors_of_get? hget,
    by rw [size_set, hstands.size], get?_visit hstands.enum hget ?_,
    get?_visit hstands.body hget ?_⟩
  · -- the enum itself, for the first time or once more
    rintro rfl
    rw [← Option.some.inj (hstands.enum.symm.trans hget)]
    split
    · exact visited_visited t t' e
    · exact h.visited_enum t'
  · rintro rfl
    rw [← Option.some.inj (hstands.body.symm.trans hget)]
    split
    · exact visited_visited t t' b
    · refine h.visited_body hstands.enum ?_
      split
      · exact .inr rfl
      · exact .inl rfl

/-- Any visits, in any order and repeated or not. -/
theorem StandsAfter.visits (h : t.BareBody enum body e b) {ids : List ClassId}
    (hids : ∀ id ∈ ids, id < t.size) :
    ∃ t', ids.foldlM (fun t id => t.completeConstructors id) t = .ok t' ∧
      t.StandsAfter enum body e b ids t' := by
  -- the induction is from the right: the last visit meets the versions that the earlier ones have
  -- left
  induction ids using List.reverseRecOn with
  | nil => exact ⟨t, rfl, rfl, by simpa using h.getEnum, by simpa using h.getBody⟩
  | append_singleton ids id ih =>
    obtain ⟨t₁, hrun, hstands⟩ := ih fun j hj => hids j (List.mem_append_left _ hj)
    obtain ⟨t₂, hlast, hstands'⟩ := hstands.visit h (hids id (by simp))
    refine ⟨t₂, ?_, hstands'⟩
    rw [List.foldlM_append, hrun]
    show (t₁.completeConstructors id >>= pure) = _
    rw [hlast]
    rfl

/-! ## The body and the enum side by side -/

/-- After its visit an enum has its completed constructors. -/
theorem constructors_visited_enum (h : t.BareBody enum body e b) :
    (t.visited e).constructors = (declaredOrDefault e).map (Enumeration.addHidden false) := by
  have hsource : e.IsSourceEnum := ⟨by simp [ClassDecl.isEnum, h.enumKind], h.source⟩
  have hdefault : Enumeration.defaultConstructors t e = Enumeration.enumConstructors e.name :=
    if_neg h.enum_ne_body
  rw [visited, if_pos hsource, Enumeration.completeConstructors, hdefault,
    decide_eq_false h.enum_ne_body]
  rfl

/-- After its visit a body has the constructors of its enum, repeated and completed. -/
theorem constructors_visited_body (h : t.BareBody enum body e b) (hsource : b.builtin = false) :
    (t.visited b).constructors
      = (declaredOrDefault e).map fun k => Enumeration.addHidden true (Enumeration.repeated k) := by
  have henum : b.IsSourceEnum := ⟨by simp [ClassDecl.isEnum, h.bodyKind], hsource⟩
  have hdefault : Enumeration.defaultConstructors t b =
    (declaredOrDefault e).map Enumeration.repeated := by
    rw [Enumeration.defaultConstructors_of_body h.bodyKind, h.superclass, Option.bind_some,
      h.getEnum, ← Enumeration.inherited_eq_map]
    rfl
  rw [visited, if_pos henum, Enumeration.completeConstructors, hdefault, h.bare,
    decide_eq_true h.bodyKind]
  simp

/-- A call finds a constructor if there is one with as many parameters as it has arguments. -/
theorem constructorChoice_ne_unknown {ctx : CallContext} {kind : ConstructorKind} {args : List Expr}
    {id : ClassId} {c : ClassDecl} {k : Constructor}
    (hclass : t.constructedClass? ctx kind = some id) (hget : t.get? id = some c)
    (hk : k ∈ c.constructors) (harity : k.arity = args.length) :
    t.constructorChoice ctx kind args ≠ .reflective .unknownConstructor := by
  obtain ⟨i, hi⟩ := List.mem_iff_getElem?.mp hk
  have hmem : (k, i) ∈ c.constructors.zipIdx := List.mem_zipIdx_iff_getElem?.mpr hi
  rw [constructorChoice, hclass, Option.bind_some, hget]
  split
  · rintro ⟨⟩
  · dsimp only
    split
    · -- the constructor is among those that fit
      rename_i hnone
      have hmisfit := List.filter_eq_nil_iff.mp hnone (k, i) hmem
      exact absurd (beq_iff_eq.mpr harity) hmisfit
    · rintro ⟨⟩
    · rintro ⟨⟩

/-- The body `b` can be built like the enum `e`: it has as many constructors, each builds on the
constructor of the enum at the same place, and its `super(...)` call is never without a
constructor. -/
structure BuiltLike (t : ClassTable) (body : ClassId) (b e : ClassDecl) : Prop where
  buildsOn : List.Forall₂ Constructor.BuildsOn b.constructors e.constructors
  bound : ∀ l ∈ b.constructors, ∀ args ∈ l.superArgs?, ∀ inStatic,
    t.constructorChoice ⟨body, inStatic⟩ .super args ≠ .reflective .unknownConstructor

/-- Where each constructor of the body builds on one of the enum, `super(...)` finds that one. -/
theorem builtLike_of_buildsOn (hsuper : t.superclassOf body = some enum)
    (hget : t.get? enum = some e)
    (h : List.Forall₂ Constructor.BuildsOn b.constructors e.constructors) :
    t.BuiltLike body b e := by
  refine ⟨h, fun l hl args hargs inStatic => ?_⟩
  -- the constructor of the enum at the same place takes as many parameters as there are arguments
  obtain ⟨i, hi, rfl⟩ := List.getElem_of_mem hl
  have hi' : i < e.constructors.length := h.length_eq ▸ hi
  obtain ⟨harity, hown⟩ := (List.forall₂_iff_get.mp h).2 i hi hi'
  have hlength : (e.constructors.get ⟨i, hi'⟩).arity = args.length := by
    rw [← harity, ← Option.some.inj (hown.symm.trans hargs), List.length_map]
    rfl
  exact constructorChoice_ne_unknown hsuper hget (List.get_mem ..) hlength

/-- Let an enum of the source and a body of one of its constants that declares no constructors be
visited, in any order and together with any other classes. The body can be built like the enum
exactly if the body is a class of the source and every constructor that the enum declares has its
hidden parameters in front when it is complete. -/
theorem body_built_like_enum_iff (h : t.BareBody enum body e b) {ids : List ClassId}
    (hids : ∀ id ∈ ids, id < t.size) (henum : enum ∈ ids) (hbody : body ∈ ids) :
    ∃ t' e' b', ids.foldlM (fun t id => t.completeConstructors id) t = .ok t' ∧
      t'.get? enum = some e' ∧ t'.get? body = some b' ∧
      (t'.BuiltLike body b' e' ↔
        b.builtin = false ∧ ∀ k ∈ e.constructors, k.takesHidden = true) := by
  obtain ⟨t', hrun, hstands⟩ := StandsAfter.visits h hids
  have hget := hstands.enum
  have hget' := hstands.body
  rw [if_pos henum] at hget
  rw [if_pos hbody] at hget'
  refine ⟨t', t.visited e, t.visited b, hrun, hget, hget', ?_⟩
  cases hsource : b.builtin with
  | true =>
    -- a precompiled body is not touched, and an enum has constructors after its visit
    have hkept : t.visited b = b :=
      if_neg fun henum => Bool.noConfusion (hsource.symm.trans henum.2)
    have hne : (t.visited e).constructors ≠ [] := by
      rw [constructors_visited_enum h]
      exact mt List.map_eq_nil_iff.mp (Enumeration.declaredOrDefault_ne_nil e)
    simp only [Bool.true_eq_false, false_and, iff_false]
    rintro ⟨hbuilds, -⟩
    rw [hkept, h.bare, List.forall₂_nil_left_iff] at hbuilds
    exact hne hbuilds
  | false =>
    have hpairs :
        List.Forall₂ Constructor.BuildsOn (t.visited b).constructors (t.visited e).constructors ↔
          ∀ k ∈ e.constructors, k.takesHidden = true := by
      rw [constructors_visited_enum h, constructors_visited_body h hsource,
        List.forall₂_map_left_iff, List.forall₂_map_right_iff, List.forall₂_same,
        ← Enumeration.takesHidden_declaredOrDefault_iff]
      exact forall₂_congr fun k _ => Enumeration.buildsOn_repeated_iff k
    have hsuper : t'.superclassOf body = some enum := by
      rw [superclassOf_of_get? hget', ← h.superclass, visited]
      split <;> rfl
    rw [← hpairs, eq_self, true_and]
    exact ⟨fun hbuilt => hbuilt.buildsOn, builtLike_of_buildsOn hsuper hget⟩

def labelConstructor : Constructor :=
  { modifiers := .privateOnly, params := [.plain "label" Builtin.stringType], body := [] }

/-- A constructor that starts with `this(...)`. -/
def unlabelledConstructor : Constructor :=
  { modifiers := .privateOnly, params := [], body := [.expr (.thisCall [.string "none"])] }

/-- An enum with both constructors. -/
def labelLevel : ClassDecl := { ClassDecl.empty "Level" .enum with
  superclass := some (.resolved 23 "Enum")
  constructors := [labelConstructor, unlabelledConstructor] }

/-- The body of one of its constants. -/
def lowBody : ClassDecl :=
  { ClassDecl.empty "Level$LOW" .constantBody with superclass := some (.resolved 25 "Level") }

/-- An enum with a constructor that takes a label and one that starts with `this(...)`, visited
after the body of one of its constants. -/
theorem body_built_like_enum_label :
    ∃ t' level' low',
      [26, 25].foldlM (fun t id => t.completeConstructors id)
        ((ClassTable.seeded.add labelLevel).add lowBody) = .ok t' ∧
      t'.get? 25 = some level' ∧ t'.get? 26 = some low' ∧ t'.BuiltLike 26 low' level' := by
  have h : ((ClassTable.seeded.add labelLevel).add lowBody).BareBody 25 26
      { labelLevel with id := 25 } { lowBody with id := 26 } :=
    ⟨rfl, rfl, rfl, rfl, rfl, rfl, rfl⟩
  have hids : ∀ id ∈ [26, 25], id < ((ClassTable.seeded.add labelLevel).add lowBody).size := by
    decide
  obtain ⟨t', level', low', hrun, hget, hget', hbuilt⟩ :=
    body_built_like_enum_iff h hids (by decide) (by decide)
  have hhidden : ∀ k ∈ labelLevel.constructors, k.takesHidden = true := List.all_eq_true.mp rfl
  exact ⟨t', level', low', hrun, hget, hget', hbuilt.mpr ⟨rfl, hhidden⟩⟩

/-- An enum whose constructor takes the name and the ordinal itself and hands them on. -/
def rawEnum : ClassDecl := { ClassDecl.empty "Raw" .enum with
  superclass := some (.resolved 23 "Enum")
  constructors := [{
    modifiers := .privateOnly
    params := [.plain "n" Builtin.stringType, .plain "o" Builtin.intType]
    body := [.expr (.superCall [.param "n", .param "o"])] }] }

/-- The body of one of its constants. -/
def rawBody : ClassDecl :=
  { ClassDecl.empty "Raw$1" .constantBody with superclass := some (.resolved 25 "Raw") }

/-- The body of a constant takes two parameters more than the enum, and there is no constructor for
its `super(...)` call. -/
theorem body_not_built_like_raw_enum :
    ∃ t' enum' body' args,
      [25, 26].foldlM (fun t id => t.completeConstructors id)
        ((ClassTable.seeded.add rawEnum).add rawBody) = .ok t' ∧
      t'.get? 25 = some enum' ∧ t'.get? 26 = some body' ∧
      enum'.constructors.map Constructor.arity = [2] ∧
      body'.constructors.map Constructor.arity = [4] ∧
      body'.constructors.map Constructor.superArgs? = [some args] ∧
      t'.constructorChoice ⟨26, false⟩ .super args = .reflective .unknownConstructor :=
  ⟨_, _, _, _, rfl, rfl, rfl, rfl, rfl, rfl, rfl⟩

end ClassTable

end Metaobject
