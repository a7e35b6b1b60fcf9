import Metaobject.Proofs.Completion.Steps

/-!
# Completion keeps what the source declares

The passes write markers, bring annotation values into normal form, and note what they have checked.
An enum also gets members and hidden constructor parameters. Apart from that nothing is lost and
nothing moves.

* `ClassDecl.core` is a class up to markers, values of annotation members and what has been checked.
* `ClassDecl.Keeps` relates a class to what completion makes of it: built-in classes stay as they
  are, a class that is no enum keeps its core, and an enum keeps its members in their places.
* `CompilationUnit.complete_keeps_source`: every run, wherever the log stops it.
-/

namespace Metaobject

/-! ## What the passes may write -/

/-- A usage without the values of its members, as it was before it was checked. -/
def AnnotationUse.blank (a : AnnotationUse) : AnnotationUse :=
  { a with members := a.members.map fun m => (m.1, default), validated := false }

/-- A parameter whose usages have lost the values of their members. -/
def Param.blank (p : Param) : Param :=
  { p with annotations := p.annotations.map AnnotationUse.blank }

/-- A field up to markers and the values of annotation members. -/
def Field.core (f : Field) : Field :=
  { f.unmarked with annotations := f.annotations.map AnnotationUse.blank }

/-- A method up to markers and the values of annotation members. -/
def Method.core (m : Method) : Method :=
  { m.unmarked with
    annotations := m.annotations.map AnnotationUse.blank, params := m.params.map Param.blank }

/-- A constructor up to markers and the values of annotation members. -/
def Constructor.core (k : Constructor) : Constructor :=
  { k.unmarked with
    annotations := k.annotations.map AnnotationUse.blank, params := k.params.map Param.blank }

/-- A class up to markers, the values of annotation members, and what has been checked. -/
def ClassDecl.core (c : ClassDecl) : ClassDecl :=
  { c.unmarked.mapAnnotationUses AnnotationUse.blank with definitionChecked := false }

namespace ClassDecl

variable {c c' : ClassDecl}

theorem fields_core (c : ClassDecl) : c.core.fields = c.fields.map Field.core := by
  show (c.fields.map Field.unmarked).map _ = _
  rw [List.map_map]
  rfl

theorem methods_core (c : ClassDecl) : c.core.methods = c.methods.map Method.core := by
  show (c.methods.map Method.unmarked).map _ = _
  rw [List.map_map]
  rfl

theorem constructors_core (c : ClassDecl) :
    c.core.constructors = c.constructors.map Constructor.core := by
  show (c.constructors.map Constructor.unmarked).map _ = _
  rw [List.map_map]
  rfl

/-- Classes that agree up to markers have the same core. -/
theorem core_of_unmarked (h : c'.unmarked = c.unmarked) : c'.core = c.core := by rw [core, core, h]

/-- Rewriting usages without changing what is left of them keeps the core. -/
theorem core_mapAnnotationUses {f : AnnotationUse → AnnotationUse} (hf : ∀ a, (f a).blank = a.blank)
    (c : ClassDecl) : (c.mapAnnotationUses f).core = c.core := by
  simp [core, mapAnnotationUses, unmarked, Field.unmarked, Method.unmarked, Constructor.unmarked,
    Function.comp_def, hf]

end ClassDecl

/-- Settling members keeps their names and their order. -/
theorem AnnotationUse.map_normalizedMembers (t : ClassTable) (inline : Bool) (c : ClassDecl) :
    ∀ members : List (String × Expr),
      ((AnnotationUse.normalizedMembers t inline c members).map fun m => (m.1, (default : Expr)))
        = members.map fun m => (m.1, default) := by
  intro members
  induction members with
  | nil => rfl
  | cons m rest ih => rw [AnnotationUse.normalizedMembers, List.map_cons, List.map_cons, ih]

/-- Checking a usage keeps its type, the names of its members and its span. -/
theorem AnnotationUse.blank_normalized (t : ClassTable) (inline : Bool) (a : AnnotationUse) :
    (a.normalized t inline).blank = a.blank := by
  obtain ⟨type, members, validated, span⟩ := a
  rw [AnnotationUse.normalized]
  split
  · rfl
  · split
    · rfl
    · rw [AnnotationUse.blank, AnnotationUse.blank, AnnotationUse.map_normalizedMembers]

/-! ## Members in their places -/

/-- Every element is still at its place, up to the relation. -/
def InPlace {α : Type} (R : α → α → Prop) (xs ys : List α) : Prop :=
  ∀ (i : Nat) (x : α), xs[i]? = some x → ∃ y, ys[i]? = some y ∧ R x y

namespace InPlace

variable {α : Type} {R : α → α → Prop} {xs ys zs : List α}

theorem refl (hR : ∀ x, R x x) (xs : List α) : InPlace R xs xs := fun _ x hx => ⟨x, hx, hR x⟩

theorem trans (hR : ∀ {x y z}, R x y → R y z → R x z) (h : InPlace R xs ys) (h' : InPlace R ys zs) :
    InPlace R xs zs := by
  intro i x hx
  obtain ⟨y, hy, hxy⟩ := h i x hx
  obtain ⟨z, hz, hyz⟩ := h' i y hy
  exact ⟨z, hz, hR hxy hyz⟩

/-- An element-wise change keeps all places. -/
theorem map {f : α → α} (hR : ∀ x, R x (f x)) (xs : List α) : InPlace R xs (xs.map f) := by
  intro i x hx
  exact ⟨f x, by rw [List.getElem?_map, hx]; rfl, hR x⟩

/-- Elements may be added behind the others. -/
theorem append (h : InPlace R xs ys) (zs : List α) : InPlace R xs (ys ++ zs) := by
  intro i x hx
  obtain ⟨y, hy, hxy⟩ := h i x hx
  refine ⟨y, ?_, hxy⟩
  rw [List.getElem?_append_left (List.getElem?_eq_some_iff.mp hy).1, hy]

/-- Lists that look the same element by element keep all places. -/
theorem of_map_eq {β : Type} {f : α → β} (hR : ∀ x y, f y = f x → R x y) (h : ys.map f = xs.map f) :
    InPlace R xs ys := by
  intro i x hx
  have hi : ys[i]?.map f = some (f x) := by rw [← List.getElem?_map, h, List.getElem?_map, hx]; rfl
  obtain ⟨y, hy, hyx⟩ := Option.map_eq_some_iff.mp hi
  exact ⟨y, hy, hR x y hyx⟩

end InPlace

/-- The same field; the initializer of an enum constant may be gone. -/
def Field.Keeps (f f' : Field) : Prop :=
  f'.core = f.core ∨ f.isEnumConstant = true ∧ f'.core = { f.core with init := none }

/-- The same method. -/
def Method.Keeps (m m' : Method) : Prop := m'.core = m.core

/-- A body that hands hidden parameters on: in a call of the superclass in front, or in the
`this(...)` call that it starts with. -/
def HandsOn (body body' : Block) : Prop :=
  (∃ args, body' = .expr (.superCall args) :: body) ∨
    ∃ hidden args d s rest, body = .expr (.construct .this args d s) :: rest ∧
      body' = .expr (.construct .this (hidden ++ args) d s) :: rest

/-- The same constructor; it may have got two hidden parameters in front. -/
def Constructor.Keeps (k k' : Constructor) : Prop :=
  k'.core = k.core ∨ k.hiddenParams = false ∧ ∃ name ordinal body, HandsOn k.core.body body ∧
    k'.core = { k.core with params := name :: ordinal :: k.core.params, body, hiddenParams := true }

theorem Field.Keeps.trans {f f' f'' : Field} (h : f.Keeps f') (h' : f'.Keeps f'') :
    f.Keeps f'' := by
  have hconstant : f'.isEnumConstant = f.isEnumConstant := by
    rcases h with h | ⟨-, h⟩ <;> exact congrArg (·.modifiers.isEnum) h
  -- an initializer that is gone stays gone
  rcases h with h | ⟨hc, h⟩ <;> rcases h' with h' | ⟨hc', h'⟩
  · exact .inl (h'.trans h)
  · exact .inr ⟨hconstant ▸ hc', by rw [h', h]⟩
  · exact .inr ⟨hc, h'.trans h⟩
  · exact .inr ⟨hc, by rw [h', h]⟩

theorem Constructor.Keeps.trans {k k' k'' : Constructor} (h : k.Keeps k') (h' : k'.Keeps k'') :
    k.Keeps k'' := by
  have hflag (k : Constructor) : k.core.hiddenParams = k.hiddenParams := rfl
  rcases h with h | ⟨hnew, name, ordinal, body, hbody, h⟩ <;> rcases h' with h' | ⟨hnew', hrest⟩
  · exact .inl (h'.trans h)
  · -- the flag belongs to the core, so the constructor had no hidden parameters before either
    rw [← hflag, h] at hnew'
    rw [h] at hrest
    exact .inr ⟨hnew', hrest⟩
  · exact .inr ⟨hnew, name, ordinal, body, hbody, h'.trans h⟩
  · -- hidden parameters are added once
    rw [← hflag, h] at hnew'
    cases hnew'

/-! ## Code without markers -/

theorem Expr.unmarkedAll_append : (es rest : List Expr) →
    Expr.unmarkedAll (es ++ rest) = Expr.unmarkedAll es ++ Expr.unmarkedAll rest
  | [], _ => rfl
  | e :: es, rest => congrArg (e.unmarked :: ·) (Expr.unmarkedAll_append es rest)

theorem Stmt.unmarkedAll_append : (ss rest : List Stmt) →
    Stmt.unmarkedAll (ss ++ rest) = Stmt.unmarkedAll ss ++ Stmt.unmarkedAll rest
  | [], _ => rfl
  | s :: ss, rest => congrArg (s.unmarked :: ·) (Stmt.unmarkedAll_append ss rest)

/-! ## Classes -/

/-- What completion keeps of a class. -/
structure ClassDecl.Keeps (c c' : ClassDecl) : Prop where
  header : c.SameHeader c'
  builtin : c.builtin = true → c' = c
  plain : c.isEnum = false → c'.core = c.core
  annotations : c'.annotations.map AnnotationUse.blank = c.annotations.map AnnotationUse.blank
  fields : InPlace Field.Keeps c.fields c'.fields
  methods : InPlace Method.Keeps c.methods c'.methods
  constructors : c.constructors ≠ [] →
    c'.constructors.length = c.constructors.length ∧
    InPlace Constructor.Keeps c.constructors c'.constructors
  staticInit : Stmt.unmarkedAll c.staticInit <:+ Stmt.unmarkedAll c'.staticInit

namespace ClassDecl.Keeps

variable {c c' c'' : ClassDecl}

theorem refl (c : ClassDecl) : c.Keeps c where
  header := .refl c
  builtin _ := rfl
  plain _ := rfl
  annotations := rfl
  fields := .refl (fun _ => .inl rfl) _
  methods := .refl (fun m => (rfl : m.core = m.core)) _
  constructors _ := ⟨rfl, .refl (fun _ => .inl rfl) _⟩
  staticInit := List.suffix_rfl

theorem trans (h : c.Keeps c') (h' : c'.Keeps c'') : c.Keeps c'' where
  header := h.header.trans h'.header
  builtin hc := (h'.builtin (h.header.builtin.trans hc)).trans (h.builtin hc)
  plain hc := (h'.plain (h.header.isEnum.trans hc)).trans (h.plain hc)
  annotations := h'.annotations.trans h.annotations
  fields := h.fields.trans .trans h'.fields
  methods := h.methods.trans (fun hm hm' => hm'.trans hm) h'.methods
  constructors hc := by
    obtain ⟨hlength, hkept⟩ := h.constructors hc
    have hc' : c'.constructors ≠ [] :=
      fun hnil => hc (List.length_eq_zero_iff.mp (by rw [← hlength, hnil]; rfl))
    obtain ⟨hlength', hkept'⟩ := h'.constructors hc'
    exact ⟨hlength'.trans hlength, hkept.trans .trans hkept'⟩
  staticInit := h.staticInit.trans h'.staticInit

/-- An enum of the source is still one for the next change. -/
theorem andThen (h : c.Keeps c') (hc : c.IsSourceEnum) (hnext : c'.IsSourceEnum → c'.Keeps c'') :
    c.Keeps c'' :=
  h.trans (hnext (hc.congr h.header))

/-- A class of the source that keeps its core. -/
theorem of_core (hc : c.builtin = false) (h : c'.core = c.core) : c.Keeps c' where
  header :=
    have hfield {α : Type} (f : ClassDecl → α) : f c'.core = f c.core := congrArg f h
    ⟨hfield (·.id), hfield (·.name), hfield (·.kind), hfield (·.superclass), hfield (·.interfaces),
      hfield (·.hasScope), hfield (·.outer), hfield (·.builtin)⟩
  builtin hc' := by
    rw [hc] at hc'
    cases hc'
  plain _ := h
  annotations := congrArg ClassDecl.annotations h
  fields := .of_map_eq (fun _ _ => .inl) (by rw [← fields_core, h, fields_core])
  methods := .of_map_eq (fun _ _ hm => hm) (by rw [← methods_core, h, methods_core])
  constructors _ := by
    have hmap : c'.constructors.map Constructor.core = c.constructors.map Constructor.core := by
      rw [← constructors_core, h, constructors_core]
    refine ⟨?_, .of_map_eq (fun _ _ => .inl) hmap⟩
    simpa using congrArg List.length hmap
  staticInit := by
    have hstatic : Stmt.unmarkedAll c'.staticInit = Stmt.unmarkedAll c.staticInit :=
      congrArg ClassDecl.staticInit h
    exact hstatic ▸ List.suffix_rfl

/-- An enum of the source that gets members. -/
theorem of_members (hc : c.IsSourceEnum) (header : c.SameHeader c')
    (annotations : c'.annotations = c.annotations) (constructors : c'.constructors = c.constructors)
    (fields : InPlace Field.Keeps c.fields c'.fields)
    (methods : InPlace Method.Keeps c.methods c'.methods)
    (static : c.staticInit <:+ c'.staticInit) : c.Keeps c' where
  header
  builtin h := absurd hc.2 (by simp [h])
  plain h := absurd hc.1 (by simp [h])
  annotations := by rw [annotations]
  fields
  methods
  constructors h := by
    rw [constructors]
    exact (refl c).constructors h
  staticInit := by
    obtain ⟨stmts, hstmts⟩ := static
    rw [← hstmts, Stmt.unmarkedAll_append]
    exact List.suffix_append ..

/-- An enum of the source whose constructors change. -/
theorem of_constructors {constructors : List Constructor} (hc : c.IsSourceEnum)
    (h : c.constructors ≠ [] → constructors.length = c.constructors.length ∧
      InPlace Constructor.Keeps c.constructors constructors) : c.Keeps { c with constructors } where
  header := ⟨rfl, rfl, rfl, rfl, rfl, rfl, rfl, rfl⟩
  builtin h := absurd hc.2 (by simp [h])
  plain h := absurd hc.1 (by simp [h])
  annotations := rfl
  fields := (refl c).fields
  methods := (refl c).methods
  constructors := h
  staticInit := List.suffix_rfl

end ClassDecl.Keeps

/-! ## Enums -/

namespace Enumeration

variable {c : ClassDecl}

/-- Adding fields keeps what is there. -/
theorem addFields_keeps (hasConstants : Bool) (self : TypeRef) (hc : c.IsSourceEnum) :
    c.Keeps (addFields hasConstants self c) :=
  .of_members hc ⟨rfl, rfl, rfl, rfl, rfl, rfl, rfl, rfl⟩ rfl rfl
    (((ClassDecl.Keeps.refl c).fields.append _).append _)
    (ClassDecl.Keeps.refl c).methods List.suffix_rfl

/-- Adding methods keeps what is there. -/
theorem addMethods_keeps (ms : List Method) (hc : c.IsSourceEnum) :
    c.Keeps { c with methods := c.methods ++ ms } :=
  .of_members hc ⟨rfl, rfl, rfl, rfl, rfl, rfl, rfl, rfl⟩ rfl rfl (ClassDecl.Keeps.refl c).fields
    ((ClassDecl.Keeps.refl c).methods.append ms) List.suffix_rfl

theorem addCompanions_keeps (id : ClassId) (self : TypeRef) (hc : c.IsSourceEnum) :
    c.Keeps (addCompanions id self c) :=
  addMethods_keeps _ hc

/-- Adding `$INIT` keeps what is there. -/
theorem addInit_keeps (self : TypeRef) (isFinal : Bool) (hc : c.IsSourceEnum) :
    c.Keeps (addInit self isFinal c) := by
  rw [addInit]
  split
  · exact .refl c
  · exact addMethods_keeps _ hc

/-- The new static initializer ends with the former one. -/
theorem addStaticInit_keeps (t : ClassTable) (id : ClassId) (self : TypeRef)
    (planned : List PlannedConstant) (hc : c.IsSourceEnum) :
    c.Keeps (addStaticInit t id self planned c) :=
  .of_members hc ⟨rfl, rfl, rfl, rfl, rfl, rfl, rfl, rfl⟩ rfl rfl (ClassDecl.Keeps.refl c).fields
    (ClassDecl.Keeps.refl c).methods ((List.suffix_cons _ _).trans (List.suffix_append _ _))

theorem modifiers_keeps (modifiers : Modifiers) (hc : c.IsSourceEnum) :
    c.Keeps { c with modifiers } :=
  .of_members hc ⟨rfl, rfl, rfl, rfl, rfl, rfl, rfl, rfl⟩ rfl rfl (ClassDecl.Keeps.refl c).fields
    (ClassDecl.Keeps.refl c).methods List.suffix_rfl

/-- Only constants lose their initializers. -/
theorem dropInitializers_keeps (hc : c.IsSourceEnum) : c.Keeps (dropInitializers c) := by
  have hfield (f : Field) : f.Keeps (if f.isEnumConstant then { f with init := none } else f) := by
    split
    · rename_i hconstant
      exact .inr ⟨hconstant, rfl⟩
    · exact .inl rfl
  exact .of_members hc ⟨rfl, rfl, rfl, rfl, rfl, rfl, rfl, rfl⟩ rfl rfl (.map hfield _)
    (ClassDecl.Keeps.refl c).methods
    List.suffix_rfl

/-- An enum with all its members keeps what it had: new members stand behind the old ones, new
statements in front. -/
theorem complete_keeps (t : ClassTable) (id : ClassId) (hc : c.IsSourceEnum) :
    c.Keeps (complete t id c) := by
  have hfields := addFields_keeps (!(t.plannedConstants c).isEmpty) (t.typeRef id) hc
  have hmethods := hfields.andThen hc (addCompanions_keeps id (t.typeRef id))
  have hinit := hmethods.andThen hc (addInit_keeps (t.typeRef id) (!t.hasConstantBodies c))
  have hstatic := hinit.andThen hc (addStaticInit_keeps t id (t.typeRef id) (t.plannedConstants c))
  exact (hstatic.andThen hc (modifiers_keeps _)).andThen hc dropInitializers_keeps

/-- A body that passes hidden parameters hands them on. -/
theorem passHidden_handsOn (hidden forward : List Expr) (body : Block) :
    HandsOn (Stmt.unmarkedAll body) (Stmt.unmarkedAll (passHidden hidden forward body)) := by
  -- the first statement changes only if it is a `this(...)` call; otherwise one is put in front
  unfold passHidden
  split
  · rename_i args d span rest
    refine .inr ⟨Expr.unmarkedAll hidden, Expr.unmarkedAll args, none, span, Stmt.unmarkedAll rest,
      rfl, ?_⟩
    rw [← Expr.unmarkedAll_append]
    rfl
  · exact .inl ⟨Expr.unmarkedAll (hidden ++ forward), rfl⟩

/-- A constructor that gets hidden parameters is kept. -/
theorem addHidden_keeps (forward : Bool) (k : Constructor) : k.Keeps (addHidden forward k) := by
  rw [addHidden]
  split
  · exact .inl rfl
  · rename_i hnew
    simp only [Bool.or_eq_true, not_or, Bool.not_eq_true] at hnew
    exact .inr ⟨hnew.1, _, _, _, passHidden_handsOn _ _ k.body, rfl⟩

/-- Completing constructors keeps them. -/
theorem completeConstructors_keeps (t : ClassTable) (hc : c.IsSourceEnum) :
    c.Keeps (completeConstructors t c) := by
  refine .of_constructors hc fun hne => ?_
  rw [if_neg (by simpa using hne), List.length_map]
  exact ⟨rfl, .map (addHidden_keeps _) _⟩

end Enumeration

/-! ## Runs -/

/-- Whatever a pass makes of a class of the source keeps what the source declares. -/
theorem ClassTable.Rewrites.keeps {settings : CompilerSettings} {t : ClassTable} {id : ClassId}
    {c c' : ClassDecl} (hchains : t.FiniteChains) (hsource : c.builtin = false)
    (h : t.Rewrites settings id c c') : c.Keeps c' := by
  cases h with
  | init hc => exact Enumeration.addInit_keeps _ true hc
  | members hc => exact Enumeration.complete_keeps t id hc
  | annotations =>
    exact .of_core hsource (ClassDecl.core_mapAnnotationUses (AnnotationUse.blank_normalized t _) c)
  | definition => exact .of_core hsource rfl
  | constructors hc => exact Enumeration.completeConstructors_keeps t hc
  | marks hrun =>
    exact .of_core hsource (ClassDecl.core_of_unmarked (unmarked_of_markMembers hchains hrun))

/-- Completing a unit keeps every class in its place with what the source declares, wherever the log
stops the run. -/
theorem CompilationUnit.complete_keeps_source (settings : CompilerSettings) (u : CompilationUnit)
    (ht : u.table.WellFormed) :
    ∃ u' sites, u.complete settings = .ok (u', sites) ∧
      u.table.Related ClassDecl.Keeps u'.table := by
  obtain ⟨u', sites, hrun⟩ := u.complete_ends settings ht
  refine ⟨u', sites, hrun, ?_⟩
  exact (complete_steps ht.numbered ht.chains hrun).related .refl .trans
    (fun hchains hsource h => h.keeps hchains hsource) ht.chains

/-- A usage of a class that is no annotation type. -/
def shadeUse : AnnotationUse :=
  ⟨.resolved 0 "Object", [("value", .int 1)], false, .synthetic⟩

/-- An enum with a constant, an annotated constructor and a static initializer, and a log that is
full after one problem. -/
def shadeUnit : CompilationUnit := {
  table := ClassTable.seeded.add
    { ClassDecl.empty "Color" .enum with
      superclass := some (.resolved 23 "Enum")
      fields := [⟨"RED", { isStatic := true, isFinal := true, isEnum := true },
        .resolved 25 "Color", some (.int 7), [shadeUse], .synthetic⟩]
      constructors := [⟨.privateOnly, [⟨"shade", Builtin.intType, none, [shadeUse], .synthetic⟩],
        [.expr (.callThis "paint" [])], false, [], .synthetic⟩]
      staticInit := [.expr (.callStatic 25 "Color" "values" [])] }
  log := { tolerance := 1 } }

/-- The enum keeps what its source says, though the run stops at the first problem. -/
theorem CompilationUnit.complete_keeps_source_enum :
    ∃ u' sites, shadeUnit.complete {} = .ok (u', sites) ∧
      shadeUnit.table.Related ClassDecl.Keeps u'.table :=
  complete_keeps_source {} _ ⟨⟨by decide, by decide⟩,
    by decide, ClassTable.finiteChains_of_lt (by decide)⟩

end Metaobject
