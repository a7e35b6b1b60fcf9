import Metaobject.Proofs.Completion.Visits
import Metaobject.Proofs.Dispatch.Choices
import Metaobject.Proofs.Enumeration.StaticInitializer

/-!
# Constants are built by their own class

The static initializer of an enum builds each constant through `$INIT` of the class of the constant.
The enums and the bodies of constants get their `$INIT` in one pass, and the calls are bound in
another. If the source declares no `$INIT` itself, then all there is of this name are these methods:
one in each enum and in each body, with a single parameter that collects all arguments. No call has
one argument only, so the search for a method with as many parameters finds nothing along the
superclasses, and the search for one that collects arguments ends at the first class.

* `ClassDecl.Equipped`: what there is of `$INIT` in a class after the first pass.
* `ClassTable.staticChoice_init`: what a call of `$INIT` is bound to.
* `CompilationUnit.complete_binds_constructions`: the bound calls in the static initializer of an
  enum.
-/

namespace Metaobject

open Enumeration (initMethod valuesField)

/-! ## Classes with their construction method -/

/-- A method that collects all its arguments and needs no instance. -/
def Method.CollectsAll (m : Method) : Prop :=
  m.arity = 1 ∧ m.modifiers.isVarargs = true ∧ m.modifiers.isStatic = true

/-- Collecting arguments is part of the signature. -/
theorem Method.CollectsAll.congr {m m' : Method} (h : m.signature = m'.signature)
    (hm : m.CollectsAll) : m'.CollectsAll := by
  simp only [signature, Prod.mk.injEq] at h
  rw [CollectsAll, ← h.2.1, ← h.2.2]
  exact hm

/-- Whatever is called `$INIT` collects all its arguments, and an enum of the source has one. -/
structure ClassDecl.Equipped (c : ClassDecl) : Prop where
  collects : ∀ m ∈ c.methods, m.name = initMethod → m.CollectsAll
  declares : c.IsSourceEnum → ∃ m ∈ c.methods, m.name = initMethod

namespace ClassDecl

variable {c c' : ClassDecl}

/-- A class has a method with the signature of each method of its former version. -/
theorem SameMethods.exists_method (h : c.SameMethods c') {m' : Method} (hm' : m' ∈ c'.methods) :
    ∃ m ∈ c.methods, m.signature = m'.signature := by
  rw [← List.mem_map, ← h.methods]
  exact List.mem_map_of_mem hm'

theorem SameMethods.exists_method' (h : c.SameMethods c') {m : Method} (hm : m ∈ c.methods) :
    ∃ m' ∈ c'.methods, m'.signature = m.signature := by
  rw [← List.mem_map, h.methods]
  exact List.mem_map_of_mem hm

/-- Being equipped only depends on the header and the signatures. -/
theorem Equipped.congr (h : c.SameMethods c') (hc : c.Equipped) : c'.Equipped where
  collects m' hm' hname := by
    obtain ⟨m, hm, hsame⟩ := h.exists_method hm'
    exact (hc.collects m hm ((congrArg Prod.fst hsame).trans hname)).congr hsame
  declares henum := by
    have hformer : c.IsSourceEnum :=
      ⟨h.header.isEnum.symm.trans henum.1, h.header.builtin.symm.trans henum.2⟩
    obtain ⟨m, hm, hname⟩ := hc.declares hformer
    obtain ⟨m', hm', hsame⟩ := h.exists_method' hm
    exact ⟨m', hm', (congrArg Prod.fst hsame).trans hname⟩

theorem field?_eq_none {name : String} (h : ∀ f ∈ c.fields, f.name ≠ name) :
    c.field? name = none := by
  rw [field?, List.find?_eq_none]
  intro f hf
  simpa using h f hf

/-- The method of this name that is found for a call collects its arguments, however many there
are. -/
theorem Equipped.find?_acceptsVarargs (hc : c.Equipped) (henum : c.IsSourceEnum) (arity : Nat) :
    ∃ m, c.methods.find? (ClassTable.acceptsVarargs · initMethod arity) = some m ∧
      m.name = initMethod ∧
      m.CollectsAll := by
  obtain ⟨m, hm, hname⟩ := hc.declares henum
  have haccepts : ClassTable.acceptsVarargs m initMethod arity = true := by
    obtain ⟨harity, hvarargs, -⟩ := hc.collects m hm hname
    simp [ClassTable.acceptsVarargs, hname, harity, hvarargs]
  have hsome : (c.methods.find? (ClassTable.acceptsVarargs · initMethod arity)).isSome :=
    List.find?_isSome.mpr ⟨m, hm, haccepts⟩
  obtain ⟨m', hfind⟩ := Option.isSome_iff_exists.mp hsome
  have hname' : m'.name = initMethod := by
    have hfits := List.find?_some hfind
    simp only [ClassTable.acceptsVarargs, Bool.and_eq_true, beq_iff_eq] at hfits
    exact hfits.1.1.1
  exact ⟨m', hfind, hname', hc.collects m' (List.mem_of_find?_eq_some hfind) hname'⟩

end ClassDecl

namespace Enumeration

/-- Adding `$INIT` to a class that has none equips it. -/
theorem equipped_addInit (self : TypeRef) (isFinal : Bool) {c : ClassDecl}
    (h : ∀ m ∈ c.methods, m.name ≠ initMethod) : (addInit self isFinal c).Equipped := by
  have hnone : ¬c.hasMethod initMethod 1 := by
    rw [ClassDecl.hasMethod, ClassDecl.method?, List.find?_isSome]
    intro hsome
    obtain ⟨m, hm, hfits⟩ := hsome
    simp only [Bool.and_eq_true, beq_iff_eq] at hfits
    exact h m hm hfits.1
  rw [addInit, if_neg hnone]
  refine ⟨fun m hm hname => ?_, fun _ => ⟨_, List.mem_append_right _ List.mem_cons_self, rfl⟩⟩
  rcases List.mem_append.mp hm with hm | hm
  · exact absurd hname (h m hm)
  · rw [List.mem_singleton.mp hm]
    exact ⟨rfl, rfl, rfl⟩

/-- The companion methods have other names. -/
theorem addCompanions_ne_init (id : ClassId) (self : TypeRef) {c : ClassDecl}
    (h : ∀ m ∈ c.methods, m.name ≠ initMethod) :
    ∀ m ∈ (addCompanions id self c).methods, m.name ≠ initMethod := by
  intro m hm
  rcases List.mem_append.mp hm with hm | hm
  · exact h m hm
  · have hnames : (companions id self).map (·.name) = ["values", "next", "previous", "valueOf"] :=
      rfl
    have hname := List.mem_map_of_mem (f := fun m : Method => m.name) (List.mem_of_mem_filter hm)
    rw [hnames] at hname
    intro heq
    rw [heq] at hname
    exact absurd hname (by decide)

/-- Completing an enum equips it. -/
theorem equipped_complete (t : ClassTable) (id : ClassId) {c : ClassDecl}
    (h : ∀ m ∈ c.methods, m.name ≠ initMethod) : (complete t id c).Equipped := by
  have hinit := equipped_addInit (t.typeRef id) (!t.hasConstantBodies c)
    (addCompanions_ne_init id (t.typeRef id)
      (c := addFields (!(t.plannedConstants c).isEmpty) (t.typeRef id) c) h)
  -- the static initializer, the modifiers and the fields play no part
  exact ⟨hinit.collects, hinit.declares⟩

end Enumeration

namespace ClassTable

variable {t t' : ClassTable} {id enum owner : ClassId} {c d : ClassDecl}

/-- So does its visit, provided that it has not been visited. -/
theorem equipped_withMembers (t : ClassTable) (id : ClassId)
    (hinit : ∀ m ∈ c.methods, m.name ≠ initMethod)
    (hvalues : c.IsSourceEnum → c.field? valuesField = none) : (t.withMembers id c).Equipped := by
  rw [withMembers]
  split_ifs with henum hscope hhas
  · exact Enumeration.equipped_addInit _ _ hinit
  · rw [hvalues henum] at hhas
    cases hhas
  · exact Enumeration.equipped_complete t id hinit
  · exact ⟨fun m hm hname => absurd hname (hinit m hm), fun hc => absurd hc henum⟩

/-! ## The choice for a call of `$INIT` -/

/-- The marker of a call of `$INIT` on a class: it is bound to the method of this very class, unless
an argument is spread. -/
def initDispatch (owner : ClassId) (args : List Expr) : Dispatch :=
  if args.any Expr.isSpread then .reflective .spreadArguments
    else .direct ⟨owner, initMethod, 1, true⟩

/-- What no class declares is not found along the superclasses. -/
theorem findMethod_eq_none {name : String} {arity : Nat}
    (h : ∀ id c, t.get? id = some c → c.method? name arity = none) (id : ClassId) :
    t.findMethod id name arity = none := by
  rw [findMethod, List.findSome?_eq_none_iff]
  intro p hp
  have hget := (extends_of_mem_chainFrom hp).2
  simp [h _ _ hget]

/-- A call of `$INIT` with two arguments or more on an enum of the source needs no call site. -/
theorem staticChoice_init (ht : ∀ id c, t.get? id = some c → c.Equipped)
    (hget : t.get? owner = some d) (henum : d.IsSourceEnum) (caching : Bool) {args : List Expr}
    (hargs : 2 ≤ args.length) :
    t.staticChoice caching owner initMethod args = .ok (.settled (initDispatch owner args)) := by
  -- along the superclasses, all methods of this name have one parameter
  have hexact : t.findMethod owner initMethod args.length = none := by
    refine findMethod_eq_none (fun id c hc => ?_) owner
    rw [ClassDecl.method?, List.find?_eq_none]
    intro m hm hfits
    simp only [Bool.and_eq_true, beq_iff_eq] at hfits
    have hone := ((ht id c hc).collects m hm hfits.1).1
    omega
  obtain ⟨m, hfind, hname, harity, -, hstatic⟩ :=
    (ht owner d hget).find?_acceptsVarargs henum args.length
  have happlicable : t.findApplicable owner initMethod args.length = .ok (some (owner, m)) := by
    rw [findApplicable, hexact, findVarargs, hget]
    simp only [hfind]
  rw [staticChoice, happlicable, initDispatch]
  split
  · rfl
  · show Except.ok (Choice.settled (.direct ⟨owner, m.name, m.arity, m.isStatic⟩)) = _
    rw [hname, harity, Method.isStatic, hstatic]

/-! ## The class of a constant -/

/-- Class literals mean the same bodies as long as the headers stay. -/
theorem Related.bodyLiteral? (h : t.Related ClassDecl.SameHeader t') :
    t'.bodyLiteral? = t.bodyLiteral? := by
  have hbody (enum body : ClassId) : t'.isBodyOf enum body = t.isBodyOf enum body := by
    rw [isBodyOf, isBodyOf]
    cases hget : t.get? body with
    | none =>
      have hnone : t'.get? body = none :=
        t'.get?_eq_none_iff.mpr (h.size_eq ▸ t.get?_eq_none_iff.mp hget)
      rw [hnone]
    | some c =>
      obtain ⟨c', hget', hsame⟩ := h.exists_get?' hget
      rw [hget', Option.any_some, Option.any_some, hsame.kind, hsame.superId?]
  funext enum e
  cases e with
  | classRef type span =>
    show type.classId?.filter (t'.isBodyOf enum) = type.classId?.filter (t.isBodyOf enum)
    rw [funext (hbody enum)]
  | _ => rfl

/-- What a statement builds is read off the headers of the classes. -/
theorem Builds.of_related (h : t.Related ClassDecl.SameHeader t') {p : Field × Nat} {s : Stmt}
    (hs : t'.Builds enum p s) : t.Builds enum p s := by
  obtain ⟨owner, d', hbuilt, hget', rfl⟩ := hs
  obtain ⟨d, hget, hsame⟩ := h.exists_get? hget'
  rw [BuiltBy, LastBody, h.bodyLiteral?] at hbuilt
  exact ⟨owner, d, hbuilt, hget, by rw [h.bodyLiteral?, hsame.name]⟩

/-- The last body is a body of the enum. -/
theorem isBodyOf_of_lastBody {es : List Expr} (h : t.LastBody enum es owner) :
    t.isBodyOf enum owner = true := by
  obtain ⟨-, e, -, -, he, -⟩ := h
  unfold bodyLiteral? at he
  split at he
  · exact (Option.filter_eq_some_iff.mp he).2
  · cases he

/-- The built-in classes of the table are the ones that it starts with. -/
theorem mem_seeded (hbuiltin : t.classes.filter (·.builtin) = ClassTable.seeded.classes)
    (hc : c ∈ t.classes) (hb : c.builtin = true) : c ∈ ClassTable.seeded.classes := by
  rw [← hbuiltin, List.mem_filter]
  exact ⟨hc, hb⟩

/-- No built-in class is the body of a constant, so an enum of the source has its constants built by
classes of the source. -/
theorem BuiltBy.isSourceEnum (hbuiltin : t.classes.filter (·.builtin) = ClassTable.seeded.classes)
    (henum : ∃ c, t.get? enum = some c ∧ c.IsSourceEnum) {es : List Expr}
    (h : t.BuiltBy enum es owner) : ∃ d, t.get? owner = some d ∧ d.IsSourceEnum := by
  rcases h with hlast | ⟨-, rfl⟩
  · have hbody := isBodyOf_of_lastBody hlast
    rw [isBodyOf, Option.any_eq_true] at hbody
    obtain ⟨d, hget, hd⟩ := hbody
    have hkind : d.kind = .constantBody := by
      simp only [Bool.and_eq_true, decide_eq_true_eq] at hd
      exact hd.1
    refine ⟨d, hget, by simp [ClassDecl.isEnum, hkind], ?_⟩
    by_contra hsource
    have hseeded := mem_seeded hbuiltin (mem_classes_iff.mpr ⟨owner, hget⟩) (by simpa using hsource)
    have hnone : ∀ d ∈ ClassTable.seeded.classes, d.kind ≠ .constantBody := by decide
    exact hnone d hseeded hkind
  · exact henum

/-! ## Bound constructions -/

/-- The statement assigns to the constant what `$INIT` of its class makes of its name, its place and
its other arguments. The call is bound to this method, unless an argument of the constant is
spread. -/
def BuildsBound (t : ClassTable) (enum : ClassId) (p : Field × Nat) (s : Stmt) : Prop :=
  ∃ owner d args, t.BuiltBy enum p.1.constantArgs owner ∧ t.get? owner = some d ∧
    args.length = (p.1.constantArgs.filter fun e => (t.bodyLiteral? enum e).isNone).length ∧
    s = .expr (.set (.fieldOf enum p.1.name) (.staticCall owner d.name initMethod
      (.string p.1.name :: .int (.ofNat p.2) :: args)
        (some (initDispatch owner p.1.constantArgs)) .synthetic))

/-- What is passed to `$INIT` is spread where an argument of the constant is: class literals are
not. -/
theorem initDispatch_args (t : ClassTable) (enum owner : ClassId) (name : String) (place : Int32)
    (es : List Expr) :
    initDispatch owner
      (.string name :: .int place :: es.filter fun e => (t.bodyLiteral? enum e).isNone)
      = initDispatch owner es := by
  have hspread : (fun e => (t.bodyLiteral? enum e).isNone && e.isSpread) = Expr.isSpread := by
    funext e
    cases e <;> simp [bodyLiteral?, Expr.isSpread]
  have hany :
      (Expr.string name :: .int place :: es.filter fun e =>
        (t.bodyLiteral? enum e).isNone).any Expr.isSpread = es.any Expr.isSpread := by
    show (es.filter _).any Expr.isSpread = _
    rw [List.any_filter, hspread]
  rw [initDispatch, hany, initDispatch]

/-- A walk keeps the number of arguments. -/
theorem length_of_transformAll {w : Transformer Marking} :
    ∀ {es es' : List Expr} {keys keys' : List SiteKey},
    (Expr.transformAll w es).run keys = .ok (es', keys') → es'.length = es.length := by
  intro es
  induction es with
  | nil =>
    intro es' keys keys' h
    cases h
    rfl
  | cons e es ih =>
    intro es' keys keys' h
    obtain ⟨e', k₁, -, h⟩ := Marking.bind_eq_ok.mp h
    obtain ⟨rest, k₂, hrest, h⟩ := Marking.bind_eq_ok.mp h
    cases h
    rw [List.length_cons, List.length_cons, ih hrest]

section Marked

variable {now : ClassTable} {caching : Bool} {ctx : CallContext} {p : Field × Nat} {s s' : Stmt}
  {keys keys' : List SiteKey}

/-- In the table `now`, calls of `$INIT` on the classes that build the constants of this enum are
settled. -/
def BindsInit (t now : ClassTable) (caching : Bool) (enum : ClassId) : Prop :=
  ∀ es owner args, t.BuiltBy enum es owner → 2 ≤ args.length →
    now.staticChoice caching owner initMethod args = .ok (.settled (initDispatch owner args))

/-- Where every class is equipped, calls of `$INIT` are settled. -/
theorem bindsInit_of_equipped (hbuiltin : t.classes.filter (·.builtin) = ClassTable.seeded.classes)
    (henum : ∃ c, t.get? enum = some c ∧ c.IsSourceEnum)
    (hheader : t.Related ClassDecl.SameHeader now)
    (hnow : ∀ id c, now.get? id = some c → c.Equipped) : t.BindsInit now caching enum := by
  intro es owner args hbuilt hargs
  obtain ⟨d, hget, hd⟩ :=
    hheader.keeps ClassDecl.IsSourceEnum.congr (hbuilt.isSourceEnum hbuiltin henum)
  exact staticChoice_init hnow hget hd caching hargs

/-- A call on a known class whose choice is settled gets this marker, and then its arguments are
marked. -/
theorem transform_staticCall_of_settled {ownerName method : String} {args : List Expr}
    {d : Option Dispatch} {span : Span} {e' : Expr} {marker : Dispatch}
    (hchoice : now.staticChoice caching owner method args = .ok (.settled marker))
    (h : ((Expr.staticCall owner ownerName method args d span).transform
      (now.markingWalk caching ctx)).run keys = .ok (e', keys')) :
    ∃ args', e' = .staticCall owner ownerName method args' (some marker) span ∧
      (Expr.transformAll (now.markingWalk caching ctx) args).run keys = .ok (args', keys') := by
  obtain ⟨⟨⟩, k₁, hlook, h⟩ := Marking.bind_eq_ok.mp h
  cases hlook
  obtain ⟨marker', k₂, hmarker, h⟩ := Marking.bind_eq_ok.mp h
  obtain ⟨args', k₃, hargs, h⟩ := Marking.bind_eq_ok.mp h
  cases h
  have hsettled :
      (now.marker caching ctx (.staticCall owner ownerName method args d span) d).run keys =
        .ok (some marker, keys) := by
    rw [ClassTable.marker, choice?, hchoice]
    rfl
  obtain ⟨rfl, rfl⟩ : some marker = marker' ∧ keys = k₂ := by
    simpa using hsettled.symm.trans hmarker
  exact ⟨args', rfl, hargs⟩

/-- A statement that builds a constant is bound when it is marked. -/
theorem Builds.bound (hs : t.Builds enum p s) (hbinds : t.BindsInit now caching enum)
    (h : (s.transform (now.markingWalk caching ctx)).run keys = .ok (s', keys')) :
    t.BuildsBound enum p s' := by
  obtain ⟨owner, d, hbuilt, hget, rfl⟩ := hs
  have hchoice := hbinds _ owner (.string p.1.name :: .int (.ofNat p.2) ::
    p.1.constantArgs.filter fun e => (t.bodyLiteral? enum e).isNone) hbuilt (by simp)
  rw [initDispatch_args] at hchoice
  -- the walk comes to the statement, to the assignment, to the constant, to the call, and to its
  -- first two arguments
  obtain ⟨⟨⟩, k₀, hpass, h⟩ := Marking.bind_eq_ok.mp h
  cases hpass
  obtain ⟨e', k₁, he, h⟩ := Marking.bind_eq_ok.mp h
  cases h
  obtain ⟨⟨⟩, k₂, hlook, he⟩ := Marking.bind_eq_ok.mp he
  cases hlook
  obtain ⟨target, k₃, htarget, he⟩ := Marking.bind_eq_ok.mp he
  cases htarget
  obtain ⟨value, k₄, hvalue, he⟩ := Marking.bind_eq_ok.mp he
  cases he
  obtain ⟨args, rfl, hargs⟩ := transform_staticCall_of_settled hchoice hvalue
  obtain ⟨name, k₅, hname, hargs⟩ := Marking.bind_eq_ok.mp hargs
  cases hname
  obtain ⟨others, k₆, hothers, hargs⟩ := Marking.bind_eq_ok.mp hargs
  cases hargs
  obtain ⟨place, k₇, hplace, hothers⟩ := Marking.bind_eq_ok.mp hothers
  cases hplace
  obtain ⟨rest, k₈, hrest, hothers⟩ := Marking.bind_eq_ok.mp hothers
  cases hothers
  exact ⟨owner, d, rest, hbuilt, hget, length_of_transformAll hrest, rfl⟩

/-- The statements at the front of a block are marked one by one. -/
theorem bound_of_transformAll {ps : List (Field × Nat)} {built rest : List Stmt}
    (hbuilt : List.Forall₂ (t.Builds enum) ps built) (hbinds : t.BindsInit now caching enum) :
    ∀ {keys keys' : List SiteKey} {ss : List Stmt},
      (Stmt.transformAll (now.markingWalk caching ctx) (built ++ rest)).run keys = .ok (ss, keys') →
      ∃ built' rest', ss = built' ++ rest' ∧ List.Forall₂ (t.BuildsBound enum) ps built' := by
  induction hbuilt with
  | nil => exact fun {_ _ ss} _ => ⟨[], ss, rfl, .nil⟩
  | cons hs _ ih =>
    intro keys keys' ss h
    obtain ⟨s', k₁, hfirst, h⟩ := Marking.bind_eq_ok.mp h
    obtain ⟨ss', k₂, hothers, h⟩ := Marking.bind_eq_ok.mp h
    cases h
    obtain ⟨built', rest', rfl, hbound⟩ := ih hothers
    exact ⟨s' :: built', rest', rfl, .cons (hs.bound hbinds hfirst) hbound⟩

end Marked

end ClassTable

namespace CompilationUnit

open ClassTable

variable {settings : CompilerSettings} {u u' : CompilationUnit} {sites : List (ClassId × SiteTable)}

/-! ## Whole runs -/

section Equipped

variable {t t₁ : ClassTable} (hbuiltin : t.classes.filter (·.builtin) = ClassTable.seeded.classes)
  (hinit : ∀ c ∈ t.classes, c.builtin = false → ∀ m ∈ c.methods, m.name ≠ initMethod)

include hbuiltin hinit

/-- If the source does not declare `$INIT`, no class does. -/
theorem ne_init_of_mem {c : ClassDecl} (hc : c ∈ t.classes) :
    ∀ m ∈ c.methods, m.name ≠ initMethod := by
  cases hb : c.builtin with
  | false => exact hinit c hc hb
  | true =>
    have hnone : ∀ c ∈ ClassTable.seeded.classes, ∀ m ∈ c.methods, m.name ≠ initMethod := by decide
    exact hnone c (mem_seeded hbuiltin hc hb)

/-- After the enums were visited, every class is equipped. -/
theorem equipped_of_visits (hn : t.Numbered)
    (hvalues : ∀ c ∈ t.classes, c.builtin = false → ∀ f ∈ c.fields, f.name ≠ valuesField)
    (h : Visits MemberTurn t.enumOrder t t₁) {id : ClassId} {c₁ : ClassDecl}
    (hget₁ : t₁.get? id = some c₁) : c₁.Equipped := by
  obtain ⟨c, hget, -⟩ := h.sameHeader.exists_get? hget₁
  have hmem := mem_classes_iff.mpr ⟨id, hget⟩
  have hother := ne_init_of_mem hbuiltin hinit hmem
  by_cases hid : id ∈ t.enumOrder
  · obtain ⟨now, -, -, hget'⟩ := h.withMembers hn hid hget
    obtain rfl : c₁ = now.withMembers id c := Option.some.inj (hget₁.symm.trans hget')
    exact equipped_withMembers now id hother fun henum => ClassDecl.field?_eq_none
      (hvalues c hmem henum.2)
  · -- the class was not visited, so it is no enum of the source
    obtain rfl : c = c₁ :=
      Option.some.inj (hget.symm.trans ((h.get?_of_notMem hid).symm.trans hget₁))
    refine ⟨fun m hm hname => absurd hname (hother m hm), fun henum => absurd ?_ hid⟩
    exact (mem_enumOrder hn).mpr ⟨c, hget, henum.2, henum.1⟩

end Equipped

/-- Let the source declare no method `$INIT` and no field `$VALUES`, and let a run not stop early.
The static initializer of an enum then starts by building the kept constants in order. Each is built
by a call of `$INIT` on the class of the constant, which is its own body if it has one and the enum
otherwise. Unless an argument of the constant is spread, the call is bound to the method of this
very class, with or without caching of call sites. -/
theorem complete_binds_constructions (hn : u.table.Numbered)
    (hbuiltin : u.table.classes.filter (·.builtin) = ClassTable.seeded.classes)
    (hinit : ∀ c ∈ u.table.classes, c.builtin = false → ∀ m ∈ c.methods, m.name ≠ initMethod)
    (hvalues : ∀ c ∈ u.table.classes, c.builtin = false → ∀ f ∈ c.fields, f.name ≠ valuesField)
    (h : u.complete settings = .ok (u', sites)) (hfull : u'.log.isFull = false) {id : ClassId}
    {c : ClassDecl} (hget : u.table.get? id = some c) (henum : c.IsSourceEnum)
    (hscope : c.isUnscopedBody = false) :
    ∃ c' built rest, u'.table.get? id = some c' ∧ c'.staticInit = built ++ rest ∧
      List.Forall₂ (u.table.BuildsBound id) c.keptConstants built := by
  obtain ⟨t₁, t₂, hmembers, hbetween, hmarks⟩ := complete_visits h hfull
  have hheader₂ := hmembers.sameHeader.trans .trans (hbetween.mono (·.header))
  -- at its turn the enum gets the statements that build the constants
  have hid : id ∈ u.table.enumOrder := (mem_enumOrder hn).mpr ⟨c, hget, henum.2, henum.1⟩
  obtain ⟨now, hnow, hstill, hget₁⟩ := hmembers.withMembers hn hid hget
  have hnone := ClassDecl.field?_eq_none (hvalues c (mem_classes_iff.mpr ⟨id, hget⟩) henum.2)
  have hcomplete : now.withMembers id c = Enumeration.complete now id c := by
    rw [withMembers, if_pos henum, hscope, hnone]
    rfl
  have hbuilds : List.Forall₂ (u.table.Builds id) c.keptConstants
      (Enumeration.constructions now id (now.plannedConstants c)) :=
    (builds_constructions (hnow.numbered hn) hstill).imp fun _ _ => Builds.of_related hnow
  -- they are still there when it is marked, and by then every class has its `$INIT`
  obtain ⟨c₂, hget₂, hsame⟩ := hbetween.exists_get?' hget₁
  have hsource : id ∈ t₂.sourceIds := by
    rw [hheader₂.sourceIds]
    exact (mem_sourceIds hn).mpr ⟨c, hget, henum.2⟩
  obtain ⟨last, c', hlast, -, ⟨keys, hrun⟩, hget'⟩ :=
    hmarks.at_turn (R := ClassDecl.SameMethods) .refl .trans
    MarkTurn.sameMethods (nodup_sourceIds (hheader₂.numbered hn)) hsource hget₂
  have hequipped : ∀ id c, last.get? id = some c → c.Equipped := by
    intro j d hd
    obtain ⟨d₁, hd₁, hkept⟩ := ((hbetween.mono (·.toSameMethods)).trans .trans hlast).exists_get? hd
    exact (equipped_of_visits hbuiltin hinit hn hvalues hmembers hd₁).congr hkept
  have hbinds : u.table.BindsInit last settings.callSiteCaching id :=
    bindsInit_of_equipped hbuiltin ⟨c, hget, henum⟩
      (hheader₂.trans .trans (hlast.mono (·.header))) hequipped
  obtain ⟨-, before, hstatic⟩ := sameMethods_of_markMembers hrun
  rw [hsame.staticInit, hcomplete, Enumeration.staticInit_complete, List.append_assoc] at hstatic
  obtain ⟨built, rest, hsplit, hbound⟩ := bound_of_transformAll hbuilds hbinds hstatic
  exact ⟨c', built, rest, hget', hsplit, hbound⟩

/-- A constant with a spread argument. -/
def colorSpread : Field :=
  colorConstant "BLUE" (some (.list [.spreadOf (.name "shades")] .synthetic))

/-- An enum with a constant that has a body and an argument, one that has neither, and one with a
spread argument. -/
def spreadUnit : CompilationUnit := {
  table := [
    { ClassDecl.empty "Color" .enum with
      superclass := some (.resolved 23 "Enum")
      fields := [colorRed, colorConstant "GREEN" none, colorSpread] },
    { ClassDecl.empty "Color$RED" .constantBody with
      superclass := some (.resolved 25 "Color") }].foldl .add .seeded
  log := {} }

/-- All three constants are built, the second one with nothing but its name and its place. -/
theorem complete_binds_constructions_color :
    ∃ u' sites c' built rest, spreadUnit.complete {} = .ok (u', sites) ∧
      u'.table.get? 25 = some c' ∧ c'.staticInit = built ++ rest ∧
      List.Forall₂ (spreadUnit.table.BuildsBound 25)
        [(colorRed, 0), (colorConstant "GREEN" none, 1), (colorSpread, 2)] built := by
  have ht : spreadUnit.table.WellFormed :=
    ⟨⟨by decide, by decide⟩, by decide, finiteChains_of_lt (by decide)⟩
  have hget : spreadUnit.table.get? 25 = some { ClassDecl.empty "Color" .enum with
      id := 25
      superclass := some (.resolved 23 "Enum")
      fields := [colorRed, colorConstant "GREEN" none, colorSpread] } := rfl
  obtain ⟨u', sites, hrun, hfull⟩ := complete_ends_unlimited {} ht rfl
  obtain ⟨c', built, rest, hget', hsplit, hbound⟩ :=
    complete_binds_constructions ht.numbered rfl (by decide) (by decide) hrun hfull hget ⟨rfl, rfl⟩
      rfl
  exact ⟨u', sites, c', built, rest, hrun, hget', hsplit, hbound⟩

end CompilationUnit

end Metaobject
