import Mathlib.Data.List.Perm.Basic
import Mathlib.Data.List.ProdSigma
import Metaobject.Enumeration.Members
import Metaobject.Problem.Log
import Metaobject.Proofs.ClassTable.WellFormed

/-!
# The static initializer of an enum

An enum builds its constants in its static initializer. A constant with a named argument is reported
and left out; the others are built in the order of their declaration, each with its place among all
constants as a 32-bit integer. Then come the markers of the first and the last one, the array of all
that were built, and the code that was there before.

* `ClassTable.constantBody?_eq_some_iff`: the body of a constant is the one that is named last.
* `ClassTable.plannedConstants_eq_map`: what is built, and with which ordinals.
* `ClassTable.constantProblems_perm`: what is reported.
* `ClassTable.addEnumMembers_builds_constants`: the static initializer and the reports.
* `ClassTable.places_wrap_and_overloads_hide`: a place beyond 32 bits, and a method that is not
  found.
-/

namespace Metaobject

/-- No argument of the constant is a named one. -/
def Field.IsKept (f : Field) : Prop := ∀ e ∈ f.constantArgs, e.namedArgument? = none

instance (f : Field) : Decidable f.IsKept :=
  inferInstanceAs (Decidable (∀ e ∈ f.constantArgs, e.namedArgument? = none))

/-- The span of the first named argument. -/
def Field.namedSpan (f : Field) : Span :=
  (f.constantArgs.findSome? Expr.namedArgument?).getD .synthetic

/-- The constants that are built, each with its place among all constants. -/
def ClassDecl.keptConstants (c : ClassDecl) : List (Field × Nat) :=
  c.enumConstants.zipIdx.filter fun p => p.1.IsKept

/-- A constant is kept if none of its arguments is named. -/
theorem Field.findSome?_eq_none_iff {f : Field} :
    f.constantArgs.findSome? Expr.namedArgument? = none ↔ f.IsKept :=
  List.findSome?_eq_none_iff

namespace ClassTable

/-! ## The class of a constant -/

/-- Of the arguments, the last one that is a class literal for the body of a constant of the enum
names this body. -/
def LastBody (t : ClassTable) (enum : ClassId) (es : List Expr) (body : ClassId) : Prop :=
  ∃ before e after, es = before ++ e :: after ∧ t.bodyLiteral? enum e = some body ∧
    ∀ e' ∈ after, t.bodyLiteral? enum e' = none

/-- The class whose `$INIT` builds a constant with these arguments: the body that is named last, or
else the enum. -/
def BuiltBy (t : ClassTable) (enum : ClassId) (es : List Expr) (owner : ClassId) : Prop :=
  t.LastBody enum es owner ∨ (∀ e ∈ es, t.bodyLiteral? enum e = none) ∧ owner = enum

/-- The statement assigns to the constant what `$INIT` of its class makes of its name, its place and
the arguments that are no class literals for bodies. The place is a 32-bit integer: it is the place
itself for the first 2³¹ constants, and wraps around after that. -/
def Builds (t : ClassTable) (enum : ClassId) (p : Field × Nat) (s : Stmt) : Prop :=
  ∃ owner d, t.BuiltBy enum p.1.constantArgs owner ∧ t.get? owner = some d ∧
    s = .expr (.set (.fieldOf enum p.1.name) (.callStatic owner d.name Enumeration.initMethod
      (.string p.1.name :: .int (.ofNat p.2) ::
        p.1.constantArgs.filter fun e => (t.bodyLiteral? enum e).isNone)))

/-- The body of the constant implements the method: the first method of the body with its name and
number of parameters is not abstract. -/
def BodyImplements (t : ClassTable) (enum : ClassId) (f : Field) (m : Method) : Prop :=
  ∃ body d m', t.LastBody enum f.constantArgs body ∧ t.get? body = some d ∧
    d.method? m.name m.arity = some m' ∧
    m'.isAbstract = false

variable {t : ClassTable} {id : ClassId} {c : ClassDecl} {f : Field}

/-- The body of a constant is the last body among its arguments. -/
theorem constantBody?_eq_some_iff {enum body : ClassId} :
    t.constantBody? enum f = some body ↔ t.LastBody enum f.constantArgs body := by
  rw [constantBody?, List.findSome?_eq_some_iff, LastBody]
  constructor
  · rintro ⟨after, e, before, hsplit, he, hafter⟩
    refine ⟨before.reverse, e, after.reverse, ?_, he, by simpa using hafter⟩
    rw [← List.reverse_reverse f.constantArgs, hsplit]
    simp
  · rintro ⟨before, e, after, hsplit, he, hafter⟩
    refine ⟨after.reverse, e, before.reverse, ?_, he, by simpa using hafter⟩
    rw [hsplit]
    simp

/-- A constant has no body if none of its arguments is one. -/
theorem constantBody?_eq_none_iff {enum : ClassId} :
    t.constantBody? enum f = none ↔ ∀ e ∈ f.constantArgs, t.bodyLiteral? enum e = none := by
  rw [constantBody?, List.findSome?_eq_none_iff]
  simp

/-- A constant is built by its body, or by the enum. -/
theorem builtBy_constantBody? (enum : ClassId) (f : Field) :
    t.BuiltBy enum f.constantArgs ((t.constantBody? enum f).getD enum) := by
  cases hbody : t.constantBody? enum f with
  | some body => exact .inl (constantBody?_eq_some_iff.mp hbody)
  | none => exact .inr ⟨constantBody?_eq_none_iff.mp hbody, rfl⟩

/-- A body is in the table. -/
theorem get?_of_lastBody {enum body : ClassId} {es : List Expr} (h : t.LastBody enum es body) :
    ∃ d, t.get? body = some d := by
  obtain ⟨-, e, -, -, he, -⟩ := h
  unfold bodyLiteral? at he
  split at he
  · have hbody := (Option.filter_eq_some_iff.mp he).2
    cases hget : t.get? body with
    | some d => exact ⟨d, rfl⟩
    | none => simp [isBodyOf, hget] at hbody
  · cases he

/-- The test for an implementation agrees with its meaning. -/
theorem implements_iff {enum : ClassId} {m : Method} :
    t.implements (t.constantBody? enum f) m = true ↔ t.BodyImplements enum f m := by
  simp only [implements, BodyImplements, Option.any_eq_true, Option.bind_eq_some_iff,
    constantBody?_eq_some_iff, Bool.not_eq_true']
  constructor
  · rintro ⟨m', ⟨d, ⟨body, hbody, hget⟩, hmethod⟩, hconcrete⟩
    exact ⟨body, d, m', hbody, hget, hmethod, hconcrete⟩
  · rintro ⟨body, d, m', hbody, hget, hmethod, hconcrete⟩
    exact ⟨m', ⟨d, ⟨body, hbody, hget⟩, hmethod⟩, hconcrete⟩

instance (enum : ClassId) (f : Field) (m : Method) : Decidable (t.BodyImplements enum f m) :=
  decidable_of_iff _ implements_iff

/-! ## What is built -/

/-- The constants that are built are the kept ones, with the ordinals that they have among all
constants. -/
theorem plannedConstants_eq_map (t : ClassTable) (c : ClassDecl) :
    t.plannedConstants c = c.keptConstants.map fun p =>
      ⟨p.1.name, .ofNat p.2, (t.constantBody? c.id p.1).getD c.id,
        p.1.constantArgs.filter fun e => (t.bodyLiteral? c.id e).isNone⟩ := by
  rw [plannedConstants, ClassDecl.keptConstants, ← List.filterMap_eq_map, List.filterMap_filter]
  refine List.filterMap_congr fun p _ => ?_
  obtain ⟨f, ordinal⟩ := p
  by_cases hkept : f.IsKept
  · -- none of its arguments is a named one, so only the class literals drop out
    have hargs : t.callArgs c.id f = f.constantArgs.filter fun e =>
      (t.bodyLiteral? c.id e).isNone :=
      List.filter_congr fun e he => by simp [hkept e he]
    simp [hkept, Field.findSome?_eq_none_iff.mpr hkept, hargs]
  · have hnamed : (f.constantArgs.findSome? Expr.namedArgument?).isSome = true := by
      rw [Option.isSome_iff_ne_none]
      exact mt Field.findSome?_eq_none_iff.mp hkept
    simp [hkept, hnamed]

/-- Each kept constant is built by one statement. -/
theorem builds_constructions (hn : t.Numbered) (hget : t.get? id = some c) :
    List.Forall₂ (t.Builds id) c.keptConstants
      (Enumeration.constructions t id (t.plannedConstants c)) := by
  have hid : c.id = id := hn id c hget
  rw [plannedConstants_eq_map, Enumeration.constructions, List.map_map, List.forall₂_map_right_iff,
    List.forall₂_same]
  intro p _
  have hbuilt := t.builtBy_constantBody? c.id p.1
  have hknown : ∃ d, t.get? ((t.constantBody? c.id p.1).getD c.id) = some d := by
    rcases hbuilt with hlast | ⟨-, hself⟩
    · exact get?_of_lastBody hlast
    · exact ⟨c, by rw [hself, hid, hget]⟩
  obtain ⟨d, hd⟩ := hknown
  have hname : (t.typeRef ((t.constantBody? c.id p.1).getD c.id)).text = d.name := by
    rw [typeRef, hd]; rfl
  rw [hid] at hbuilt hd hname ⊢
  exact ⟨_, d, hbuilt, hd, by rw [← hname]; rfl⟩

/-! ## What is reported -/

/-- One problem is reported for each constant with a named argument. -/
theorem named_problems (c : ClassDecl) (fs : List Field) :
    (fs.flatMap fun f => (f.constantArgs.findSome? Expr.namedArgument?).toList.map
        fun span => (⟨.mapStyleInitializer c.name f.name, span⟩ : Problem))
      = (fs.filter fun f => ¬f.IsKept).map fun f =>
        ⟨.mapStyleInitializer c.name f.name, f.namedSpan⟩ := by
  induction fs with
  | nil => rfl
  | cons f fs ih =>
    rw [List.flatMap_cons, ih]
    by_cases hkept : f.IsKept
    · rw [List.filter_cons_of_neg (by simp [hkept]), Field.findSome?_eq_none_iff.mpr hkept]
      rfl
    · rw [List.filter_cons_of_pos (by simp [hkept]), List.map_cons, Field.namedSpan]
      cases hspan : f.constantArgs.findSome? Expr.namedArgument? with
      | none => exact absurd (Field.findSome?_eq_none_iff.mp hspan) hkept
      | some span => rfl

/-- One problem is reported for each constant and each method that its body leaves abstract. -/
theorem missing_problems (enum : ClassId) (fs : List Field) (ms : List Method) :
    (fs.flatMap fun f => (ms.filter (!t.implements (t.constantBody? enum f) ·)).map
        fun m => (⟨.abstractMethod f.name m.descriptor, f.span⟩ : Problem))
      = ((fs.product ms).filter fun p => ¬t.BodyImplements enum p.1 p.2).map
          fun p => ⟨.abstractMethod p.1.name p.2.descriptor, p.1.span⟩ := by
  rw [List.product, List.filter_flatMap, List.map_flatMap]
  refine List.flatMap_congr fun f _ => ?_
  rw [List.filter_map, List.map_map]
  refine congrArg _ (List.filter_congr fun m _ => ?_)
  have hiff := @implements_iff t f enum m
  show (!t.implements (t.constantBody? enum f) m) = decide ¬t.BodyImplements enum f m
  rw [← Bool.decide_coe (!_), decide_eq_decide, ← hiff, Bool.not_eq_true', Bool.not_eq_true]

/-- One problem for each constant that is not kept, and one for each constant and abstract method
that the body of the constant does not implement. -/
theorem constantProblems_perm (hid : c.id = id) :
    (t.constantProblems c).Perm
      (((c.enumConstants.filter fun f => ¬f.IsKept).map fun f =>
        ⟨.mapStyleInitializer c.name f.name, f.namedSpan⟩)
        ++ ((c.enumConstants.product (c.methods.filter (·.isAbstract))).filter
            fun p => ¬t.BodyImplements id p.1 p.2).map
          fun p => ⟨.abstractMethod p.1.name p.2.descriptor, p.1.span⟩) := by
  rw [← named_problems, ← missing_problems, ← hid]
  exact (List.flatMap_append_perm ..).symm

end ClassTable

namespace Enumeration

theorem staticInit_addInit (self : TypeRef) (isFinal : Bool) (c : ClassDecl) :
    (addInit self isFinal c).staticInit = c.staticInit := by
  rw [addInit]
  split <;> rfl

/-- The static initializer of a completed enum. -/
theorem staticInit_complete (t : ClassTable) (id : ClassId) (c : ClassDecl) :
    (complete t id c).staticInit = constructions t id (t.plannedConstants c) ++ markerStores id
      (t.plannedConstants c)
      ++ arrayStore id (t.typeRef id) (t.plannedConstants c) :: c.staticInit := by
  show _ ++ _ ++ _ :: (addInit _ _ _).staticInit = _
  rw [staticInit_addInit]
  rfl

end Enumeration

namespace ClassTable

open Enumeration (valuesField minField maxField)

variable {t : ClassTable} {id : ClassId} {c : ClassDecl}

/-- An enum of the source that has no array yet gets its members. -/
theorem addEnumMembers_of_enum (hget : t.get? id = some c) (hkind : c.kind = .enum)
    (hsource : c.builtin = false) (hvalues : c.field? valuesField = none) :
    t.addEnumMembers id = .ok (t.set id (Enumeration.complete t id c), t.constantProblems c) := by
  have henum : (!c.isEnum || c.builtin) = false := by simp [ClassDecl.isEnum, hkind, hsource]
  have hscoped : c.isUnscopedBody = false := by simp [ClassDecl.isUnscopedBody, hkind]
  rw [addEnumMembers, get_eq_ok_iff.mpr hget]
  show (if !c.isEnum || c.builtin then _ else if c.isUnscopedBody then _ else _) = _
  rw [henum, hscoped, hvalues]
  rfl

/-- Let an enum of the source be without the array of its constants. Its members can be added, and
after that its static initializer builds the kept constants in order, sets the markers of the first
and the last one if there are any, fills the array with them, and goes on with what it was before.
An unlimited log has recorded one more problem for each constant that is not kept, one for each
constant and abstract method that the body of the constant does not implement, and no other. -/
theorem addEnumMembers_builds_constants (hn : t.Numbered) (hget : t.get? id = some c)
    (hkind : c.kind = .enum) (hsource : c.builtin = false) (hvalues : c.field? valuesField = none)
    (log : ProblemLog) (hlog : log.tolerance = 0) :
    ∃ t' c' problems built markers, t.addEnumMembers id = .ok (t', problems) ∧
      t'.get? id = some c' ∧
      c'.staticInit = built ++ markers ++ .expr (.set (.fieldOf id valuesField)
        (.arrayOf (.resolved id c.name) (c.keptConstants.map fun p => .fieldOf id p.1.name))) ::
          c.staticInit ∧
      List.Forall₂ (t.Builds id) c.keptConstants built ∧
      (c.keptConstants = [] → markers = []) ∧
      (∀ first last, c.keptConstants.head? = some first → c.keptConstants.getLast? = some last →
        markers = [.expr (.set (.fieldOf id minField) (.fieldOf id first.1.name)),
          .expr (.set (.fieldOf id maxField) (.fieldOf id last.1.name))]) ∧
      log.addAll problems = { log with recorded := log.recorded ++ problems } ∧
      problems.Perm
        (((c.enumConstants.filter fun f => ¬f.IsKept).map fun f =>
          ⟨.mapStyleInitializer c.name f.name, f.namedSpan⟩)
          ++ ((c.enumConstants.product (c.methods.filter (·.isAbstract))).filter
              fun p => ¬t.BodyImplements id p.1 p.2).map
            fun p => ⟨.abstractMethod p.1.name p.2.descriptor, p.1.span⟩) := by
  have hself : t.typeRef id = .resolved id c.name := by rw [typeRef, hget]
  refine ⟨_, _, _, _, Enumeration.markerStores id (t.plannedConstants c),
    addEnumMembers_of_enum hget hkind hsource hvalues, get?_set_self hget _, ?_,
    builds_constructions hn hget,
    fun hempty => ?_, fun first last hfirst hlast => ?_, ProblemLog.addAll_of_unlimited hlog _,
    constantProblems_perm (hn id c hget)⟩
  · rw [Enumeration.staticInit_complete, Enumeration.arrayStore, hself, plannedConstants_eq_map,
      List.map_map]
    rfl
  · rw [plannedConstants_eq_map, hempty]
    rfl
  · rw [Enumeration.markerStores, plannedConstants_eq_map, List.head?_map, List.getLast?_map,
      hfirst, hlast]
    rfl

/-! ## Three colours -/

/-- A constant of the enum `Color`, which has the number 25. -/
def colorConstant (name : String) (init : Option Expr) : Field :=
  ⟨name, { Modifiers.publicStaticFinal with isEnum := true }, .resolved 25 "Color", init, [],
    .synthetic⟩

/-- A constant with a body and an argument. -/
def colorRed : Field :=
  colorConstant "RED" (some (.list [.literal (.resolved 26 "Color$RED"), .int 1] .synthetic))

/-- A constant with a named argument. -/
def colorGreen : Field :=
  colorConstant "GREEN" (some (.entry ⟨.string "hex", .string "0f0", .synthetic⟩))

/-- A plain constant. -/
def colorBlue : Field := colorConstant "BLUE" none

/-- A method without parameters. -/
def hexMethod (isAbstract : Bool) : Method :=
  { name := "hex", modifiers := { isPublic := true, isAbstract }, returnType := Builtin.stringType }

/-- The enum of the three constants, with an abstract method, and the body of the first one, which
implements it. -/
def colorTable : ClassTable := [
  { ClassDecl.empty "Color" .enum with
    superclass := some (.resolved 23 "Enum"), fields := [colorRed, colorGreen, colorBlue],
    methods := [hexMethod true] },
  { ClassDecl.empty "Color$RED" .constantBody with
    superclass := some (.resolved 25 "Color"), methods := [hexMethod false] }].foldl .add .seeded

/-- The second constant is left out, and the third one keeps its place. -/
theorem addEnumMembers_builds_constants_color :
    ∃ t' c' problems built markers, colorTable.addEnumMembers 25 = .ok (t', problems) ∧
      t'.get? 25 = some c' ∧
      c'.staticInit = built ++ markers ++ [.expr (.set (.fieldOf 25 valuesField)
        (.arrayOf (.resolved 25 "Color") [.fieldOf 25 "RED", .fieldOf 25 "BLUE"]))] ∧
      List.Forall₂ (colorTable.Builds 25) [(colorRed, 0), (colorBlue, 2)] built ∧
      markers = [.expr (.set (.fieldOf 25 minField) (.fieldOf 25 "RED")),
        .expr (.set (.fieldOf 25 maxField) (.fieldOf 25 "BLUE"))] ∧
      problems.Perm [⟨.mapStyleInitializer "Color" "GREEN", .synthetic⟩,
        ⟨.abstractMethod "GREEN" "String hex()", .synthetic⟩,
        ⟨.abstractMethod "BLUE" "String hex()", .synthetic⟩] := by
  have hn : colorTable.Numbered := by decide
  have hget : colorTable.get? 25 = some { ClassDecl.empty "Color" .enum with
    id := 25, superclass := some (.resolved 23 "Enum"),
    fields := [colorRed, colorGreen, colorBlue], methods := [hexMethod true] } := rfl
  obtain ⟨t', c', problems, built, markers, hrun, hget', hinit, hbuilt, -, hmarkers, -,
    hproblems⟩ := addEnumMembers_builds_constants hn hget rfl rfl rfl {} rfl
  exact ⟨t', c', problems, built, markers, hrun, hget', hinit, hbuilt,
    hmarkers (colorRed, 0) (colorBlue, 2) rfl rfl, hproblems⟩

/-! ## Too many constants, and overloaded methods -/

/-- The static initializer of a completed enum builds the kept constants where they stand. -/
theorem exists_builds_getElem? (hn : t.Numbered) (hget : t.get? id = some c) {k : Nat}
    {p : Field × Nat} (hp : c.keptConstants[k]? = some p) :
    ∃ s, (Enumeration.complete t id c).staticInit[k]? = some s ∧ t.Builds id p s := by
  have hbuilds := builds_constructions hn hget
  obtain ⟨hk, rfl⟩ := List.getElem?_eq_some_iff.mp hp
  have hk' : k < (Enumeration.constructions t id (t.plannedConstants c)).length :=
    hbuilds.length_eq ▸ hk
  refine ⟨_, ?_, hbuilds.get hk hk'⟩
  rw [Enumeration.staticInit_complete, List.append_assoc, List.getElem?_append_left hk',
    List.getElem?_eq_getElem hk']
  rfl

/-- A plain constant of the enum `Crowd`, which has the number 25. -/
def crowdConstant : Field :=
  ⟨"ONE", { Modifiers.publicStaticFinal with isEnum := true }, .resolved 25 "Crowd", none, [],
    .synthetic⟩

/-- An enum with that many constants. -/
def crowd (n : Nat) : ClassDecl := { ClassDecl.empty "Crowd" .enum with
  superclass := some (.resolved 23 "Enum"), fields := List.replicate n crowdConstant }

/-- The constants of the crowd are kept at their places. -/
theorem keptConstants_crowd {n k : Nat} (hk : k < n) :
    (crowd n).keptConstants[k]? = some (crowdConstant, k) := by
  have hconstants : (crowd n).enumConstants = List.replicate n crowdConstant :=
    List.filter_replicate_of_pos rfl
  have hkept : ∀ p ∈ (crowd n).enumConstants.zipIdx, decide p.1.IsKept = true := by
    intro p hp
    rw [hconstants] at hp
    rw [List.eq_of_mem_replicate (List.fst_mem_of_mem_zipIdx hp)]
    decide
  rw [ClassDecl.keptConstants, List.filter_eq_self.mpr hkept, hconstants, List.getElem?_zipIdx,
    List.getElem?_replicate, if_pos hk]
  simp

/-- The enum with that many constants can be completed. It builds each of them from its place as a
32-bit integer. -/
theorem addEnumMembers_crowd {n k : Nat} (hk : k < n) :
    ∃ t' problems c', (ClassTable.seeded.add (crowd n)).addEnumMembers 25 = .ok (t', problems) ∧
      t'.get? 25 = some c' ∧ c'.staticInit[k]? = some (.expr (.set (.fieldOf 25 "ONE")
        (.callStatic 25 "Crowd" Enumeration.initMethod [.string "ONE", .int (.ofNat k)]))) := by
  have hn : (ClassTable.seeded.add (crowd n)).Numbered :=
    Numbered.add (by decide : ClassTable.seeded.Numbered) _
  have hget : (ClassTable.seeded.add (crowd n)).get? 25 = some { crowd n with id := 25 } := rfl
  have hvalues : ({ crowd n with id := 25 } : ClassDecl).field? valuesField = none := by
    refine List.find?_eq_none.mpr fun f hf => ?_
    rw [List.eq_of_mem_replicate hf]
    decide
  obtain ⟨s, hs, owner, d, hbuilt, hd, rfl⟩ :=
    exists_builds_getElem? hn hget (keptConstants_crowd hk)
  refine ⟨_, _, _, addEnumMembers_of_enum hget rfl rfl hvalues, get?_set_self hget _, ?_⟩
  rcases hbuilt with ⟨before, e, after, hsplit, -⟩ | ⟨-, rfl⟩
  · exact absurd hsplit (List.append_ne_nil_of_right_ne_nil before (List.cons_ne_nil e after)).symm
  · obtain rfl : { crowd n with id := 25 } = d := Option.some.inj (hget.symm.trans hd)
    exact hs

/-- A method that takes one argument. -/
def formatMethod (type : TypeRef) (isAbstract : Bool) : Method :=
  { name := "format", modifiers := { isPublic := true, isAbstract },
    returnType := Builtin.stringType, params := [.plain "value" type] }

/-- An enum with an abstract method, and the body of its only constant. The body has an abstract
method of the same name before it implements the one of the enum. -/
def formatTable : ClassTable := [
  { ClassDecl.empty "Unit" .enum with
    superclass := some (.resolved 23 "Enum"), methods := [formatMethod Builtin.intType true],
    fields := [⟨"METRE", { Modifiers.publicStaticFinal with isEnum := true }, .resolved 25 "Unit",
      some (.literal (.resolved 26 "Unit$METRE")), [], .synthetic⟩] },
  { ClassDecl.empty "Unit$METRE" .constantBody with
    superclass := some (.resolved 25 "Unit"),
    methods := [formatMethod Builtin.stringType true, formatMethod Builtin.intType false] }].foldl
  .add .seeded

/-- With one constant more than there are 32-bit integers that are not negative, the last one is not
built from its place. A method that a body implements is reported all the same if it comes after an
abstract method of its name and number of parameters. -/
theorem places_wrap_and_overloads_hide :
    (∃ t' problems c' place,
      (ClassTable.seeded.add (crowd 2147483649)).addEnumMembers 25 = .ok (t', problems) ∧
      t'.get? 25 = some c' ∧ c'.staticInit[2147483648]? = some (.expr (.set (.fieldOf 25 "ONE")
        (.callStatic 25 "Crowd" Enumeration.initMethod [.string "ONE", .int place]))) ∧
      place.toInt = -2147483648) ∧
    ∃ t' body m, formatTable.get? 26 = some body ∧ m ∈ body.methods ∧ m.isAbstract = false ∧
      m.name = (formatMethod Builtin.intType true).name ∧
      m.params = (formatMethod Builtin.intType true).params ∧
      formatTable.addEnumMembers 25 =
        .ok (t', [⟨.abstractMethod "METRE" "String format(int)", .synthetic⟩]) := by
  constructor
  · obtain ⟨t', problems, c', hrun, hget, hbuilt⟩ :=
      @addEnumMembers_crowd 2147483649 2147483648 (by decide)
    exact ⟨t', problems, c', _, hrun, hget, hbuilt, by decide⟩
  · have henum : formatTable.get? 25 = some _ := rfl
    exact ⟨_, _, formatMethod Builtin.intType false, rfl, .tail _ (.head _), rfl, rfl, rfl,
      addEnumMembers_of_enum henum rfl rfl rfl⟩

end ClassTable

end Metaobject
