import Mathlib.Logic.Relation
import Metaobject.Proofs.Annotation.Revalidation
import Metaobject.Proofs.Dispatch.Choices

/-!
# Chains of aliases

A reference to a static final field leads to the initializer of that field, which may be a reference
in turn. The value of a reference is the literal at the end of this chain, if the chain ends in one.
The search for it keeps the fields that it is following and gives up where it meets one of them
again. It loses no value: the field determines what comes behind it, so a chain that meets a field
twice goes round for ever.

* `ClassTable.fieldConstant?_of_lt`: the bound of the search is never met.
* `ClassTable.EndsIn.avoids`: behind a field, a chain that ends does not come back to it.
* `ClassTable.referredConstant?_eq_some_iff`: the search finds exactly the values.
-/

namespace Metaobject

/-- A field, by the class that declares it and its name. -/
abbrev FieldKey := ClassId × String

namespace ClassTable

/-! ## References and their values -/

/-- The expression is a reference to the field `name` of the class `owner`: a property of a class
literal, a field, or a variable that was found to be a field. -/
inductive RefersTo (t : ClassTable) : Expr → ClassId → String → Prop
  | property {type : TypeRef} {name : String} {span span' : Span} {owner : ClassId}
      (howner : (t.resolve type).classId? = some owner) :
      RefersTo t (.property (.classRef type span) name span') owner name
  | field {owner : ClassId} {name : String} {span : Span} :
      RefersTo t (.field owner name span) owner name
  | bound {text : String} {owner : ClassId} {name : String} {span : Span} :
      RefersTo t (.var text (some (.field owner name)) span) owner name

/-- The expression is a reference that leads to the field `key`, which is static and final and has
the initializer `init`. References through an enum lead nowhere. -/
inductive AliasOf (t : ClassTable) : Expr → FieldKey → Expr → Prop
  | intro {e init : Expr} {owner declaring : ClassId} {name : String} {f : Field}
      (hrefers : t.RefersTo e owner name)
      (howner : t.isEnum owner = false) (hfield : t.findField owner name = some (declaring, f))
      (hstatic : f.isStatic = true) (hfinal : f.isFinal = true) (hinit : f.init = some init) :
      AliasOf t e (declaring, name) init

/-- A step from a reference to the initializer that it leads to. -/
def AliasStep (t : ClassTable) (e init : Expr) : Prop := ∃ key, t.AliasOf e key init

/-- The value of a reference: the literal that is reached in finitely many steps. -/
def HasValue (t : ClassTable) (e : Expr) (v : Constant) : Prop :=
  ∃ span, Relation.TransGen t.AliasStep e (.constant v span)

variable {t : ClassTable} {e init : Expr} {key : FieldKey} {visiting : List FieldKey} {v : Constant}

/-- Being a reference is decided by `fieldReference?`. -/
theorem refersTo_iff {owner : ClassId} {name : String} :
    t.RefersTo e owner name ↔ t.fieldReference? e = some (owner, name) := by
  constructor
  · intro h
    cases h with
    | property howner => simp [fieldReference?, howner]
    | field => rfl
    | bound => rfl
  · intro h
    unfold fieldReference? at h
    split at h
    · obtain ⟨id, hid, heq⟩ := Option.map_eq_some_iff.mp h
      cases heq
      exact .property hid
    · cases h
      exact .field
    · cases h
      exact .bound
    · cases h

theorem not_aliasOf_constant {span : Span} : ¬t.AliasOf (.constant v span) key init := by
  rintro ⟨⟨⟩⟩

theorem not_aliasOf_list {es : List Expr} {span : Span} : ¬t.AliasOf (.list es span) key init := by
  rintro ⟨⟨⟩⟩

/-- A reference leads to one field only. -/
theorem AliasOf.unique (h : t.AliasOf e key init) {key' : FieldKey} {init' : Expr}
    (h' : t.AliasOf e key' init') : key' = key ∧ init' = init := by
  obtain ⟨hrefers, -, hfield, -, -, hinit⟩ := h
  obtain ⟨hrefers', -, hfield', -, -, hinit'⟩ := h'
  have href := (refersTo_iff.mp hrefers).symm.trans (refersTo_iff.mp hrefers')
  cases href
  have hsame := hfield.symm.trans hfield'
  cases hsame
  exact ⟨rfl, Option.some.inj (hinit'.symm.trans hinit)⟩

/-- A field has one initializer, whatever class it is reached through. -/
theorem AliasOf.init_unique (h : t.AliasOf e key init) {e' init' : Expr}
    (h' : t.AliasOf e' key init') : init' = init := by
  obtain ⟨-, -, hfield, -, -, hinit⟩ := h
  obtain ⟨-, -, hfield', -, -, hinit'⟩ := h'
  obtain ⟨c, hget, hfind⟩ := field?_of_findField hfield
  obtain ⟨c', hget', hfind'⟩ := field?_of_findField hfield'
  obtain rfl : c = c' := Option.some.inj (hget.symm.trans hget')
  have hsame := Option.some.inj (hfind.symm.trans hfind')
  rw [← hsame, hinit] at hinit'
  exact (Option.some.inj hinit').symm

/-! ## The bound of the search -/

/-- The fields of all classes. -/
def fieldKeys (t : ClassTable) : List FieldKey :=
  t.classes.zipIdx.flatMap fun p => p.1.fields.map fun f => (p.2, f.name)

/-- The keys list each field of each class once. -/
theorem length_fieldKeys (t : ClassTable) : t.fieldKeys.length = t.fieldCount := by
  have hlengths (cs : List ClassDecl) (n : Nat) :
      ((cs.zipIdx n).flatMap fun p => p.1.fields.map fun f => (p.2, f.name)).length =
        (cs.flatMap (·.fields)).length := by
    induction cs generalizing n with
    | nil => rfl
    | cons c cs ih =>
      rw [List.zipIdx_cons, List.flatMap_cons, List.flatMap_cons, List.length_append,
        List.length_append, ih, List.length_map]
  exact hlengths t.classes 0

/-- Only fields of the table are aliases. -/
theorem AliasOf.mem_fieldKeys (h : t.AliasOf e key init) : key ∈ t.fieldKeys := by
  obtain @⟨_, _, declaring, name, f, -, -, hfield, -, -, -⟩ := h
  obtain ⟨c, hget, hfind⟩ := field?_of_findField hfield
  have hname : f.name = name := by simpa using List.find?_some hfind
  have hclass : (c, declaring) ∈ t.classes.zipIdx := List.mem_zipIdx_iff_getElem?.mpr hget
  have hfield : f ∈ c.fields := List.mem_of_find?_eq_some hfind
  exact List.mem_flatMap.mpr ⟨(c, declaring), hclass, List.mem_map.mpr ⟨f, hfield, by rw [hname]⟩⟩

/-- How many fields are not being followed yet. -/
def unvisited (t : ClassTable) (visiting : List FieldKey) : Nat :=
  (t.fieldKeys.filter (!visiting.contains ·)).length

/-- Each alias that is entered leaves fewer fields to visit. -/
theorem AliasOf.unvisited_lt (h : t.AliasOf e key init) (hkey : key ∉ visiting) :
    t.unvisited (key :: visiting) < t.unvisited visiting := by
  have hfilter : t.fieldKeys.filter (!(key :: visiting).contains ·)
      = (t.fieldKeys.filter (!visiting.contains ·)).filter (· ≠ key) := by
    rw [List.filter_filter]
    exact List.filter_congr fun k _ => by simp
  have hmem : key ∈ t.fieldKeys.filter (!visiting.contains ·) :=
    List.mem_filter.mpr ⟨h.mem_fieldKeys, by simpa using hkey⟩
  rw [unvisited, unvisited, hfilter, List.length_filter_lt_length_iff_exists]
  exact ⟨key, hmem, by simp⟩

/-- There are at most as many fields left to visit as there are fields. -/
theorem unvisited_le (t : ClassTable) (visiting : List FieldKey) :
    t.unvisited visiting ≤ t.fieldCount := by
  rw [unvisited, ← length_fieldKeys]
  exact List.length_filter_le ..

/-- What the search does with a reference that leads to a field. -/
theorem fieldConstant?_succ (h : t.AliasOf e key init) (fuel : Nat) :
    (t.fieldReference? e).bind (t.fieldConstant? (fuel + 1) visiting)
      = if key ∈ visiting then none
        else init.constant?.or
          ((t.fieldReference? init).bind (t.fieldConstant? fuel (key :: visiting))) := by
  obtain @⟨_, _, declaring, name, f, hrefers, howner, hfield, hstatic, hfinal, hinit⟩ := h
  rw [refersTo_iff.mp hrefers, Option.bind_some, fieldConstant?]
  simp only [howner, hfield, hstatic, hfinal, hinit, Bool.true_and, Bool.false_eq_true, if_false,
    decide_eq_true_eq]
  by_cases hkey : (declaring, name) ∈ visiting
  · rw [if_pos hkey, if_neg (not_not.mpr hkey)]
  · rw [if_neg hkey, if_pos hkey]
    cases init <;> rfl

/-- Any other expression has no constant behind it. -/
theorem fieldConstant?_of_not_aliasOf (h : ∀ key init, ¬t.AliasOf e key init) (fuel : Nat) :
    (t.fieldReference? e).bind (t.fieldConstant? fuel visiting) = none := by
  cases href : t.fieldReference? e with
  | none => rfl
  | some ref =>
    obtain ⟨owner, name⟩ := ref
    rw [Option.bind_some]
    cases fuel with
    | zero => rfl
    | succ fuel =>
      rw [fieldConstant?]
      by_cases howner : t.isEnum owner = true
      · rw [if_pos howner]
      · rw [if_neg howner]
        cases hfield : t.findField owner name with
        | none => rfl
        | some found =>
          obtain ⟨declaring, f⟩ := found
          dsimp only
          split
          · rename_i hfits
            simp only [Bool.and_eq_true] at hfits
            obtain ⟨⟨hstatic, hfinal⟩, -⟩ := hfits
            cases hinit : f.init with
            | none => rfl
            | some init =>
              -- all conditions of the definition hold here, so the field is an alias after all
              have halias : t.AliasOf e (declaring, name) init :=
                ⟨refersTo_iff.mpr href, by simpa using howner, hfield, hstatic, hfinal, hinit⟩
              exact absurd halias (h (declaring, name) init)
          · rfl

/-- The bound of the search is never met: every field that is followed is one less to visit. -/
theorem fieldConstant?_of_lt {fuel fuel' : Nat} (hfuel : t.unvisited visiting < fuel)
    (hfuel' : t.unvisited visiting < fuel') :
    (t.fieldReference? e).bind (t.fieldConstant? fuel visiting)
      = (t.fieldReference? e).bind (t.fieldConstant? fuel' visiting) := by
  induction fuel generalizing fuel' visiting e with
  | zero => exact absurd hfuel (Nat.not_lt_zero _)
  | succ fuel ih =>
    obtain ⟨fuel', rfl⟩ : ∃ n, fuel' = n + 1 := ⟨fuel' - 1, by omega⟩
    by_cases halias : ∃ key init, t.AliasOf e key init
    · obtain ⟨key, init, halias⟩ := halias
      rw [fieldConstant?_succ halias, fieldConstant?_succ halias]
      by_cases hkey : key ∈ visiting
      · rw [if_pos hkey, if_pos hkey]
      · have hless := halias.unvisited_lt hkey
        have hrest : (t.fieldReference? init).bind (t.fieldConstant? fuel (key :: visiting))
            = (t.fieldReference? init).bind (t.fieldConstant? fuel' (key :: visiting)) :=
              ih (by omega) (by omega)
        rw [if_neg hkey, if_neg hkey, hrest]
    · push Not at halias
      rw [fieldConstant?_of_not_aliasOf halias, fieldConstant?_of_not_aliasOf halias]

/-! ## The search without its bound -/

/-- The literal that an expression refers to, where the fields `visiting` are already being
followed. -/
def constantAt (t : ClassTable) (visiting : List FieldKey) (e : Expr) : Option Constant :=
  (t.fieldReference? e).bind (t.fieldConstant? (t.fieldCount + 1) visiting)

/-- The search gives nothing for what is no alias. -/
theorem constantAt_of_not_aliasOf (h : ∀ key init, ¬t.AliasOf e key init) :
    t.constantAt visiting e = none :=
  fieldConstant?_of_not_aliasOf h _

/-- The search gives nothing for an alias that it is already visiting. -/
theorem constantAt_of_mem (h : t.AliasOf e key init) (hkey : key ∈ visiting) :
    t.constantAt visiting e = none := by
  rw [constantAt, fieldConstant?_succ h, if_pos hkey]

/-- At a new alias the search takes the literal that it is initialized with, or goes on from
there. -/
theorem constantAt_of_not_mem (h : t.AliasOf e key init) (hkey : key ∉ visiting) :
    t.constantAt visiting e = init.constant?.or (t.constantAt (key :: visiting) init) := by
  have hless := h.unvisited_lt hkey
  have hle := t.unvisited_le visiting
  have hbound : (t.fieldReference? init).bind (t.fieldConstant? t.fieldCount (key :: visiting))
      = t.constantAt (key :: visiting) init := fieldConstant?_of_lt (by omega) (by omega)
  rw [constantAt, fieldConstant?_succ h, if_neg hkey, hbound]

/-! ## What the search finds -/

/-- The chain from an expression ends in a literal and passes none of the fields `avoided`. -/
inductive EndsIn (t : ClassTable) (avoided : List FieldKey) : Expr → Constant → Prop
  | literal {v : Constant} {span : Span} : EndsIn t avoided (.constant v span) v
  | follow {e init : Expr} {key : FieldKey} {v : Constant} (halias : t.AliasOf e key init)
      (hkey : key ∉ avoided)
      (hrest : EndsIn t avoided init v) : EndsIn t avoided e v

/-- A chain from an alias goes on from its initializer, and the alias must not be avoided. -/
theorem endsIn_iff_of_aliasOf (h : t.AliasOf e key init) :
    t.EndsIn visiting e v ↔ key ∉ visiting ∧ t.EndsIn visiting init v := by
  constructor
  · intro hends
    cases hends with
    | literal => exact absurd h not_aliasOf_constant
    | follow halias hkey hrest =>
      obtain ⟨rfl, rfl⟩ := h.unique halias
      exact ⟨hkey, hrest⟩
  · rintro ⟨hkey, hrest⟩
    exact .follow h hkey hrest

/-- A chain that avoids some fields avoids any part of them. -/
theorem EndsIn.mono {avoided avoided' : List FieldKey} (hsub : avoided ⊆ avoided')
    (h : t.EndsIn avoided' e v) : t.EndsIn avoided e v := by
  induction h with
  | literal => exact .literal
  | follow halias hkey _ ih => exact .follow halias (fun hmem => hkey (hsub hmem)) ih

/-- Behind a field, a chain that ends does not come back to the field: where it came back, it would
go on as before. -/
theorem EndsIn.avoids (hkey : t.AliasOf e key init) {avoided : List FieldKey}
    (h : t.EndsIn avoided init v) : t.EndsIn (key :: avoided) init v := by
  -- the part of a chain behind its last visit to the field is the chain from `init`
  have hlast : ∀ {start : Expr}, t.EndsIn avoided start v →
      t.EndsIn (key :: avoided) start v ∨ t.EndsIn (key :: avoided) init v := by
    intro start hstart
    induction hstart with
    | literal => exact .inl .literal
    | @follow start next key' v halias havoided _ ih =>
      by_cases hsame : key' = key
      · subst hsame
        have hnext := hkey.init_unique halias
        subst hnext
        exact .inr ((ih h).elim id id)
      · rcases ih h with hrest | hinit
        · exact .inl (.follow halias (by simp [hsame, havoided]) hrest)
        · exact .inr hinit
  exact (hlast h).elim id id

/-- The search ends in a literal exactly if the chain does. -/
theorem constantAt_eq_some_iff :
    e.constant?.or (t.constantAt visiting e) = some v ↔ t.EndsIn visiting e v := by
  -- on the number of fields not yet visited: following an alias visits a new one
  induction hn : t.unvisited visiting using Nat.strong_induction_on generalizing visiting e with
  | _ n ih =>
    by_cases halias : ∃ key init, t.AliasOf e key init
    · obtain ⟨key, init, halias⟩ := halias
      have hconstant : e.constant? = none := by
        cases e <;> first | rfl | exact absurd halias not_aliasOf_constant
      rw [hconstant, Option.none_or, endsIn_iff_of_aliasOf halias]
      by_cases hkey : key ∈ visiting
      · simp [constantAt_of_mem halias hkey, hkey]
      · have hless := halias.unvisited_lt hkey
        rw [constantAt_of_not_mem halias hkey, ih _ (hn ▸ hless) rfl]
        exact ⟨fun h => ⟨hkey, h.mono (List.subset_cons_self ..)⟩, fun h => h.2.avoids halias⟩
    · push Not at halias
      rw [constantAt_of_not_aliasOf halias, Option.or_none]
      constructor
      · intro hliteral
        cases e <;> cases hliteral
        exact .literal
      · intro hends
        cases hends with
        | literal => rfl
        | follow hstep _ _ => exact absurd hstep (halias _ _)

/-! ## Values -/

/-- Steps from alias to alias reach a literal exactly if a chain ends in it. -/
theorem reflTransGen_aliasStep_iff :
    (∃ span, Relation.ReflTransGen t.AliasStep e (.constant v span)) ↔ t.EndsIn [] e v := by
  constructor
  · rintro ⟨span, hsteps⟩
    induction hsteps using Relation.ReflTransGen.head_induction_on with
    | refl => exact .literal
    | head hstep _ ih =>
      obtain ⟨key, halias⟩ := hstep
      exact .follow halias (by simp) ih
  · intro hends
    induction hends with
    | literal => exact ⟨_, .refl⟩
    | follow halias _ _ ih =>
      obtain ⟨span, hrest⟩ := ih
      exact ⟨span, .head ⟨_, halias⟩ hrest⟩

/-- The literal that a reference stands for is its value. -/
theorem referredConstant?_eq_some_iff : t.referredConstant? e = some v ↔ t.HasValue e v := by
  have hsteps : t.HasValue e v ↔ ∃ key init, t.AliasOf e key init ∧ t.EndsIn [] init v := by
    simp only [HasValue, Relation.TransGen.head'_iff, ← reflTransGen_aliasStep_iff, AliasStep]
    constructor
    · rintro ⟨span, init, ⟨key, halias⟩, hrest⟩
      exact ⟨key, init, halias, span, hrest⟩
    · rintro ⟨key, init, halias, span, hrest⟩
      exact ⟨span, init, ⟨key, halias⟩, hrest⟩
  rw [hsteps]
  show t.constantAt [] e = some v ↔ _
  by_cases halias : ∃ key init, t.AliasOf e key init
  · obtain ⟨key, init, halias⟩ := halias
    rw [constantAt_of_not_mem halias (by simp), constantAt_eq_some_iff]
    constructor
    · intro hends
      exact ⟨key, init, halias, hends.mono (by simp)⟩
    · rintro ⟨key', init', halias', hends⟩
      -- a reference is an alias of one field only, and a chain from its initializer never needs
      -- that field again
      obtain ⟨rfl, rfl⟩ := halias.unique halias'
      exact hends.avoids halias
  · push Not at halias
    rw [constantAt_of_not_aliasOf halias]
    constructor
    · intro hnone
      cases hnone
    · rintro ⟨key, init, hstep, -⟩
      exact absurd hstep (halias key init)

end ClassTable

end Metaobject
