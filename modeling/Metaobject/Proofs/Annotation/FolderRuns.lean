import Mathlib.Data.Finset.Dedup
import Metaobject.Proofs.Annotation.AliasChains

/-!
# Runs of the folder

A folder that works through an expression keeps the set of the fields whose initializers it is
folding. It folds the elements of a list from left to right, and follows a reference to a field
unless the field is in the set. `FolderRun` is this account of its work, with the set before and
after.

Every run comes to an end, has one outcome and gives the set back as it was. On an empty set the
outcome is the folded expression, and what is folded are the references that have a value.

* `ClassTable.folderRun_iff`: the one run from any set of fields.
* `ClassTable.folded?_list`: a list is folded element by element.
* `ClassTable.folder_computes_values`: what a fresh folder does.
-/

namespace Metaobject

/-- A list with those elements replaced for which there is something else, if there are any. -/
def Expr.relisted (es : List Expr) (rs : List (Option Expr)) (span : Span) : Option Expr :=
  if rs.any Option.isSome then some (.list (List.zipWith (fun e r => r.getD e) es rs) span)
    else none

namespace ClassTable

mutual

/-- A run of the folder over an expression: the fields in progress before it, the expression, what
replaces it, and the fields in progress after it. -/
inductive FolderRun (t : ClassTable) : Finset FieldKey → Expr → Option Expr → Finset FieldKey → Prop
  | list {inProgress inProgress' : Finset FieldKey} {es : List Expr} {rs : List (Option Expr)}
      {span : Span}
      (hes : FolderRuns t inProgress es rs inProgress') :
      FolderRun t inProgress (.list es span) (Expr.relisted es rs span) inProgress'
  | other {inProgress : Finset FieldKey} {e : Expr} (hlist : e.isList = false)
      (hother : ∀ key init, ¬t.AliasOf e key init) : FolderRun t inProgress e none inProgress
  /-- A field that leads back to itself has no value. -/
  | cyclic {inProgress : Finset FieldKey} {e init : Expr} {key : FieldKey}
      (halias : t.AliasOf e key init)
      (hkey : key ∈ inProgress) : FolderRun t inProgress e none inProgress
  | literal {inProgress : Finset FieldKey} {e : Expr} {key : FieldKey} {v : Constant} {span : Span}
      (halias : t.AliasOf e key (.constant v span)) (hkey : key ∉ inProgress) :
      FolderRun t inProgress e (some (.constant v e.span)) ((insert key inProgress).erase key)
  /-- The initializer is folded while the field is in progress; only a literal is passed on. -/
  | follow {inProgress inProgress' : Finset FieldKey} {e init : Expr} {key : FieldKey}
      {r : Option Expr}
      (halias : t.AliasOf e key init) (hkey : key ∉ inProgress) (hinit : init.isConstant = false)
      (hrun : FolderRun t (insert key inProgress) init r inProgress') :
      FolderRun t inProgress e ((r.bind Expr.constant?).map (.constant · e.span))
        (inProgress'.erase key)

/-- A run of the folder over several expressions, one after the other. -/
inductive FolderRuns (t : ClassTable) : Finset FieldKey → List Expr → List (Option Expr) →
    Finset FieldKey → Prop
  | nil {inProgress : Finset FieldKey} : FolderRuns t inProgress [] [] inProgress
  | cons {inProgress inProgress' inProgress'' : Finset FieldKey} {e : Expr} {es : List Expr}
      {r : Option Expr}
      {rs : List (Option Expr)} (he : FolderRun t inProgress e r inProgress')
      (hes : FolderRuns t inProgress' es rs inProgress'') :
      FolderRuns t inProgress (e :: es) (r :: rs) inProgress''

end

mutual

/-- What a folder that is following the fields `visiting` replaces an expression by. -/
def foldedAt? (t : ClassTable) (visiting : List FieldKey) : Expr → Option Expr
  | .list es span => Expr.relisted es (t.foldedAllAt? visiting es) span
  | e => (t.constantAt visiting e).map (.constant · e.span)

/-- What the folder makes of each element of a list. -/
def foldedAllAt? (t : ClassTable) (visiting : List FieldKey) : List Expr → List (Option Expr)
  | [] => []
  | e :: es => t.foldedAt? visiting e :: t.foldedAllAt? visiting es

end

variable {t : ClassTable} {visiting : List FieldKey} {e : Expr} {r : Option Expr}
  {inProgress' : Finset FieldKey}

/-- Apart from lists, the folder gives the constant that the search finds. -/
theorem foldedAt?_of_not_list (he : e.isList = false) :
    t.foldedAt? visiting e = (t.constantAt visiting e).map (.constant · e.span) := by
  rw [foldedAt?]
  rintro es span rfl
  cases he

/-- A run over a list whose elements have one run each. -/
theorem folderRuns_iff {es : List Expr} {rs : List (Option Expr)}
    (h : ∀ e ∈ es, ∀ r p, t.FolderRun visiting.toFinset e r p ↔ r = t.foldedAt? visiting e ∧
      p = visiting.toFinset) :
    t.FolderRuns visiting.toFinset es rs inProgress' ↔
      rs = t.foldedAllAt? visiting es ∧ inProgress' = visiting.toFinset := by
  induction es generalizing rs with
  | nil =>
    constructor
    · intro hrun
      cases hrun
      exact ⟨rfl, rfl⟩
    · rintro ⟨rfl, rfl⟩
      exact .nil
  | cons e es ih =>
    have hfirst := h e List.mem_cons_self
    have hrest (rs : List (Option Expr)) := @ih rs fun e he => h e (List.mem_cons_of_mem _ he)
    constructor
    · intro hrun
      cases hrun with
      | cons he hes =>
        obtain ⟨rfl, rfl⟩ := (hfirst _ _).mp he
        obtain ⟨rfl, rfl⟩ := (hrest _).mp hes
        exact ⟨rfl, rfl⟩
    · rintro ⟨rfl, rfl⟩
      exact .cons ((hfirst _ _).mpr ⟨rfl, rfl⟩) ((hrest _).mpr ⟨rfl, rfl⟩)

/-- The literal that an initializer is folded to. -/
theorem constant?_foldedAt? (visiting : List FieldKey) (e : Expr) :
    (t.foldedAt? visiting e).bind Expr.constant? = t.constantAt visiting e := by
  by_cases he : e.isList = true
  · cases e <;> cases he
    rw [foldedAt?, Expr.relisted, constantAt_of_not_aliasOf fun _ _ => not_aliasOf_list]
    split <;> rfl
  · rw [foldedAt?_of_not_list (by simpa using he)]
    cases t.constantAt visiting e <;> rfl

/-- A run over anything but a list, where the initializers behind further fields have one run
each. -/
theorem folderRun_iff_of_not_list (he : e.isList = false)
    (h : ∀ key init, t.AliasOf e key init → key ∉ visiting →
      ∀ r p, t.FolderRun (key :: visiting).toFinset init r p ↔
      r = t.foldedAt? (key :: visiting) init ∧ p = (key :: visiting).toFinset) :
    t.FolderRun visiting.toFinset e r inProgress' ↔ r = t.foldedAt? visiting e ∧
      inProgress' = visiting.toFinset := by
  rw [foldedAt?_of_not_list he]
  constructor
  · intro hrun
    -- one case per rule of the relation; only the last rule runs the folder again, and there the
    -- hypothesis speaks of the set with the new field in it
    cases hrun with
    | list _ => cases he
    | other _ hother =>
      rw [constantAt_of_not_aliasOf hother]
      exact ⟨rfl, rfl⟩
    | cyclic halias hkey =>
      rw [constantAt_of_mem halias (List.mem_toFinset.mp hkey)]
      exact ⟨rfl, rfl⟩
    | literal halias hkey =>
      rw [constantAt_of_not_mem halias (mt List.mem_toFinset.mpr hkey), Finset.erase_insert hkey]
      exact ⟨rfl, rfl⟩
    | @follow _ inProgress' _ init key r halias hkey hinit hrest =>
      have hkey' : key ∉ visiting := mt List.mem_toFinset.mpr hkey
      have hconstant : init.constant? = none := by simpa [Expr.isConstant] using hinit
      rw [← List.toFinset_cons] at hrest
      obtain ⟨rfl, rfl⟩ := (h key init halias hkey' r inProgress').mp hrest
      rw [constantAt_of_not_mem halias hkey', hconstant, Option.none_or, constant?_foldedAt?,
        List.toFinset_cons, Finset.erase_insert hkey]
      exact ⟨rfl, rfl⟩
  · rintro ⟨rfl, rfl⟩
    -- the function tells apart what the rules tell apart: no alias, an alias in progress, an alias
    -- of a literal, any other alias
    by_cases halias : ∃ key init, t.AliasOf e key init
    · obtain ⟨key, init, halias⟩ := halias
      by_cases hkey : key ∈ visiting
      · rw [constantAt_of_mem halias hkey]
        exact .cyclic halias (List.mem_toFinset.mpr hkey)
      · have hnew : key ∉ visiting.toFinset := mt List.mem_toFinset.mp hkey
        have hback : (insert key visiting.toFinset).erase key = visiting.toFinset :=
          Finset.erase_insert hnew
        rw [constantAt_of_not_mem halias hkey]
        cases hconstant : init.constant? with
        | some v =>
          obtain ⟨span, rfl⟩ : ∃ span, init = .constant v span := by
            cases init <;> cases hconstant
            exact ⟨_, rfl⟩
          have hrun := FolderRun.literal halias hnew
          rwa [hback] at hrun
        | none =>
          have hrest := (h key init halias hkey _ _).mpr ⟨rfl, rfl⟩
          rw [List.toFinset_cons] at hrest
          have hrun := FolderRun.follow halias hnew (by simp [Expr.isConstant, hconstant]) hrest
          rwa [constant?_foldedAt?, hback] at hrun
    · push Not at halias
      rw [constantAt_of_not_aliasOf halias]
      exact .other he halias

/-- From any set of fields there is exactly one run, and it gives the set back. -/
theorem folderRun_iff :
    t.FolderRun visiting.toFinset e r inProgress' ↔ r = t.foldedAt? visiting e ∧
      inProgress' = visiting.toFinset := by
  -- a run goes on to an initializer with one field more in progress, and from a list to its
  -- elements
  induction hn : t.unvisited visiting using Nat.strong_induction_on generalizing visiting e r
    inProgress' with
  | _ n ih =>
    induction e using list_induction generalizing r inProgress' with
    | list es span ihes =>
      have hruns (rs : List (Option Expr)) :=
        @folderRuns_iff t visiting inProgress' es rs fun e he r p => ihes e he
      constructor
      · intro hrun
        cases hrun with
        | list hes =>
          obtain ⟨rfl, rfl⟩ := (hruns _).mp hes
          exact ⟨by rw [foldedAt?], rfl⟩
        | other hlist _ => cases hlist
        | cyclic halias _ => exact absurd halias not_aliasOf_list
        | literal halias _ => exact absurd halias not_aliasOf_list
        | follow halias _ _ _ => exact absurd halias not_aliasOf_list
      · rintro ⟨rfl, rfl⟩
        rw [foldedAt?]
        exact .list ((hruns _).mpr ⟨rfl, rfl⟩)
    | other e he =>
      refine folderRun_iff_of_not_list he fun key init halias hkey r p => ?_
      have hless := halias.unvisited_lt hkey
      exact ih _ (hn ▸ hless) rfl

/-! ## A fresh folder -/

/-- The folded expression, if folding replaces anything. -/
def folded? (t : ClassTable) (e : Expr) : Option Expr := if t.folds e then some (t.fold e) else none

/-- A list is folded if one of its elements is. -/
theorem foldsAny_eq_any (es : List Expr) : t.foldsAny es = es.any t.folds := by
  induction es with
  | nil => rfl
  | cons e es ih => rw [foldsAny, List.any_cons, ih]

/-- What is no list is folded if it refers to a constant. -/
theorem folds_of_not_list (he : e.isList = false) : t.folds e = (t.referredConstant? e).isSome := by
  rw [folds]
  rintro es span rfl
  cases he

/-- What is not folded stays as it is. -/
theorem fold_of_not_folds (h : t.folds e = false) : t.fold e = e := by
  induction e using list_induction with
  | other e he =>
    rw [folds_of_not_list he] at h
    rw [fold_of_not_list he, Option.not_isSome_iff_eq_none.mp (Bool.eq_false_iff.mp h)]
    rfl
  | list es span ih =>
    rw [folds, foldsAny_eq_any, List.any_eq_false] at h
    have hsame : ∀ e ∈ es, t.fold e = e := fun e he => ih e he (Bool.eq_false_iff.mpr (h e he))
    rw [fold_list, List.map_congr_left hsame, List.map_id']

/-- What is left of an expression after folding, whether anything is replaced or not. -/
theorem getD_folded? (e : Expr) : (t.folded? e).getD e = t.fold e := by
  rw [folded?]
  by_cases hfolds : t.folds e = true
  · rw [if_pos hfolds]
    rfl
  · rw [if_neg hfolds, fold_of_not_folds (Bool.eq_false_iff.mpr hfolds)]
    rfl

/-- There is a folded form exactly of what is folded. -/
theorem isSome_folded? (e : Expr) : (t.folded? e).isSome = t.folds e := by
  rw [folded?]
  cases t.folds e <;> rfl

/-- Apart from lists, the folded form is the constant that is referred to. -/
theorem folded?_of_not_list (he : e.isList = false) :
    t.folded? e = (t.referredConstant? e).map (.constant · e.span) := by
  rw [folded?, folds_of_not_list he, fold_of_not_list he]
  cases t.referredConstant? e <;> rfl

/-- Putting the folded elements back into the list gives the folded list. -/
theorem relisted_map_folded? (es : List Expr) (span : Span) :
    Expr.relisted es (es.map t.folded?) span = t.folded? (.list es span) := by
  have hany : (es.map t.folded?).any Option.isSome = t.folds (.list es span) := by
    rw [folds, foldsAny_eq_any, List.any_map]
    exact congrArg es.any (funext isSome_folded?)
  have helements : List.zipWith (fun e r => r.getD e) es (es.map t.folded?) = es.map t.fold := by
    rw [List.zipWith_map_right, List.zipWith_self]
    exact List.map_congr_left fun e _ => getD_folded? e
  rw [Expr.relisted, hany, helements, folded?, fold_list]

/-- The elements of a list are folded one by one. -/
theorem foldedAllAt?_eq_map (visiting : List FieldKey) (es : List Expr) :
    t.foldedAllAt? visiting es = es.map (t.foldedAt? visiting) := by
  induction es with
  | nil => rfl
  | cons e es ih => rw [foldedAllAt?, ih, List.map_cons]

/-- With nothing in progress, the folder gives the folded form. -/
theorem foldedAt?_nil (e : Expr) : t.foldedAt? [] e = t.folded? e := by
  induction e using list_induction with
  | other e he =>
    rw [foldedAt?_of_not_list he, folded?_of_not_list he]
    rfl
  | list es span ih =>
    rw [foldedAt?, foldedAllAt?_eq_map, List.map_congr_left ih, relisted_map_folded?]

/-- A list is folded element by element. -/
theorem folded?_list {es : List Expr} (h : ∃ e ∈ es, (t.folded? e).isSome = true) (span : Span) :
    t.folded? (.list es span) = some (.list (es.map fun e => (t.folded? e).getD e) span) := by
  have hany : (es.map t.folded?).any Option.isSome = true := by simpa using h
  rw [← relisted_map_folded?, Expr.relisted, if_pos hany, List.zipWith_map_right, List.zipWith_self]

/-- A list whose elements stay as they are stays as it is. -/
theorem folded?_list_of_none {es : List Expr} (h : ∀ e ∈ es, t.folded? e = none) (span : Span) :
    t.folded? (.list es span) = none := by
  have hnone : (es.map t.folded?).any Option.isSome = false := by
    rw [List.any_eq_false]
    intro r hr
    obtain ⟨e, he, rfl⟩ := List.mem_map.mp hr
    simp [h e he]
  rw [← relisted_map_folded?, Expr.relisted, hnone]
  rfl

/-- Nothing is left to fold. -/
theorem folded?_fold (e : Expr) : t.folded? (t.fold e) = none := by
  induction e using list_induction with
  | other e he =>
    rw [fold_of_not_list he]
    cases hconstant : t.referredConstant? e with
    | none =>
      show t.folded? e = none
      rw [folded?_of_not_list he, hconstant]
      rfl
    | some v => rfl
  | list es span ih =>
    rw [fold_list]
    exact folded?_list_of_none (List.forall_mem_map.mpr ih) span

/-- A fresh folder comes to an end on every expression, with nothing left in progress, and computes
the values of references. A reference that has a value becomes that literal, at the place of the
reference. A list with an element that folds is folded element by element. Everything else is left
alone, and so is what is folded already. -/
theorem folder_computes_values (t : ClassTable) :
    (∀ e r inProgress, t.FolderRun ∅ e r inProgress ↔ r = t.folded? e ∧ inProgress = ∅) ∧
    (∀ e v, t.HasValue e v → t.folded? e = some (.constant v e.span)) ∧
    (∀ es span, (∃ e ∈ es, (t.folded? e).isSome = true) →
      t.folded? (.list es span) = some (.list (es.map fun e => (t.folded? e).getD e) span)) ∧
    (∀ e, (∀ v, ¬t.HasValue e v) → (∀ es span, e = .list es span → ∀ x ∈ es, t.folded? x = none) →
      t.folded? e = none) ∧
    ∀ e e', t.folded? e = some e' → t.folded? e' = none := by
  refine ⟨fun e r inProgress => ?_, fun e v hvalue => ?_, fun es span h => folded?_list h span,
    fun e hvalue hlist => ?_, fun e e' hfolded => ?_⟩
  · rw [← List.toFinset_nil, folderRun_iff, foldedAt?_nil]
  · have hconstant := referredConstant?_eq_some_iff.mpr hvalue
    have he := (Expr.isSingle_cases (isSingle_of_referredConstant? hconstant)).1
    rw [folded?_of_not_list he, hconstant]
    rfl
  · by_cases he : e.isList = true
    · cases e <;> cases he
      exact folded?_list_of_none (hlist _ _ rfl) _
    · have hnone : t.referredConstant? e = none := by
        rw [Option.eq_none_iff_forall_ne_some]
        intro v hconstant
        exact hvalue v (referredConstant?_eq_some_iff.mp hconstant)
      rw [folded?_of_not_list (Bool.eq_false_iff.mpr he), hnone]
      rfl
  · have hfold : e' = t.fold e := by
      have hleft := getD_folded? (t := t) e
      rwa [hfolded] at hleft
    rw [hfold, folded?_fold]

def configField (name : String) (init : Expr) : Field :=
  ⟨name, .publicStaticFinal, Builtin.intType, init, [], .synthetic⟩

/-- A class with an alias of a constant and two fields that refer to each other. -/
def configTable : ClassTable := ClassTable.seeded.add
  { ClassDecl.empty "Config" .ordinary with
    fields := [configField "MAX" (.int 10), configField "LIMIT" (.fieldOf 25 "MAX"),
      configField "PING" (.fieldOf 25 "PONG"), configField "PONG" (.fieldOf 25 "PING")] }

/-- The alias has the value of the constant; the two other fields have none. -/
theorem folder_computes_values_config :
    configTable.HasValue (.fieldOf 25 "LIMIT") (.int 10) ∧
      configTable.FolderRun ∅ (.list [.fieldOf 25 "LIMIT", .fieldOf 25 "PING"] .synthetic)
        (some (.list [.int 10, .fieldOf 25 "PING"] .synthetic)) ∅ := by
  have hlimit : configTable.AliasStep (.fieldOf 25 "LIMIT") (.fieldOf 25 "MAX") :=
    ⟨_, ⟨.field, rfl, rfl, rfl, rfl, rfl⟩⟩
  have hmax : configTable.AliasStep (.fieldOf 25 "MAX") (.int 10) :=
    ⟨_, ⟨.field, rfl, rfl, rfl, rfl, rfl⟩⟩
  exact ⟨⟨_, .tail (.single hlimit) hmax⟩,
    ((folder_computes_values configTable).1 _ _ _).mpr ⟨rfl, rfl⟩⟩

end ClassTable

end Metaobject
