import Metaobject.Proofs.ClassTable.Overlay
import Metaobject.Proofs.Completion.Passes

/-!
# The order in which enums get their constructors

The body of a constant repeats the constructors of its enum. When the body is visited, the enum may
have been completed or not: its constructors may have hidden parameters or lack them, and an enum
that declares none may have its default constructors already. The body gets the same constructors in
all cases, so the order of the visits plays no part.

* `inherited_completeConstructors`: a body takes the same from an enum before and after the enum is
  completed.
* `completeConstructors_overlay`: a visit does the same whatever classes were visited before it.
* `completeConstructors_any_order`: every order of the visits ends with the same table, and no later
  visit changes it.
-/

namespace Metaobject

namespace Enumeration

/-! ## What a body takes from its enum -/

/-- The constructors of a body, given those of its superclass. -/
def inherited (ks : List Constructor) : List Constructor :=
  if ks.isEmpty then bodyConstructors else ks.map repeated

theorem defaultConstructors_of_body {t : ClassTable} {c : ClassDecl}
    (hkind : c.kind = .constantBody) :
    defaultConstructors t c
      = (c.superId?.bind t.get?).elim bodyConstructors fun parent =>
        inherited parent.constructors := by
  rw [defaultConstructors, if_pos hkind]
  cases c.superId?.bind t.get? with
  | none => rfl
  | some parent =>
    rw [Option.map_some, Option.elim_some]
    cases parent.constructors <;> rfl

/-- Hidden parameters are not repeated. -/
theorem repeated_addHidden (forward : Bool) (k : Constructor) :
    repeated (addHidden forward k) = repeated k := by
  rw [addHidden]
  split
  · rfl
  · rename_i hopen
    have hplain : k.hiddenParams = false := by
      by_contra hhidden
      simp [hhidden] at hopen
    simp [repeated, hplain]

/-- A body takes the same from an enum before and after the enum is completed. -/
theorem inherited_completeConstructors (t : ClassTable) {c : ClassDecl}
    (hkind : c.kind ≠ .constantBody) :
    inherited (completeConstructors t c).constructors = inherited c.constructors := by
  have hrepeated (forward : Bool) (ks : List Constructor) :
    (ks.map (addHidden forward)).map repeated = ks.map repeated := by
    rw [List.map_map]
    exact List.map_congr_left fun k _ => repeated_addHidden forward k
  have hne := (hasConstructors_completeConstructors t c).1
  rw [inherited, if_neg (by simpa using hne), completeConstructors, hrepeated, inherited]
  -- the default constructors of an enum repeat to those of a body whose enum has none
  split
  · rw [defaultConstructors, if_neg hkind]
    rfl
  · rfl

end Enumeration

namespace ClassTable

open Enumeration (defaultConstructors inherited)

/-! ## Single visits -/

/-- No body of a constant extends another body. -/
def BodiesExtendNoBody (t : ClassTable) : Prop :=
  ∀ id c, t.get? id = some c → c.kind = .constantBody → ∀ parent ∈ c.superId?, parent ≠ id →
    ∀ d ∈ t.get? parent, d.kind ≠ .constantBody

/-- A class after its visit. -/
def visited (t : ClassTable) (c : ClassDecl) : ClassDecl :=
  if c.IsSourceEnum then Enumeration.completeConstructors t c else c

variable {t : ClassTable} {id : ClassId} {c : ClassDecl}

/-- A visit replaces a class by itself with its constructors. -/
theorem completeConstructors_of_get? (hget : t.get? id = some c) :
    t.completeConstructors id = .ok (t.set id (t.visited c)) := by
  rw [completeConstructors, get_eq_ok_iff.mpr hget, visited]
  show (if !c.isEnum || c.builtin then _ else _) = _
  by_cases hc : c.IsSourceEnum
  · rw [if_pos hc, if_neg (by simp [hc.1, hc.2])]
    rfl
  · have hother : (!c.isEnum || c.builtin) = true := by
      by_contra hsource
      exact hc (by simpa [ClassDecl.IsSourceEnum] using hsource)
    rw [if_neg hc, if_pos hother, set_get? hget]
    rfl

theorem visited_visited (t t' : ClassTable) (c : ClassDecl) :
    t'.visited (t.visited c) = t.visited c := by
  by_cases hc : c.IsSourceEnum
  · have hagain : (Enumeration.completeConstructors t c).IsSourceEnum := hc
    rw [visited, visited, if_pos hc, if_pos hagain]
    exact Enumeration.completeConstructors_of_has
      (Enumeration.hasConstructors_completeConstructors t c)
  · rw [visited, visited, if_neg hc, if_neg hc]

/-- The superclass of a body offers it the same, whatever was visited. -/
theorem inherited_visited (t : ClassTable) {d : ClassDecl} (hkind : d.kind ≠ .constantBody) :
    inherited (t.visited d).constructors = inherited d.constructors := by
  rw [visited]
  split
  · exact Enumeration.inherited_completeConstructors t hkind
  · rfl

/-- A class that was not visited itself gets the same constructors after any visits to others. -/
theorem defaultConstructors_overlay (hb : t.BodiesExtendNoBody) (hget : t.get? id = some c)
    {done : List ClassId} (hid : id ∉ done) :
    defaultConstructors (t.overlay t.visited done) c = defaultConstructors t c := by
  by_cases hkind : c.kind = .constantBody
  · rw [Enumeration.defaultConstructors_of_body hkind,
      Enumeration.defaultConstructors_of_body hkind]
    cases hparent : c.superId? with
    | none => rfl
    | some parent =>
      rw [Option.bind_some, Option.bind_some, get?_overlay]
      cases hd : t.get? parent with
      | none => rfl
      | some d =>
        show inherited (if parent ∈ done then t.visited d else d).constructors =
          inherited d.constructors
        split
        · -- the superclass was visited, so it is not the class itself
          rename_i hdone
          have hne : parent ≠ id := fun heq => hid (heq ▸ hdone)
          exact t.inherited_visited (hb id c hget hkind parent hparent hne d hd)
        · rfl
  · rw [defaultConstructors, defaultConstructors, if_neg hkind, if_neg hkind]

/-- A visit puts the class into the same version, whatever classes were visited before. -/
theorem completeConstructors_overlay (hb : t.BodiesExtendNoBody) (done : List ClassId)
    (hget : t.get? id = some c) :
    (t.overlay t.visited done).completeConstructors id
      = .ok ((t.overlay t.visited done).set id (t.visited c)) := by
  have hnow := get?_overlay t t.visited done id
  rw [hget, Option.map_some] at hnow
  rw [completeConstructors_of_get? hnow]
  by_cases hid : id ∈ done
  · rw [if_pos hid, visited_visited]
  · have hsame : Enumeration.completeConstructors (t.overlay t.visited done) c =
      Enumeration.completeConstructors t c := by
      rw [Enumeration.completeConstructors, Enumeration.completeConstructors,
        defaultConstructors_overlay hb hget hid]
    rw [if_neg hid, visited, visited, hsame]

/-! ## All visits -/

/-- The visits reach every enum of the source, bodies included, and classes of the table only. -/
structure CoversEnums (t : ClassTable) (order : List ClassId) : Prop where
  present : ∀ id ∈ order, id < t.size
  enums : ∀ id c, t.get? id = some c → c.IsSourceEnum → id ∈ order

/-- In whatever order the enums and the bodies of constants are visited, the constructors come out
the same, and no further visit changes them. -/
theorem completeConstructors_any_order (hb : t.BodiesExtendNoBody) :
    ∃ t', (∀ order, t.CoversEnums order →
      order.foldlM (fun t id => t.completeConstructors id) t = .ok t') ∧
      ∀ id < t.size, t'.completeConstructors id = .ok t' := by
  refine ⟨t.overlay t.visited (List.range t.size), fun order horder => ?_, fun id hid => ?_⟩
  · have hrun :=
      foldlM_overlay (fun done id c => completeConstructors_overlay hb done) horder.present
    have hsame : t.overlay t.visited order = t.overlay t.visited (List.range t.size) := by
      apply overlay_congr
      intro id c hget
      by_cases hc : c.IsSourceEnum
      · exact .inl (iff_of_true (horder.enums id c hget hc)
          (List.mem_range.mpr (lt_size_of_get? hget)))
      · exact .inr (if_neg hc)
    rw [hrun, hsame]
  · obtain ⟨c, hget⟩ := exists_get?_of_lt hid
    have hagain : t.overlay t.visited (id :: List.range t.size) = t.overlay t.visited
      (List.range t.size) := by
      apply overlay_congr
      intro j d hd
      have hj : j ∈ List.range t.size := List.mem_range.mpr (lt_size_of_get? hd)
      exact .inl (by simp [hj])
    rw [completeConstructors_overlay hb _ hget, set_overlay hget, hagain]

/-- An enum without constructors, and the body of one of its constants. -/
def bodyTable : ClassTable := [
  { ClassDecl.empty "Color" .enum with superclass := some (.resolved 23 "Enum") },
  { ClassDecl.empty "Color$RED" .constantBody with
    superclass := some (.resolved 25 "Color") }].foldl .add .seeded

/-- The enum and the body are visited in both orders. -/
theorem completeConstructors_any_order_body :
    ∃ t', [25, 26].foldlM (fun t id => t.completeConstructors id) bodyTable = .ok t' ∧
      [26, 25].foldlM (fun t id => t.completeConstructors id) bodyTable = .ok t' ∧
      ∀ id < bodyTable.size, t'.completeConstructors id = .ok t' := by
  have hb : bodyTable.BodiesExtendNoBody := forall_get?_iff.mpr (by decide)
  obtain ⟨t', hall, hagain⟩ := completeConstructors_any_order hb
  have hfirst : bodyTable.CoversEnums [25, 26] := ⟨by decide, forall_get?_iff.mpr (by decide)⟩
  have hsecond : bodyTable.CoversEnums [26, 25] := ⟨by decide, forall_get?_iff.mpr (by decide)⟩
  exact ⟨t', hall _ hfirst, hall _ hsecond, hagain⟩

end ClassTable

end Metaobject
