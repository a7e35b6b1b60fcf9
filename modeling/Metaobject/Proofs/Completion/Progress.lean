import Metaobject.Completion
import Metaobject.Proofs.ClassTable.WellFormed
import Metaobject.Proofs.Dispatch.Numbering

/-!
# What the passes leave on a class

Each pass over the classes leaves something behind by which it knows its own work: enum members,
checked annotations, a checked definition, constructors with hidden parameters. `ClassDecl.Advances`
relates a class to a later version of it in which nothing of this is lost. `ClassDecl.Prepares` is
what the passes before the constructors do: they also keep the constructors, up to annotations, and
write no marker.
-/

namespace Metaobject

/-! ## Evidence of finished passes -/

/-- Whether a constructor needs no hidden parameters, or has them. -/
def Constructor.isComplete (k : Constructor) : Bool :=
  k.hiddenParams || (k.body.head?.bind Stmt.expr?).any Expr.isSuperConstruct

/-- A constructor without its annotations and those of its parameters. -/
def Constructor.bare (k : Constructor) : Constructor :=
  { k with annotations := [], params := k.params.map fun p => { p with annotations := [] } }

@[simp]
theorem Constructor.isComplete_bare (k : Constructor) : k.bare.isComplete = k.isComplete := rfl

namespace ClassDecl

/-- The enum members are there: `$INIT` in a body without scope, the array of constants
otherwise. -/
def HasEnumMembers (c : ClassDecl) : Prop :=
  if c.isUnscopedBody then c.hasMethod Enumeration.initMethod 1
    else (c.field? Enumeration.valuesField).isSome

/-- All annotation usages have been checked. -/
def Checked (c : ClassDecl) : Prop := ∀ a ∈ c.annotationUses, a.validated = true

/-- The attribute defaults have been checked, if there can be any. -/
def DefinitionChecked (c : ClassDecl) : Prop := c.isAnnotationType → c.definitionChecked = true

/-- There are constructors, and all are complete. -/
def HasConstructors (c : ClassDecl) : Prop :=
  c.constructors ≠ [] ∧ ∀ k ∈ c.constructors, k.isComplete

/-- A class and a later version of it, in which no finished work is lost. -/
structure Advances (c c' : ClassDecl) : Prop where
  header : c.SameHeader c'
  members : c.HasEnumMembers → c'.HasEnumMembers
  checked : c.Checked → c'.Checked
  definition : c.DefinitionChecked → c'.DefinitionChecked
  constructors : c.HasConstructors → c'.HasConstructors

namespace Advances

variable {c c' c'' : ClassDecl}

theorem refl (c : ClassDecl) : c.Advances c :=
  ⟨.refl c, fun h => h, fun h => h, fun h => h, fun h => h⟩

theorem trans (h : c.Advances c') (h' : c'.Advances c'') : c.Advances c'' :=
  ⟨h.header.trans h'.header, h'.members ∘ h.members, h'.checked ∘ h.checked,
    h'.definition ∘ h.definition, h'.constructors ∘ h.constructors⟩

end Advances

/-- Members stay recognizable as long as no method and no field disappears. -/
theorem HasEnumMembers.mono {c c' : ClassDecl} (h : c.HasEnumMembers) (header : c.SameHeader c')
    (methods : ∀ name arity, c.hasMethod name arity → c'.hasMethod name arity)
    (fields : ∀ name, (c.field? name).isSome → (c'.field? name).isSome) : c'.HasEnumMembers := by
  rw [HasEnumMembers] at *
  rw [header.isUnscopedBody]
  split
  · rename_i hbody
    rw [if_pos hbody] at h
    exact methods _ _ h
  · rename_i hbody
    rw [if_neg hbody] at h
    exact fields _ h

/-- Constructors stay complete as long as only their annotations change. -/
theorem HasConstructors.congr {c c' : ClassDecl} (h : c.HasConstructors)
    (bare : c'.constructors.map Constructor.bare = c.constructors.map Constructor.bare) :
    c'.HasConstructors := by
  obtain ⟨hne, hall⟩ := h
  refine ⟨fun hnil => hne ?_, fun k hk => ?_⟩
  · rw [hnil] at bare
    exact List.map_eq_nil_iff.mp bare.symm
  · obtain ⟨k', hk', hbare⟩ := List.mem_map.mp (bare ▸ List.mem_map_of_mem hk)
    rw [← k.isComplete_bare, ← hbare, k'.isComplete_bare]
    exact hall k' hk'

end ClassDecl

/-! ## Markers that were there before -/

/-- Whether a node is no marked call. -/
def Visit.isUnmarked : Visit → Bool
  | .expr e => e.dispatch?.isNone
  | _ => true

/-- The marked calls among `vs` are all among `ws`. -/
def MarkedWithin (vs ws : List Visit) : Prop := ∀ v ∈ vs, v.isUnmarked ∨ v ∈ ws

namespace MarkedWithin

variable {us vs ws : List Visit}

theorem of_subset (h : vs ⊆ ws) : MarkedWithin vs ws := fun _ hv => .inr (h hv)

/-- Nodes without markers have no marked calls. -/
theorem of_all (h : vs.all Visit.isUnmarked) : MarkedWithin vs ws :=
  fun v hv => .inl (List.all_eq_true.mp h v hv)

theorem append (hu : MarkedWithin us ws) (hv : MarkedWithin vs ws) :
    MarkedWithin (us ++ vs) ws := by
  intro v hmem
  rcases List.mem_append.mp hmem with hmem | hmem
  · exact hu v hmem
  · exact hv v hmem

theorem trans (hu : MarkedWithin us vs) (hv : MarkedWithin vs ws) : MarkedWithin us ws := by
  intro v hmem
  rcases hu v hmem with hun | hmem
  · exact .inl hun
  · exact hv v hmem

end MarkedWithin

/-- What the passes before the constructors do to a class. -/
structure ClassDecl.Prepares (c c' : ClassDecl) : Prop where
  header : c.SameHeader c'
  members : c.HasEnumMembers → c'.HasEnumMembers
  definition : c.DefinitionChecked → c'.DefinitionChecked
  uses : ∀ a ∈ c'.annotationUses, a.validated = true ∨ a ∈ c.annotationUses
  bare : c'.constructors.map Constructor.bare = c.constructors.map Constructor.bare
  marks : MarkedWithin c'.nodes c.nodes

namespace ClassDecl.Prepares

variable {c c' c'' : ClassDecl}

theorem refl (c : ClassDecl) : c.Prepares c :=
  ⟨.refl c, fun h => h, fun h => h, fun _ => .inr, rfl, .of_subset fun _ h => h⟩

theorem trans (h : c.Prepares c') (h' : c'.Prepares c'') : c.Prepares c'' where
  header := h.header.trans h'.header
  members := h'.members ∘ h.members
  definition := h'.definition ∘ h.definition
  uses a ha := (h'.uses a ha).elim .inl (h.uses a)
  bare := h'.bare.trans h.bare
  marks := h'.marks.trans h.marks

/-- Preparing a class loses no finished work. -/
theorem advances (h : c.Prepares c') : c.Advances c' where
  header := h.header
  members := h.members
  checked hc a ha := (h.uses a ha).elim (fun h => h) (hc a)
  definition := h.definition
  constructors hc := hc.congr h.bare

end ClassDecl.Prepares

/-! ## Annotations and definitions -/

namespace ClassDecl

/-- Rewriting the usages of a class rewrites each of them. -/
theorem annotationUses_mapAnnotationUses (f : AnnotationUse → AnnotationUse) (c : ClassDecl) :
    (c.mapAnnotationUses f).annotationUses = c.annotationUses.map f := by
  simp [annotationUses, mapAnnotationUses, List.flatMap_map, List.map_flatMap]

/-- Rewriting that changes no usage changes nothing. -/
theorem mapAnnotationUses_id {f : AnnotationUse → AnnotationUse} {c : ClassDecl}
    (h : ∀ a ∈ c.annotationUses, f a = a) : c.mapAnnotationUses f = c := by
  have hmap {α : Type} {g : α → α} {as : List α} (hg : ∀ a ∈ as, g a = a) : as.map g = as :=
    (List.map_congr_left hg).trans (List.map_id' as)
  have hparams {ps : List Param} (hps : ∀ p ∈ ps, ∀ a ∈ p.annotations, f a = a) :
      (ps.map fun p => { p with annotations := p.annotations.map f }) = ps :=
    hmap fun p hp => by
      rw [hmap (hps p hp)]
      cases p
      rfl
  -- one fact for each place where a class keeps usages
  have hclass : c.annotations.map f = c.annotations :=
    hmap fun a ha => h a (by simp [annotationUses, ha])
  have hfields : (c.fields.map fun d => { d with annotations := d.annotations.map f }) =
    c.fields := by
    refine hmap fun d hd => ?_
    rw [hmap fun a ha => h a ?_]
    simp only [annotationUses, List.mem_append, List.mem_flatMap]
    exact .inl (.inl (.inr ⟨d, hd, ha⟩))
  have hmethods : (c.methods.map fun m => { m with
      annotations := m.annotations.map f
      params := m.params.map fun p => { p with annotations := p.annotations.map f } }) =
        c.methods := by
    refine hmap fun m hm => ?_
    rw [hmap fun a ha => h a ?_, hparams fun p hp a ha => h a ?_]
    all_goals simp only [annotationUses, List.mem_append, List.mem_flatMap]
    · exact .inl (.inr ⟨m, hm, .inr ⟨p, hp, ha⟩⟩)
    · exact .inl (.inr ⟨m, hm, .inl ha⟩)
  have hconstructors : (c.constructors.map fun k => { k with
      annotations := k.annotations.map f
      params := k.params.map fun p => { p with annotations := p.annotations.map f } }) =
        c.constructors := by
    refine hmap fun k hk => ?_
    rw [hmap fun a ha => h a ?_, hparams fun p hp a ha => h a ?_]
    all_goals simp only [annotationUses, List.mem_append, List.mem_flatMap]
    · exact .inr ⟨k, hk, .inr ⟨p, hp, ha⟩⟩
    · exact .inr ⟨k, hk, .inl ha⟩
  rw [mapAnnotationUses, hclass, hfields, hmethods, hconstructors]

/-- Checking the annotations of a class leaves them checked. -/
theorem mapAnnotationUses_prepares {f : AnnotationUse → AnnotationUse}
    (hf : ∀ a, (f a).validated = true) (c : ClassDecl) :
    c.Prepares (c.mapAnnotationUses f) ∧ (c.mapAnnotationUses f).Checked := by
  have hchecked : (c.mapAnnotationUses f).Checked := by
    intro a ha
    rw [annotationUses_mapAnnotationUses] at ha
    obtain ⟨b, -, rfl⟩ := List.mem_map.mp ha
    exact hf b
  have hheader : c.SameHeader (c.mapAnnotationUses f) := ⟨rfl, rfl, rfl, rfl, rfl, rfl, rfl, rfl⟩
  refine ⟨⟨hheader, ?_, fun h => h, fun a ha => .inl (hchecked a ha), ?_, ?_⟩, hchecked⟩
  · intro hmembers
    refine hmembers.mono hheader ?_ ?_
    · intro name arity h
      simpa [hasMethod, method?, mapAnnotationUses, Method.arity] using h
    · intro name h
      simpa [field?, mapAnnotationUses] using h
  · simp [mapAnnotationUses, Constructor.bare]
  · refine .of_subset fun v hv => ?_
    simpa [nodes, mapAnnotationUses, List.flatMap_map, Field.nodes, Method.nodes, Constructor.nodes]
      using hv

/-- Marking the defaults as checked changes nothing else. -/
theorem definitionChecked_prepares (c : ClassDecl) :
    c.Prepares { c with definitionChecked := true } ∧
      DefinitionChecked { c with definitionChecked := true } :=
  ⟨⟨⟨rfl, rfl, rfl, rfl, rfl, rfl, rfl, rfl⟩, fun h => h, fun _ _ => rfl, fun _ => .inr, rfl,
    .of_subset fun _ h => h⟩, fun _ => rfl⟩

end ClassDecl

/-- A settled usage counts as checked. -/
theorem AnnotationUse.validated_normalized (t : ClassTable) (inline : Bool) (a : AnnotationUse) :
    (a.normalized t inline).validated = true := by
  obtain ⟨type, members, validated, span⟩ := a
  rw [AnnotationUse.normalized]
  split
  · assumption
  · split <;> rfl

/-- A usage that has been checked is left alone. -/
theorem AnnotationUse.normalized_of_validated {t : ClassTable} {inline : Bool} {a : AnnotationUse}
    (h : a.validated = true) : a.normalized t inline = a := by
  obtain ⟨type, members, validated, span⟩ := a
  rw [AnnotationUse.normalized, if_pos h]

/-! ## Markers -/

/-- Being complete does not depend on markers. -/
@[simp]
theorem Constructor.isComplete_unmarked (k : Constructor) :
    k.unmarked.isComplete = k.isComplete := by
  have hhead : ((Stmt.unmarkedAll k.body).head?.bind Stmt.expr?).any Expr.isSuperConstruct
      = (k.body.head?.bind Stmt.expr?).any Expr.isSuperConstruct := by
    -- whether the first statement calls the superclass shows in its constructor alone
    rcases k.body with _ | ⟨s, ss⟩
    · rfl
    · cases s with
      | expr e =>
        cases e with
        | construct kind args d span => cases kind <;> rfl
        | _ => rfl
      | declare n ty e sp => cases e <;> rfl
      | ret e sp => cases e <;> rfl
      | cond c t e sp => cases e <;> rfl
      | _ => rfl
  exact congrArg (k.hiddenParams || ·) hhead

namespace ClassDecl

theorem hasEnumMembers_unmarked (c : ClassDecl) : c.unmarked.HasEnumMembers ↔ c.HasEnumMembers := by
  have hmethod : c.unmarked.hasMethod Enumeration.initMethod 1 =
    c.hasMethod Enumeration.initMethod 1 := by
    simp [hasMethod, method?, unmarked, Method.unmarked, Method.arity, List.find?_map,
      Function.comp_def]
  have hfield :
    (c.unmarked.field? Enumeration.valuesField).isSome =
    (c.field? Enumeration.valuesField).isSome := by
    simp [field?, unmarked, Field.unmarked, List.find?_map, Function.comp_def]
  rw [HasEnumMembers, HasEnumMembers, hmethod, hfield]
  rfl

theorem annotationUses_unmarked (c : ClassDecl) : c.unmarked.annotationUses = c.annotationUses := by
  simp [annotationUses, unmarked, List.flatMap_map, Field.unmarked, Method.unmarked,
    Constructor.unmarked]

theorem hasConstructors_unmarked (c : ClassDecl) :
    c.unmarked.HasConstructors ↔ c.HasConstructors := by
  simp [HasConstructors, unmarked]

/-- A class that differs in markers only has the same work done. -/
theorem advances_of_unmarked {c c' : ClassDecl} (h : c'.unmarked = c.unmarked) : c.Advances c' where
  header :=
    have hfield {α : Type} (f : ClassDecl → α) : f c'.unmarked = f c.unmarked := congrArg f h
    ⟨hfield (·.id), hfield (·.name), hfield (·.kind), hfield (·.superclass), hfield (·.interfaces),
      hfield (·.hasScope), hfield (·.outer), hfield (·.builtin)⟩
  members hc := by rwa [← hasEnumMembers_unmarked, h, hasEnumMembers_unmarked]
  checked hc := by rwa [Checked, ← annotationUses_unmarked, h, annotationUses_unmarked]
  definition hc := by
    have hkind : c'.unmarked.DefinitionChecked ↔ c.unmarked.DefinitionChecked := by rw [h]
    exact hkind.mpr hc
  constructors hc := by rwa [← hasConstructors_unmarked, h, hasConstructors_unmarked]

end ClassDecl

end Metaobject
