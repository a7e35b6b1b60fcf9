import Mathlib.Data.List.Forall2
import Metaobject.Proofs.AssociationList
import Metaobject.Reflection.World

/-!
# Loading and unloading

What the definition and the unloading of a class change. A new class gets the next number, and its
parents are what their names mean to the loader, or the root. Unloading marks the class and takes
away what is kept on it.
-/

/-- Every member of the second list has a partner in the first. -/
theorem List.Forall₂.exists_of_mem_right {α β : Type} {R : α → β → Prop} {as : List α} {bs : List β}
    (h : List.Forall₂ R as bs) {b : β} (hb : b ∈ bs) : ∃ a ∈ as, R a b := by
  induction h with
  | nil => cases hb
  | @cons a b' as bs hab _ ih =>
    rcases List.mem_cons.mp hb with rfl | hb
    · exact ⟨a, List.mem_cons_self, hab⟩
    · obtain ⟨a', ha', hR⟩ := ih hb
      exact ⟨a', List.mem_cons_of_mem a ha', hR⟩

namespace Metaobject

namespace Loader

variable {l : Loader} {d : ClassDefinition} {no : ClassNo} {c : LoadedClass}

theorem mem_of_lookup {name : String} (h : l.lookup name = some c) : (name, c) ∈ l.registered :=
  List.mem_of_lookup h

/-- A parent that is required is found. -/
theorem lookup_of_require {name parent : String} (h : l.require name parent = .ok c) :
    l.lookup parent = some c := by
  unfold require at h
  split at h
  · cases h
    assumption
  · cases h

theorem lookup_of_mapM_require {name : String} {parents : List String} {cs : List LoadedClass}
    (h : parents.mapM (l.require name) = .ok cs) :
    List.Forall₂ (fun parent c => l.lookup parent = some c) parents cs := by
  induction parents generalizing cs with
  | nil =>
    cases h
    exact .nil
  | cons parent parents ih =>
    rw [List.mapM_cons] at h
    cases hparent : l.require name parent with
    | error e =>
      rw [hparent] at h
      cases h
    | ok p =>
      cases hrest : parents.mapM (l.require name) with
      | error e =>
        rw [hparent, hrest] at h
        cases h
      | ok ps =>
        rw [hparent, hrest] at h
        cases h
        exact .cons (lookup_of_require hparent) (ih hrest)

/-- The superclass that is named, or else the root, or none for an interface. -/
theorem superclassOf_eq_ok {p : Option LoadedClass} (h : l.superclassOf d = .ok p) :
    (∃ parent c, d.superclass = some parent ∧ l.lookup parent = some c ∧ p = some c) ∨
      d.superclass = none ∧ p = if d.modifiers.isInterface then none else some .root := by
  unfold superclassOf at h
  split at h
  · rename_i parent hsuperclass
    cases hparent : l.require d.name parent with
    | error e =>
      rw [hparent] at h
      cases h
    | ok q =>
      rw [hparent] at h
      cases h
      exact .inl ⟨parent, q, hsuperclass, lookup_of_require hparent, rfl⟩
  · rename_i hsuperclass
    cases h
    exact .inr ⟨hsuperclass, rfl⟩

/-- A class that a definition makes: the name was free, and the parents were found. -/
theorem classOf_eq_ok (h : l.classOf no d = .ok c) :
    l.lookup d.name = none ∧ l.superclassOf d = .ok c.superclass ∧
      List.Forall₂ (fun parent p => l.lookup parent = some p) d.interfaces c.interfaces ∧
      c.no = no ∧ c.name = d.name ∧ c.modifiers = d.modifiers := by
  unfold classOf at h
  cases hdup : (l.lookup d.name).isSome with
  | true =>
    rw [hdup] at h
    cases h
  | false =>
    rw [hdup] at h
    cases hparent : l.superclassOf d with
    | error e =>
      rw [hparent] at h
      cases h
    | ok p =>
      cases hinterfaces : d.interfaces.mapM (l.require d.name) with
      | error e =>
        rw [hparent, hinterfaces] at h
        cases h
      | ok ps =>
        rw [hparent, hinterfaces] at h
        cases h
        exact ⟨Option.isSome_eq_false_iff.mp hdup |> Option.isNone_iff_eq_none.mp, rfl,
          lookup_of_mapM_require hinterfaces, rfl, rfl, rfl⟩

/-- A new class has the given number, and its parents are registered, or the root. -/
theorem parents_of_classOf (h : l.classOf no d = .ok c) :
    c.no = no ∧ (∀ p ∈ c.superclass, p = .root ∨ ∃ name, (name, p) ∈ l.registered) ∧
      ∀ p ∈ c.interfaces, ∃ name, (name, p) ∈ l.registered := by
  obtain ⟨-, hsuperclass, hinterfaces, hno, -, -⟩ := classOf_eq_ok h
  refine ⟨hno, ?_, ?_⟩
  · intro p hp
    rw [Option.mem_def] at hp
    rcases superclassOf_eq_ok hsuperclass with ⟨parent, q, -, hlookup, hq⟩ | ⟨-, hq⟩
    · rw [hp] at hq
      cases hq
      exact .inr ⟨parent, mem_of_lookup hlookup⟩
    · rw [hp] at hq
      split at hq
      · cases hq
      · cases hq
        exact .inl rfl
  · intro p hp
    obtain ⟨parent, -, hlookup⟩ := List.Forall₂.exists_of_mem_right hinterfaces hp
    exact ⟨parent, mem_of_lookup hlookup⟩

/-- A new class without a superclass is an interface. -/
theorem isInterface_of_classOf (h : l.classOf no d = .ok c) (hnone : c.superclass = none) :
    c.isInterface = true := by
  obtain ⟨-, hsuperclass, -, -, -, hmodifiers⟩ := classOf_eq_ok h
  rw [hnone] at hsuperclass
  rcases superclassOf_eq_ok hsuperclass with ⟨_, _, -, -, hq⟩ | ⟨-, hq⟩
  · cases hq
  · unfold LoadedClass.isInterface
    rw [hmodifiers]
    split at hq
    · assumption
    · cases hq

end Loader

/-- A definition succeeds exactly if the loader finds all that the class needs. -/
theorem Loading.run_define (d : ClassDefinition) (s : LoadingState) :
    (Loading.define d).run.run s =
      match s.loader.classOf s.space.next d with
      | .error e => .ok (.error e, s)
      | .ok c => .ok (.ok c,
          ⟨{ s.space with next := s.space.next + 1 }, ⟨s.loader.registered ++ [(c.name, c)]⟩⟩) := by
  show StateT.run (ExceptT.run (match s.loader.classOf s.space.next d with
    | .error e => throw e
    | .ok c => do
      set (⟨{ s.space with next := s.space.next + 1 }, ⟨s.loader.registered ++ [(c.name, c)]⟩⟩ :
        LoadingState)
      return c : Loading LoadedClass)) s = _
  cases s.loader.classOf s.space.next d <;> rfl

/-- The root is never unloaded, and any other class if the loader has it. -/
theorem Loading.run_unload (name : String) (s : LoadingState) :
    (Loading.unload name).run s =
      if name = LoadedClass.root.name then (none, s)
      else (s.loader.lookup name).elim (none, s) fun c =>
        (some c, ⟨s.space.markUnloaded c.no, ⟨s.loader.registered.filter (·.1 != name)⟩⟩) := by
  show StateT.run (if name = LoadedClass.root.name then pure none else _ : StateM LoadingState _)
    _ = _
  split
  · rfl
  · cases s.loader.lookup name <;> rfl

namespace World

variable {α : Type}

theorem realm_unloaded {w : World α} {i : Nat} (h : i < w.caches.length) (no : ClassNo) :
    ({ w with space := w.space.markUnloaded no }.classUnloaded no).realm i =
      ⟨w.space.markUnloaded no,
        { w.cache i with infos := (w.cache i).infos.classUnloaded no }⟩ := by
  unfold realm cache classUnloaded
  rw [List.getElem?_map, List.getElem?_eq_getElem h]
  rfl

/-- A world loads a class as its loader does. -/
theorem load_define (w : World α) (l : Loader) (d : ClassDefinition) :
    w.load l (Loading.define d) =
      match l.classOf w.space.next d with
      | .error e => .ok (.error e, l, w)
      | .ok c => .ok (.ok c, ⟨l.registered ++ [(c.name, c)]⟩,
          { w with space := { w.space with next := w.space.next + 1 } }) := by
  unfold load
  rw [Loading.run_define]
  cases l.classOf w.space.next d <;> rfl

/-- A world unloads a class in its loader and in its caches. -/
theorem unload_eq (w : World α) (l : Loader) (name : String) :
    w.unload l name =
      if name = LoadedClass.root.name then (none, l, w)
      else (l.lookup name).elim (none, l, w) fun c =>
        (some c, ⟨l.registered.filter (·.1 != name)⟩,
          { w with space := w.space.markUnloaded c.no }.classUnloaded c.no) := by
  unfold unload
  rw [Loading.run_unload]
  by_cases hroot : name = LoadedClass.root.name
  · rw [if_pos hroot, if_pos hroot]
  · rw [if_neg hroot, if_neg hroot]
    cases l.lookup name <;> rfl

/-- Nothing is unloaded, or a class is, which the loader has under a name that is not the one of the
root. -/
theorem unload_cases (w : World α) (l : Loader) (name : String) :
    (w.unload l name = (none, l, w)) ∨
      ∃ c, (name, c) ∈ l.registered ∧ name ≠ LoadedClass.root.name ∧
        w.unload l name = (some c, ⟨l.registered.filter (·.1 != name)⟩,
          { w with space := w.space.markUnloaded c.no }.classUnloaded c.no) := by
  rw [unload_eq]
  split
  · exact .inl rfl
  · rename_i hname
    cases hlookup : l.lookup name with
    | none => exact .inl rfl
    | some c => exact .inr ⟨c, Loader.mem_of_lookup hlookup, hname, rfl⟩

end World

end Metaobject
