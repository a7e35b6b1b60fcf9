import Metaobject.ClassTable.Builtin
import Metaobject.Proofs.ClassTable.Derivation
import Metaobject.Proofs.Reflection.Ancestry

/-!
# Loading the classes of a table

A class table relates classes by number; a loader finds the parents of a class by name, loads
built-in parents on the way, and puts the root above every class that names no superclass. If names
tell the classes of the table apart, both come to the same subtypes. The argument is an invariant of
the loader: every class it has is the root, or has the parents that the table declares for the class
of its name.

* `Loading.Keeps`: what a computation that loads classes keeps, whether it succeeds or not.
* `LoadingState.Mirrors`: the invariant; `defineDeclared_keeps` carries it through every load.
* `Loading.assignable_iff_derived`: subtypes in the table and in the loader, after any loads.
* `Loading.root_derived_not_assignable`: what is lost where the table puts the root below a class.
-/

namespace Metaobject

/-! ## Computations that load classes -/

namespace Loading

variable {α β : Type} {inv : LoadingState → Prop}

/-- A computation that has ended hands its result on. -/
theorem run_bind_of_ok {x : Loading α} {s s' : LoadingState} {a : α}
    (h : x.run.run s = .ok (.ok a, s')) (f : α → Loading β) :
    (x >>= f).run.run s = (f a).run.run s' := by
  show (x.run.run s >>= _) = _
  rw [h]
  rfl

/-- A computation that has failed ends all of it. -/
theorem run_bind_of_error {x : Loading α} {s s' : LoadingState} {e : ReflectionError}
    (h : x.run.run s = .ok (.error e, s')) (f : α → Loading β) :
    (x >>= f).run.run s = .ok (.error e, s') := by
  show (x.run.run s >>= _) = _
  rw [h]
  rfl

/-- The computation keeps the invariant, also when it fails; and what it finds is as stated. -/
def Keeps (inv : LoadingState → Prop) (x : Loading α) (post : α → Prop) : Prop :=
  ∀ s, inv s → ∀ found t, x.run.run s = .ok (found, t) → inv t ∧ ∀ a, found = .ok a → post a

theorem Keeps.pure {a : α} {post : α → Prop} (h : post a) : Keeps inv (Pure.pure a) post := by
  intro s hs found t hrun
  cases hrun
  refine ⟨hs, ?_⟩
  rintro _ ⟨⟩
  exact h

theorem Keeps.throw (e : ReflectionError) (post : α → Prop) :
    Keeps inv (MonadExcept.throw e) post := by
  intro s hs found t hrun
  cases hrun
  exact ⟨hs, fun a ha => nomatch ha⟩

theorem Keeps.lift (x : Except Fault α) : Keeps inv (liftM x) fun _ => True := by
  intro s hs found t hrun
  cases x with
  | error f => cases hrun
  | ok a =>
    cases hrun
    exact ⟨hs, fun _ _ => trivial⟩

theorem Keeps.get : Keeps inv (MonadState.get : Loading LoadingState) fun _ => True := by
  intro s hs found t hrun
  cases hrun
  exact ⟨hs, fun _ _ => trivial⟩

/-- What both parts keep, the whole keeps. -/
theorem Keeps.bind {x : Loading α} {f : α → Loading β} {mid : α → Prop} {post : β → Prop}
    (hx : Keeps inv x mid) (hf : ∀ a, mid a → Keeps inv (f a) post) : Keeps inv (x >>= f) post := by
  intro s hs found t hrun
  cases hfirst : x.run.run s with
  | error e =>
    have hfault : (x >>= f).run.run s = .error e := by
      show (x.run.run s >>= _) = _
      rw [hfirst]
      rfl
    rw [hfault] at hrun
    cases hrun
  | ok r =>
    obtain ⟨first, mid⟩ := r
    obtain ⟨hmid, hpost⟩ := hx s hs first mid hfirst
    cases first with
    | error e =>
      rw [run_bind_of_error hfirst] at hrun
      cases hrun
      exact ⟨hmid, fun b hb => nomatch hb⟩
    | ok a =>
      rw [run_bind_of_ok hfirst] at hrun
      exact hf a (hpost a rfl) mid hmid found t hrun

/-- A pass keeps what it keeps at each item. -/
theorem Keeps.forM {items : List α} {f : α → Loading PUnit} (good : α → Prop)
    (h : ∀ item, Keeps inv (f item) fun _ => good item) :
    Keeps inv (items.forM f) fun _ => ∀ item ∈ items, good item := by
  induction items with
  | nil =>
    apply Keeps.pure
    intro item hitem
    cases hitem
  | cons item items ih =>
    show Keeps inv (f item >>= fun _ => items.forM f) _
    refine .bind (h item) ?_
    intro _ hitem s hs found t hrun
    obtain ⟨ht, hrest⟩ := ih s hs found t hrun
    exact ⟨ht, fun a ha => List.forall_mem_cons.mpr ⟨hitem, hrest a ha⟩⟩

end Loading

/-! ## Tables whose classes go by name -/

/-- Names tell the classes of a table apart, and references go by them. As in every table that
starts with the built-in classes, the root class has its number and its name, and nothing above
it. -/
structure ClassTable.Named (t : ClassTable) : Prop where
  distinct : (t.classes.map (·.name)).Nodup
  reference : ∀ c ∈ t.classes, ∀ parent ∈ c.superclass.toList ++ c.interfaces,
    ∀ id ∈ parent.classId?, (t.get? id).map (·.name) = some parent.text
  object : (t.get? Builtin.object).map (fun c => (c.name, c.parentIds)) = some
    (LoadedClass.root.name, [])

namespace ClassTable.Named

variable {t : ClassTable} {a b : ClassId} {c d : ClassDecl}

/-- Classes of one name are one class. -/
theorem id_eq (h : t.Named) (hc : t.get? a = some c) (hd : t.get? b = some d)
    (hname : c.name = d.name) : a = b := by
  have hlt : a < (t.classes.map (·.name)).length := by
    rw [List.length_map]
    exact (List.getElem?_eq_some_iff.mp hc).1
  refine (List.getElem?_inj hlt h.distinct).mp ?_
  rw [List.getElem?_map, List.getElem?_map]
  exact (congrArg (Option.map _) hc).trans
    ((congrArg some hname).trans (congrArg (Option.map _) hd).symm)

/-- The class `Object` has the name of the root and no parents. -/
theorem object_eq (h : t.Named) :
    ∃ c, t.get? Builtin.object = some c ∧ c.name = LoadedClass.root.name ∧
    c.parentIds = [] := by
  obtain ⟨c, hc, heq⟩ := Option.map_eq_some_iff.mp h.object
  exact ⟨c, hc, congrArg Prod.fst heq, congrArg Prod.snd heq⟩

/-- The class of a resolved parent has the name that the reference is written with. -/
theorem parent_name (h : t.Named) (hc : t.get? a = some c) {parent : TypeRef}
    (hparent : parent ∈ c.superclass.toList ++ c.interfaces) (hid : parent.classId? = some b) :
    ∃ d, t.get? b = some d ∧ d.name = parent.text :=
  Option.map_eq_some_iff.mp (h.reference c (List.mem_of_getElem? hc) parent hparent b hid)

end ClassTable.Named

/-! ## What the loader has of a table -/

namespace LoadingState

/-- A class of the table is loaded, as the given class. -/
def Holds (s : LoadingState) (t : ClassTable) (id : ClassId) (k : LoadedClass) : Prop :=
  ∃ c, t.get? id = some c ∧ s.loader.lookup c.name = some k

/-- A loaded class has the parents of a declaration, and otherwise only the root. -/
structure SameParents (s : LoadingState) (t : ClassTable) (c : ClassDecl)
    (k : LoadedClass) : Prop where
  loaded : ∀ id ∈ c.parentIds, ∃ p ∈ k.parents, s.Holds t id p
  declared : ∀ p ∈ k.parents, p = .root ∨ ∃ id ∈ c.parentIds, s.Holds t id p

/-- What is loaded are classes of the table, below the root. -/
structure Mirrors (s : LoadingState) (t : ClassTable) : Prop where
  root : s.loader.lookup LoadedClass.root.name = some .root
  parents : ∀ name k, s.loader.lookup name = some k → name = LoadedClass.root.name ∨
    ∃ id c, t.get? id = some c ∧ c.name = name ∧ s.SameParents t c k
  unique : ∀ name k name' k', s.loader.lookup name = some k → s.loader.lookup name' = some k' →
    k.no = k'.no →
    name = name'
  bounded : ∀ name k, s.loader.lookup name = some k → k.no < s.space.next

variable {s : LoadingState} {t : ClassTable} {a b : ClassId} {k l : LoadedClass}

/-- A loader that has loaded nothing mirrors any table. -/
theorem fresh_mirrors (t : ClassTable) {space : ClassSpace} (h : 0 < space.next) :
    Mirrors ⟨space, {}⟩ t := by
  have hlookup : ∀ name k, Loader.lookup {} name = some k → name = LoadedClass.root.name ∧
    k = .root := by
    intro name k hk
    have hmem := Loader.mem_of_lookup hk
    rw [List.mem_singleton] at hmem
    exact ⟨congrArg Prod.fst hmem, congrArg Prod.snd hmem⟩
  refine ⟨by simp [Loader.lookup], ?_, ?_, ?_⟩
  · intro name k hk
    exact .inl (hlookup name k hk).1
  · intro name k name' k' hk hk' _
    rw [(hlookup name k hk).1, (hlookup name' k' hk').1]
  · intro name k hk
    rw [(hlookup name k hk).2]
    exact h

/-! ### A new class -/

/-- The state with one more class. -/
def enter (s : LoadingState) (k : LoadedClass) : LoadingState :=
  ⟨{ s.space with next := s.space.next + 1 }, ⟨s.loader.registered ++ [(k.name, k)]⟩⟩

/-- A new class is found under its name, unless the name is taken. -/
theorem lookup_enter (s : LoadingState) (k : LoadedClass) (name : String) :
    (s.enter k).loader.lookup name =
      (s.loader.lookup name).or (if name = k.name then some k else none) := by
  simp only [enter, Loader.lookup, List.lookup_append, List.lookup_cons, List.lookup_nil]
  by_cases hname : name = k.name
  · simp [hname]
  · rw [beq_eq_false_iff_ne.mpr hname, if_neg hname]

theorem lookup_enter_of_some {name : String} (h : s.loader.lookup name = some l) (k : LoadedClass) :
    (s.enter k).loader.lookup name = some l := by
  rw [lookup_enter, h, Option.some_or]

/-- What is found after a class has been entered was there before, or is this class. -/
theorem lookup_of_enter {name : String} (h : (s.enter k).loader.lookup name = some l) :
    s.loader.lookup name = some l ∨ name = k.name ∧ l = k := by
  rw [lookup_enter] at h
  cases hold : s.loader.lookup name with
  | some l' =>
    rw [hold, Option.some_or] at h
    exact .inl h
  | none =>
    rw [hold, Option.none_or] at h
    split at h
    · rename_i hname
      exact .inr ⟨hname, (Option.some.inj h).symm⟩
    · cases h

/-- A class that is held stays held. -/
theorem Holds.enter (h : s.Holds t a l) (k : LoadedClass) : (s.enter k).Holds t a l := by
  obtain ⟨c, hc, hlookup⟩ := h
  exact ⟨c, hc, lookup_enter_of_some hlookup k⟩

theorem SameParents.enter {c : ClassDecl} (h : s.SameParents t c l) (k : LoadedClass) :
    (s.enter k).SameParents t c l := by
  constructor
  · intro id hid
    obtain ⟨p, hp, hholds⟩ := h.loaded id hid
    exact ⟨p, hp, hholds.enter k⟩
  · intro p hp
    rcases h.declared p hp with hroot | ⟨id, hid, hholds⟩
    · exact .inl hroot
    · exact .inr ⟨id, hid, hholds.enter k⟩

/-- The loader finds a parent under its name, which is the name of the class that the reference
means. -/
theorem holds_of_lookup (ht : t.Named) {c : ClassDecl} (hc : t.get? a = some c) {parent : TypeRef}
    (hparent : parent ∈ c.superclass.toList ++ c.interfaces) (hid : parent.classId? = some b)
    (hlookup : s.loader.lookup parent.text = some k) : s.Holds t b k := by
  obtain ⟨d, hd, hname⟩ := ht.parent_name hc hparent hid
  exact ⟨d, hd, by rw [hname, hlookup]⟩

/-- A class that is defined from a declaration with resolved parents has these parents. -/
theorem sameParents_of_classOf (ht : t.Named) {c : ClassDecl} (hc : t.get? a = some c)
    (hresolved : ∀ parent ∈ c.superclass.toList ++ c.interfaces, parent.classId?.isSome)
    (hk : s.loader.classOf s.space.next c.definition = .ok k) : s.SameParents t c k := by
  obtain ⟨-, hsuperclass, hinterfaces, -, -, -⟩ := Loader.classOf_eq_ok hk
  have hlinks : List.Forall₂ (fun (parent : TypeRef) p => s.loader.lookup parent.text = some p)
      c.interfaces k.interfaces := List.forall₂_map_left_iff.mp hinterfaces
  have hsuper := Loader.superclassOf_eq_ok hsuperclass
  -- from the declared parents to the linked ones and back; the superclass may be left out, and then
  -- the link goes to the root, which no declaration names
  constructor
  · intro id hid
    obtain ⟨parent, hparent, hparentId⟩ := ClassDecl.mem_parentIds.mp hid
    have hfound : ∃ p ∈ k.parents, s.loader.lookup parent.text = some p := by
      rcases List.mem_append.mp hparent with hparent | hparent
      · rw [Option.mem_toList] at hparent
        rcases hsuper with ⟨name, p, hname, hlookup, hp⟩ | ⟨hnone, -⟩
        · have htext : some parent.text = some name := by
            rw [← hname, ClassDecl.definition, Option.mem_def.mp hparent, Option.map_some]
          cases htext
          exact ⟨p, LoadedClass.mem_parents.mpr (.inl hp), hlookup⟩
        · rw [ClassDecl.definition, Option.mem_def.mp hparent] at hnone
          cases hnone
      · obtain ⟨p, hp, hlookup⟩ := hlinks.flip.exists_of_mem_right hparent
        exact ⟨p, LoadedClass.mem_parents.mpr (.inr hp), hlookup⟩
    obtain ⟨p, hp, hlookup⟩ := hfound
    exact ⟨p, hp, holds_of_lookup ht hc hparent hparentId hlookup⟩
  · intro p hp
    have hfound : p = .root ∨ ∃ parent ∈ c.superclass.toList ++ c.interfaces,
        s.loader.lookup parent.text = some p := by
      rcases LoadedClass.mem_parents.mp hp with hp | hp
      · rcases hsuper with ⟨name, q, hname, hlookup, hq⟩ | ⟨-, hq⟩
        · obtain ⟨parent, hparent, rfl⟩ := Option.map_eq_some_iff.mp hname
          have hpq : q = p := Option.some.inj (hq.symm.trans hp)
          refine .inr ⟨parent, List.mem_append_left _ (Option.mem_toList.mpr hparent), ?_⟩
          rw [hlookup, hpq]
        · rw [Option.mem_def.mp hp] at hq
          split at hq
          · cases hq
          · exact .inl (Option.some.inj hq)
      · obtain ⟨parent, hparent, hlookup⟩ := hlinks.exists_of_mem_right hp
        exact .inr ⟨parent, List.mem_append_right _ hparent, hlookup⟩
    rcases hfound with hroot | ⟨parent, hparent, hlookup⟩
    · exact .inl hroot
    · obtain ⟨id, hid⟩ := Option.isSome_iff_exists.mp (hresolved parent hparent)
      exact .inr ⟨id, ClassDecl.mem_parentIds.mpr ⟨parent, hparent, hid⟩,
        holds_of_lookup ht hc hparent hid hlookup⟩

/-- Entering a class with the declared parents keeps the mirror. -/
theorem Mirrors.enter (hs : s.Mirrors t) {c : ClassDecl} (hc : t.get? a = some c)
    (hname : k.name = c.name) (hno : k.no = s.space.next) (hparents : s.SameParents t c k) :
    (s.enter k).Mirrors t := by
  refine ⟨lookup_enter_of_some hs.root k, ?_, ?_, ?_⟩
  · intro name l hl
    rcases lookup_of_enter hl with hl | ⟨rfl, rfl⟩
    · rcases hs.parents name l hl with hroot | ⟨id, d, hd, hdname, hsame⟩
      · exact .inl hroot
      · exact .inr ⟨id, d, hd, hdname, hsame.enter k⟩
    · exact .inr ⟨a, c, hc, hname.symm, hparents.enter l⟩
  · intro name l name' l' hl hl' heq
    -- the number of the new class is above all others
    have hnew : ∀ name l, s.loader.lookup name = some l → l.no ≠ k.no := by
      intro name l hl hlk
      have hlt := hs.bounded name l hl
      rw [hlk, hno] at hlt
      exact Nat.lt_irrefl _ hlt
    rcases lookup_of_enter hl with hl | ⟨hn, hk⟩
    · rcases lookup_of_enter hl' with hl' | ⟨-, hk'⟩
      · exact hs.unique name l name' l' hl hl' heq
      · exact absurd (heq.trans (congrArg _ hk')) (hnew name l hl)
    · rcases lookup_of_enter hl' with hl' | ⟨hn', -⟩
      · exact absurd (heq.symm.trans (congrArg _ hk)) (hnew name' l' hl')
      · rw [hn, hn']
  · intro name l hl
    show l.no < s.space.next + 1
    rcases lookup_of_enter hl with hl | ⟨-, rfl⟩
    · exact Nat.lt_succ_of_lt (hs.bounded name l hl)
    · rw [hno]
      exact Nat.lt_succ_self _

end LoadingState

namespace Loading

variable {t : ClassTable}

/-! ## Loads keep the invariant -/

/-- Defining a declared class keeps the mirror. -/
theorem define_keeps (ht : t.Named) {id : ClassId} {c : ClassDecl} (hc : t.get? id = some c)
    (hresolved : ∀ parent ∈ c.superclass.toList ++ c.interfaces, parent.classId?.isSome) :
    Keeps (·.Mirrors t) (define c.definition) fun _ => True := by
  intro s hs found s' hrun
  rw [run_define] at hrun
  cases hclass : s.loader.classOf s.space.next c.definition with
  | error e =>
    rw [hclass] at hrun
    cases hrun
    exact ⟨hs, fun _ _ => trivial⟩
  | ok k =>
    rw [hclass] at hrun
    cases hrun
    obtain ⟨-, -, -, hno, hname, -⟩ := Loader.classOf_eq_ok hclass
    have hparents := LoadingState.sameParents_of_classOf ht hc hresolved hclass
    exact ⟨hs.enter hc hname hno hparents, fun _ _ => trivial⟩

theorem defineDeclared_keeps (ht : t.Named) (fuel : Nat) (id : ClassId) :
    Keeps (·.Mirrors t) (defineDeclared t fuel id) fun _ => True := by
  -- along the program: all steps before the last one only read the loader or define a parent, which
  -- is the induction hypothesis; the last one enters the class
  induction fuel generalizing id with
  | zero => exact .lift _
  | succ fuel ih =>
    unfold defineDeclared
    cases hc : t.get? id with
    | none => exact .throw _ _
    | some c =>
      refine .bind .get ?_
      intro s _
      cases s.loader.lookup c.name with
      | some existing =>
        dsimp only
        split
        · exact .pure trivial
        · exact .throw _ _
      | none =>
        dsimp only
        split
        · exact .throw _ _
        refine .bind (.forM (fun parent => parent.classId?.isSome) ?_) ?_
        · intro parent
          cases hid : parent.classId? with
          | none => exact .throw _ _
          | some parentId =>
            refine .bind (.lift _) ?_
            intro p _
            refine .bind .get ?_
            intro now _
            split
            · refine .bind (ih parentId) ?_
              intro _ _
              exact .pure rfl
            · exact .pure rfl
        · intro _ hresolved
          exact define_keeps ht hc hresolved

/-- Define classes of the table one after another. Where one of them fails, the next ones follow all
the same. -/
def declareAll (t : ClassTable) : List ClassId → LoadingState → Except Fault LoadingState
  | [], s => .ok s
  | id :: ids, s => do
    let r ← (declared t id).run.run s
    declareAll t ids r.2

theorem declareAll_mirrors (ht : t.Named) {ids : List ClassId} {s s' : LoadingState}
    (hs : s.Mirrors t) (h : declareAll t ids s = .ok s') : s'.Mirrors t := by
  induction ids generalizing s with
  | nil =>
    cases h
    exact hs
  | cons id ids ih =>
    unfold declareAll at h
    cases hrun : (declared t id).run.run s with
    | error f =>
      rw [hrun] at h
      cases h
    | ok r =>
      rw [hrun] at h
      have hr : r.2.Mirrors t := (defineDeclared_keeps ht _ id s hs r.1 r.2 hrun).1
      exact ih hr h

end Loading

/-! ## Subtypes of the table and of the loader -/

namespace LoadingState.Mirrors

variable {s : LoadingState} {t : ClassTable} {a b : ClassId} {k l : LoadedClass}

/-- The class with the number zero is the root, and the table has it as the root class. -/
theorem eq_object (ht : t.Named) (hs : s.Mirrors t) (hb : s.Holds t b l) (hno : l.no = 0) :
    b = Builtin.object := by
  obtain ⟨d, hd, hlookup⟩ := hb
  obtain ⟨c, hc, hname, -⟩ := ht.object_eq
  have hsame : d.name = LoadedClass.root.name := hs.unique _ _ _ _ hlookup hs.root hno
  exact ht.id_eq hd hc (hsame.trans hname.symm)

/-- A class that is held is the root or has the declared parents. -/
theorem object_or_sameParents (ht : t.Named) (hs : s.Mirrors t) (ha : s.Holds t a k) :
    a = Builtin.object ∧ k = .root ∨ ∃ c, t.get? a = some c ∧ s.SameParents t c k := by
  obtain ⟨c, hc, hlookup⟩ := ha
  rcases hs.parents c.name k hlookup with hroot | ⟨id, d, hd, hname, hparents⟩
  · rw [hroot, hs.root] at hlookup
    obtain rfl : LoadedClass.root = k := Option.some.inj hlookup
    obtain ⟨o, ho, honame, -⟩ := ht.object_eq
    exact .inl ⟨ht.id_eq hc ho (hroot.trans honame.symm), rfl⟩
  · obtain rfl : id = a := ht.id_eq hd hc hname
    exact .inr ⟨d, hd, hparents⟩

/-- What a loaded class derives from, its declaration derives from, apart from the root. -/
theorem derives_of_derivesFrom (ht : t.Named) (hs : s.Mirrors t) (hb : s.Holds t b l)
    (k : LoadedClass) :
    ∀ a, s.Holds t a k → k.derivesFrom l.no = true → t.Derives a b ∨ b = Builtin.object := by
  induction k using LoadedClass.parent_induction with
  | step k ih =>
    intro a ha hderives
    rcases LoadedClass.derivesFrom_iff.mp hderives with hzero | hself | ⟨p, hp, hparent⟩
    · exact .inr (hs.eq_object ht hb hzero)
    · obtain ⟨c, hc, hlookup⟩ := ha
      obtain ⟨d, hd, hlookup'⟩ := hb
      have hname : d.name = c.name := hs.unique _ _ _ _ hlookup' hlookup hself
      rw [ht.id_eq hd hc hname]
      exact .inl .refl
    · rcases hs.object_or_sameParents ht ha with ⟨-, rfl⟩ | ⟨c, hc, hparents⟩
      · cases hp
      · rcases hparents.declared p hp with rfl | ⟨id, hid, hholds⟩
        · -- above the root there is nothing but the root
          rcases LoadedClass.derivesFrom_iff.mp hparent with hzero | hzero | ⟨q, hq, -⟩
          · exact .inr (hs.eq_object ht hb hzero)
          · exact .inr (hs.eq_object ht hb hzero)
          · cases hq
        · refine (ih p hp id hholds hparent).imp_left (.head ?_)
          rwa [ClassTable.parentsOf_of_get? hc]

/-- What a declaration derives from, the loaded class derives from. -/
theorem derivesFrom_of_derives (ht : t.Named) (hs : s.Mirrors t) (hb : s.Holds t b l)
    (hderives : t.Derives a b) (ha : s.Holds t a k) : k.derivesFrom l.no = true := by
  induction hderives using Relation.ReflTransGen.head_induction_on generalizing k with
  | refl =>
    obtain ⟨c, hc, hlookup⟩ := ha
    obtain ⟨d, hd, hlookup'⟩ := hb
    obtain rfl : c = d := Option.some.inj (hc.symm.trans hd)
    obtain rfl : k = l := Option.some.inj (hlookup.symm.trans hlookup')
    exact LoadedClass.derivesFrom_self k
  | @head a parent hlink _ ih =>
    rcases hs.object_or_sameParents ht ha with ⟨rfl, -⟩ | ⟨c, hc, hparents⟩
    · obtain ⟨o, ho, -, hnone⟩ := ht.object_eq
      rw [ClassTable.parentsOf_of_get? ho, hnone] at hlink
      cases hlink
    · rw [ClassTable.parentsOf_of_get? hc] at hlink
      obtain ⟨p, hp, hholds⟩ := hparents.loaded parent hlink
      exact LoadedClass.derivesFrom_iff.mpr (.inr (.inr ⟨p, hp, ih hholds⟩))

/-- Every loaded class derives from the root. -/
theorem derivesFrom_object (ht : t.Named) (hs : s.Mirrors t) (hb : s.Holds t Builtin.object l)
    (k : LoadedClass) : k.derivesFrom l.no = true := by
  obtain ⟨d, hd, hlookup⟩ := hb
  obtain ⟨o, ho, hname, -⟩ := ht.object_eq
  obtain rfl : o = d := Option.some.inj (ho.symm.trans hd)
  rw [hname, hs.root] at hlookup
  obtain rfl : LoadedClass.root = l := Option.some.inj hlookup
  exact LoadedClass.derivesFrom_root k

end LoadingState.Mirrors

namespace Loading

/-- A loader that was filled from a table agrees with the table on subtypes, whatever loads were
tried and in whatever order: of two loaded classes, values of the first can be assigned to the
second exactly if the table derives the first from the second, or the second is the root. -/
theorem assignable_iff_derived (t : ClassTable) (ht : t.Named) (space : ClassSpace)
    (hspace : 0 < space.next) (ids : List ClassId) (s : LoadingState)
    (hrun : declareAll t ids ⟨space, {}⟩ = .ok s) (a b : ClassId) (k l : LoadedClass)
    (ha : s.Holds t a k) (hb : s.Holds t b l) :
    l.isAssignableFrom k = true ↔ t.isDerivedFrom a b = true ∨ b = Builtin.object := by
  have hs : s.Mirrors t := declareAll_mirrors ht (LoadingState.fresh_mirrors t hspace) hrun
  rw [ClassTable.isDerivedFrom_iff]
  constructor
  · exact hs.derives_of_derivesFrom ht hb k a ha
  · rintro (hderives | rfl)
    · exact hs.derivesFrom_of_derives ht hb hderives ha
    · exact hs.derivesFrom_object ht hb k

/-- A class with a source superclass, a source interface and a built-in one, and a class whose
superclass is unbound. -/
def leafTable : ClassTable := [
  ClassDecl.empty "Shape" .interface,
  { ClassDecl.empty "Base" .ordinary with superclass := some (.resolved 15 "Integer") },
  { ClassDecl.empty "Leaf" .ordinary with
    superclass := some (.resolved 26 "Base")
    interfaces := [.resolved 25 "Shape", .resolved 5 "Map"] },
  { ClassDecl.empty "Odd" .ordinary with
    superclass := some (.unresolved "Missing") }].foldl .add .seeded

/-- Evaluating some loads shows that they end without a fault, and what two names stand for. -/
theorem exists_loaded {x : Except Fault LoadingState} {name name' : String}
    {holds : LoadedClass → LoadedClass → Bool}
    (h : x.toOption.any (fun s => (s.loader.lookup name).any fun k =>
      (s.loader.lookup name').any (holds k)) = true) :
    ∃ s k l, x = .ok s ∧ s.loader.lookup name = some k ∧ s.loader.lookup name' = some l ∧
      holds k l = true := by
  obtain ⟨s, hs, hname⟩ := (Option.any_eq_true ..).mp h
  obtain ⟨k, hk, hname'⟩ := (Option.any_eq_true ..).mp hname
  obtain ⟨l, hl, hholds⟩ := (Option.any_eq_true ..).mp hname'
  cases x with
  | error f => cases hs
  | ok s' =>
    cases hs
    exact ⟨s, k, l, rfl, hk, hl, hholds⟩

/-- `Leaf` is tried too early, which loads `Map` alone; `Odd` fails for good. -/
theorem assignable_iff_derived_leaf :
    ∃ s k l, declareAll leafTable [27, 28, 25, 26, 27, 99] ⟨{}, {}⟩ = .ok s ∧
      s.Holds leafTable 27 k ∧ s.Holds leafTable 3 l ∧
      (l.isAssignableFrom k = true ↔
        leafTable.isDerivedFrom 27 3 = true ∨ 3 = Builtin.object) := by
  have hnamed : leafTable.Named := ⟨by decide +kernel, by decide +kernel, by decide +kernel⟩
  obtain ⟨s, k, l, hrun, hk, hl, -⟩ :
      ∃ s k l, declareAll leafTable [27, 28, 25, 26, 27, 99] ⟨{}, {}⟩ = .ok s ∧
        s.loader.lookup "Leaf" = some k ∧ s.loader.lookup "Number" = some l ∧ true = true :=
    exists_loaded (by decide +kernel)
  have hleaf : s.Holds leafTable 27 k := ⟨_, rfl, hk⟩
  have hnumber : s.Holds leafTable 3 l := ⟨_, rfl, hl⟩
  exact ⟨s, k, l, hrun, hleaf, hnumber,
    assignable_iff_derived leafTable hnamed {} (by decide) _ s hrun 27 3 k l hleaf hnumber⟩

/-- The built-in classes, where the root class implements `Map`. -/
def mapRootTable : ClassTable :=
  ⟨ClassTable.seeded.classes.modify Builtin.object fun c =>
    { c with interfaces := [.resolved 5 "Map"] }⟩

/-- If the root class of a table has an interface, the table derives the root class from it. The
root of a loader has no interface, so nothing of this is to be seen there. -/
theorem root_derived_not_assignable :
    (mapRootTable.classes.map (·.name)).Nodup ∧
    (∀ c ∈ mapRootTable.classes, ∀ parent ∈ c.superclass.toList ++ c.interfaces,
      ∀ id ∈ parent.classId?, (mapRootTable.get? id).map (·.name) = some parent.text) ∧
    ∃ s k l, declareAll mapRootTable [5] ⟨{}, {}⟩ = .ok s ∧
      s.Holds mapRootTable Builtin.object k ∧ s.Holds mapRootTable 5 l ∧
      mapRootTable.isDerivedFrom Builtin.object 5 = true ∧ l.isAssignableFrom k = false := by
  refine ⟨by decide +kernel, by decide +kernel, ?_⟩
  obtain ⟨s, k, l, hrun, hk, hl, hapart⟩ :
      ∃ s k l, declareAll mapRootTable [5] ⟨{}, {}⟩ = .ok s ∧
        s.loader.lookup "Object" = some k ∧ s.loader.lookup "Map" = some l ∧
        (!l.isAssignableFrom k) = true := exists_loaded (by decide +kernel)
  exact ⟨s, k, l, hrun, ⟨_, rfl, hk⟩, ⟨_, rfl, hl⟩, by decide +kernel, by simpa using hapart⟩

end Loading

end Metaobject
