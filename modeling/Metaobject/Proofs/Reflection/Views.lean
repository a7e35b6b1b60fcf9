import Metaobject.Proofs.Reflection.Looking

/-!
# What views and resolution find

In a coherent cache every view of a class, and every resolution of a member, finds what the class
says by itself, or fails because a class that it needs was unloaded. With a class and all its
ancestors loaded none of them fails. Which parts of records are kept at the moment makes no
difference.

There is one statement for each view, and each follows the recursion of the view.
-/

namespace Metaobject

open Viewing

namespace View

variable {classes : List LoadedClass} {s : Realm} {live : Prop} {c : LoadedClass} {r : RecordNo}

/-! ## Members and parents -/

/-- The fields of a record are those of its class. -/
theorem fields_yields (h : s.cache.Coherent classes) (hr : s.cache.Describes r c)
    (hlive : live → s.space.isLoaded c.no = true) :
    Yields classes (fields c r) s live fun _ v => v = c.fieldHandles := by
  unfold fields
  refine .bind (ensureUsable_yields h hlive) ?_
  intro _ t ht hst _
  refine memo_yields RecordSlot.fields_lawful ht (hst.describes r c hr) ?_
  refine .bind (forM_yields _ ht fun m u hu => tryWiden_yields hu _ _ _ _) ?_
  intro _ u hu _ _
  exact .pure hu rfl

/-- The constructors of a record are those of its class. -/
theorem constructors_yields (h : s.cache.Coherent classes) (hr : s.cache.Describes r c)
    (hlive : live → s.space.isLoaded c.no = true) :
    Yields classes (constructors c r) s live fun _ v => v = c.constructorHandles := by
  unfold constructors
  refine .bind (ensureUsable_yields h hlive) ?_
  intro _ t ht hst _
  refine memo_yields RecordSlot.constructors_lawful ht (hst.describes r c hr) ?_
  refine .bind (forM_yields _ ht fun m u hu => tryWiden_yields hu _ _ _ _) ?_
  intro _ u hu _ _
  exact .pure hu rfl

/-- The superclass of a record describes the superclass. -/
theorem superclass_yields (hpop : Population classes) (h : s.cache.Coherent classes)
    (hr : s.cache.Describes r c) (hlive : live → s.space.HasFamily c) :
    Yields classes (superclass c r) s live fun t v =>
      Option.Rel t.cache.Describes v c.superclass := by
  have hc : c ∈ classes := h.known r c hr
  unfold superclass
  refine .bind (ensureUsable_yields h fun hl => (hlive hl).self) ?_
  intro _ t ht hst _
  refine memo_yields RecordSlot.superclass_lawful ht (hst.describes r c hr) ?_
  cases hp : c.superclass with
  | none => exact .pure ht .none
  | some parent =>
    have hparent : live → t.space.isLoaded parent.no = true :=
      fun hl => (hst.hasFamily ((hlive hl).superclass hp)).self
    refine .bind (recordOf_yields hpop ht (hpop.superclass c hc parent hp) hparent) ?_
    intro q u hu _ hq
    exact .pure hu (.some hq.1)

/-- The records of several classes, one after the other. -/
theorem recordsOf_yields (hpop : Population classes) (cs : List LoadedClass)
    (h : s.cache.Coherent classes) (hcs : ∀ c ∈ cs, c ∈ classes)
    (hlive : live → ∀ c ∈ cs, s.space.isLoaded c.no = true) :
    Yields classes (cs.mapM recordOf) s live fun t rs => List.Forall₂ t.cache.Describes rs cs := by
  induction cs generalizing s with
  | nil => exact .pure h .nil
  | cons c cs ih =>
    rw [List.mapM_cons]
    refine .bind
      (recordOf_yields hpop h (hcs c List.mem_cons_self) fun hl => hlive hl c List.mem_cons_self) ?_
    intro q t ht hst hq
    have hcs' : ∀ d ∈ cs, d ∈ classes := fun d hd => hcs d (List.mem_cons_of_mem c hd)
    have hlive' : live → ∀ d ∈ cs, t.space.isLoaded d.no = true := by
      intro hl d hd
      rw [hst.isLoaded]
      exact hlive hl d (List.mem_cons_of_mem c hd)
    refine .bind (ih ht hcs' hlive') ?_
    intro qs u hu htu hqs
    exact .pure hu (.cons (htu.describes q c hq.1) hqs)

/-- The declared interfaces of a record describe those of its class. -/
theorem declaredInterfaces_yields (hpop : Population classes) (h : s.cache.Coherent classes)
    (hr : s.cache.Describes r c) (hlive : live → s.space.HasFamily c) :
    Yields classes (declaredInterfaces c r) s live fun t v =>
      List.Forall₂ t.cache.Describes v c.interfaces := by
  have hc : c ∈ classes := h.known r c hr
  unfold declaredInterfaces
  refine .bind (ensureUsable_yields h fun hl => (hlive hl).self) ?_
  intro _ t ht hst _
  refine memo_yields RecordSlot.declaredInterfaces_lawful ht (hst.describes r c hr) ?_
  exact recordsOf_yields hpop c.interfaces ht (hpop.interface c hc)
    fun hl i hi => (hst.hasFamily ((hlive hl).interface hi)).self

mutual

/-- The methods of a record are the method table of its class. -/
theorem methods_yields (hpop : Population classes) : ∀ (c : LoadedClass) (r : RecordNo) (s : Realm),
    s.cache.Coherent classes → s.cache.Describes r c → (live → s.space.HasFamily c) →
    Yields classes (methods c r) s live fun _ v => v = c.methodTable
  | ⟨_, _, _, parent, _, _, _, _⟩, r, s, h, hr, hlive => by
    rw [methods]
    refine .bind (ensureUsable_yields h fun hl => (hlive hl).self) ?_
    intro _ t ht hst _
    refine memo_yields RecordSlot.methods_lawful ht (hst.describes r _ hr) ?_
    refine .bind (forM_yields _ ht fun m u hu => tryWiden_yields hu _ _ _ _) ?_
    intro _ u hu htu _
    have hsu := hst.trans htu
    refine .bind
      (superclass_yields hpop hu (hsu.describes r _ hr) fun hl => hsu.hasFamily (hlive hl)) ?_
    intro q v hv huv hq
    have hlive' : live → ∀ p ∈ parent, v.space.HasFamily p :=
      fun hl p hp => (hsu.trans huv).hasFamily ((hlive hl).superclass hp)
    refine .bind (protocolOfParent_yields hpop parent q v hv hq hlive') ?_
    intro inherited w hw _ hinherited
    refine .pure hw ?_
    rw [hinherited]
    rfl

theorem protocolOfParent_yields (hpop : Population classes) :
    ∀ (p : Option LoadedClass) (q : Option RecordNo)
    (s : Realm), s.cache.Coherent classes → Option.Rel s.cache.Describes q p →
      (live → ∀ c ∈ p, s.space.HasFamily c) →
    Yields classes (protocolOfParent p q) s live fun _ v => v = LoadedClass.protocolOf p
  | some c, some r, s, h, .some hr, hlive => by
    rw [protocolOfParent]
    refine .bind (methods_yields hpop c r s h hr fun hl => hlive hl c rfl) ?_
    rintro _ t ht _ rfl
    exact .pure ht rfl
  | none, none, _, h, _, _ => .pure h rfl

end

mutual

/-- A field is found as it is in the class. -/
theorem findField_yields (hpop : Population classes) (name : String) :
    ∀ (c : LoadedClass) (r : RecordNo) (s : Realm),
    s.cache.Coherent classes → s.cache.Describes r c → (live → s.space.HasFamily c) →
    Yields classes (findField name c r) s live fun _ v => v = c.field? name
  | ⟨_, _, _, parent, _, _, _, _⟩, r, s, h, hr, hlive => by
    rw [findField]
    refine .bind (fields_yields h hr fun hl => (hlive hl).self) ?_
    rintro _ t ht hst rfl
    rw [LoadedClass.field?_eq]
    generalize (LoadedClass.fieldHandles _).find? (·.signature.name == name) = own
    cases own with
    | some m => exact .pure ht rfl
    | none =>
      refine .bind
        (superclass_yields hpop ht (hst.describes r _ hr) fun hl => hst.hasFamily (hlive hl)) ?_
      intro q u hu htu hq
      exact fieldOfParent_yields hpop name parent q u hu hq
        fun hl p hp => (hst.trans htu).hasFamily ((hlive hl).superclass hp)

theorem fieldOfParent_yields (hpop : Population classes) (name : String) :
    ∀ (p : Option LoadedClass)
    (q : Option RecordNo) (s : Realm), s.cache.Coherent classes → Option.Rel s.cache.Describes q p →
    (live → ∀ c ∈ p, s.space.HasFamily c) →
    Yields classes (fieldOfParent name p q) s live fun _ v => v = LoadedClass.fieldOf? name p
  | some c, some r, s, h, .some hr, hlive =>
    findField_yields hpop name c r s h hr fun hl => hlive hl c rfl
  | none, none, _, h, _, _ => .pure h rfl

end

/-! ## Ancestors -/

/-- One class more is kept or left out, whichever of its records stands for it. -/
private theorem distinct_step {describes : RecordNo → LoadedClass → Prop} {c : LoadedClass}
    {tagged : List (ClassNo × RecordNo)} {cs : List LoadedClass}
    (h : List.Forall₂ (fun p d => p.1 = d.no ∧ describes p.2 d) tagged cs) :
    ∀ {kept : List (ClassNo × RecordNo)} {ds : List LoadedClass},
      List.Forall₂ (fun p d => p.1 = d.no ∧ describes p.2 d) kept ds →
      List.Forall₂ (fun p d => p.1 = d.no ∧ describes p.2 d)
        (tagged.foldl (fun kept (no, r) =>
          if no = c.no || kept.any (·.1 == no) then kept else kept ++ [(no, r)]) kept)
        (cs.foldl (fun kept d => if d.no = c.no || kept.any (·.no == d.no) then kept
          else kept ++ [d]) ds) := by
  induction h with
  | nil => exact fun hkept => hkept
  | @cons p d tagged cs hpd _ ih =>
    intro kept ds hkept
    obtain ⟨no, r⟩ := p
    obtain ⟨rfl, hr⟩ := hpd
    -- both lists hold the same class numbers, so both decide alike
    have hany : kept.any (·.1 == d.no) = ds.any (·.no == d.no) := by
      clear ih
      induction hkept with
      | nil => rfl
      | cons hqe _ ihkept => rw [List.any_cons, List.any_cons, ihkept, hqe.1]
    rw [List.foldl_cons, List.foldl_cons]
    dsimp only
    rw [hany]
    split
    · exact ih hkept
    · exact ih (List.rel_append hkept (.cons ⟨rfl, hr⟩ .nil))

/-- The distinct records describe the distinct classes. -/
theorem distinct_yields {rs : List RecordNo} {cs : List LoadedClass} (c : LoadedClass)
    (h : s.cache.Coherent classes) (hrs : List.Forall₂ s.cache.Describes rs cs) :
    Yields classes (distinct c rs) s live fun t v =>
      List.Forall₂ t.cache.Describes v (c.distinct cs) := by
  have htagged : List.Forall₂ (fun p d => p.1 = d.no ∧ s.cache.Describes p.2 d)
      (rs.map fun r => ((s.cache.record r).cls.no, r)) cs := by
    refine List.forall₂_map_left_iff.mpr (hrs.imp ?_)
    intro r d hr
    exact ⟨congrArg LoadedClass.no hr.record_cls, hr⟩
  have hkept := distinct_step (c := c) htagged .nil
  unfold distinct Yields
  rw [run_bind, run_mapM (g := fun r => ((s.cache.record r).cls.no, r)) (by intro r; rfl)]
  refine ⟨h, .refl s, List.forall₂_map_left_iff.mpr (hkept.imp ?_)⟩
  exact fun _ _ hpd => hpd.2

/-- An interface has the root as its last ancestor. -/
theorem distinct_top_yields {rs : List RecordNo} {cs : List LoadedClass} (hpop : Population classes)
    (c : LoadedClass) (h : s.cache.Coherent classes) (hrs : List.Forall₂ s.cache.Describes rs cs)
    (hroot : live → s.space.isLoaded LoadedClass.root.no = true) :
    Yields classes (do
      let top ← if c.isInterface then pure [← recordOf .root] else pure []
      distinct c (rs ++ top)) s live fun t v =>
        List.Forall₂ t.cache.Describes v
          (c.distinct (cs ++ if c.isInterface then [.root] else [])) := by
  split
  · refine .bind (recordOf_yields hpop h hpop.root hroot) ?_
    intro q t ht hst hq
    exact distinct_yields _ ht (List.rel_append (hrs.imp hst.describes) (.cons hq.1 .nil))
  · exact distinct_yields _ h (List.rel_append hrs .nil)

/-- Interfaces are gone through before the superclass. What both come to is what the rest goes on
with. -/
theorem parents_yields {β : Type} {ofAll : List RecordNo → Viewing (List RecordNo)}
    {ofParent : Option RecordNo → Viewing (List RecordNo)}
    {rest : List RecordNo → List RecordNo → Viewing β} {as bs : List LoadedClass}
    {post : Realm → β → Prop} (hpop : Population classes) (h : s.cache.Coherent classes)
    (hr : s.cache.Describes r c) (hlive : live → s.space.HasFamily c)
    (hall : ∀ qs t, t.cache.Coherent classes → List.Forall₂ t.cache.Describes qs c.interfaces →
      (live → ∀ i ∈ c.interfaces, t.space.HasFamily i) → Yields classes (ofAll qs) t live fun u v =>
      List.Forall₂ u.cache.Describes v as)
    (hparent : ∀ q t, t.cache.Coherent classes → Option.Rel t.cache.Describes q c.superclass →
      (live → ∀ p ∈ c.superclass, t.space.HasFamily p) →
      Yields classes (ofParent q) t live fun u v => List.Forall₂ u.cache.Describes v bs)
    (hrest : ∀ xs ys t, t.cache.Coherent classes → s.Grows t →
      List.Forall₂ t.cache.Describes (xs ++ ys) (as ++ bs) →
      Yields classes (rest xs ys) t live post) :
    Yields classes (do
      let xs ← ofAll (← declaredInterfaces c r)
      let ys ← ofParent (← superclass c r)
      rest xs ys) s live post := by
  refine .bind (declaredInterfaces_yields hpop h hr hlive) ?_
  intro qs t ht hst hqs
  refine .bind (hall qs t ht hqs fun hl i hi => hst.hasFamily ((hlive hl).interface hi)) ?_
  intro xs u hu htu hxs
  have hsu := hst.trans htu
  refine .bind (superclass_yields hpop hu (hsu.describes r c hr) fun hl => hsu.hasFamily (hlive hl))
    ?_
  intro q v hv huv hq
  have hsv := hsu.trans huv
  refine .bind (hparent q v hv hq fun hl p hp => hsv.hasFamily ((hlive hl).superclass hp)) ?_
  intro ys w hw hvw hys
  exact hrest xs ys w hw (hsv.trans hvw) (List.rel_append (hxs.imp (huv.trans hvw).describes) hys)

/-- The records found first still describe their classes after the second part. -/
theorem append_yields {x y : Viewing (List RecordNo)} {as bs : List LoadedClass}
    (hx : Yields classes x s live fun t v => List.Forall₂ t.cache.Describes v as)
    (hy : ∀ t, t.cache.Coherent classes → s.Grows t → Yields classes y t live fun u v =>
      List.Forall₂ u.cache.Describes v bs) :
    Yields classes (do return (← x) ++ (← y)) s live fun t v =>
      List.Forall₂ t.cache.Describes v (as ++ bs) := by
  refine .bind hx ?_
  intro xs t ht hst hxs
  refine .bind (hy t ht hst) ?_
  intro ys u hu htu hys
  exact .pure hu (List.rel_append (hxs.imp htu.describes) hys)

mutual

/-- All interfaces of a record describe the interfaces of its class. -/
theorem allInterfaces_yields (hpop : Population classes) :
    ∀ (c : LoadedClass) (r : RecordNo) (s : Realm),
    s.cache.Coherent classes → s.cache.Describes r c → (live → s.space.HasFamily c) →
    Yields classes (allInterfaces c r) s live fun t v =>
      List.Forall₂ t.cache.Describes v c.allInterfaces
  | ⟨_, _, _, parent, interfaces, _, _, _⟩, r, s, h, hr, hlive => by
    have hc := h.known r _ hr
    rw [allInterfaces]
    refine .bind (ensureUsable_yields h fun hl => (hlive hl).self) ?_
    intro _ t ht hst _
    refine .bind (memo_yields RecordSlot.allInterfaces_lawful ht (hst.describes r _ hr) ?_) ?_
    · exact parents_yields hpop ht (hst.describes r _ hr) (fun hl => hst.hasFamily (hlive hl))
        (fun qs u hu hqs hl => interfacesOfAll_yields hpop interfaces qs u hu hqs hl)
        (fun q u hu hq hl => interfacesOfParent_yields hpop parent q u hu hq hl)
        (fun _ _ u hu _ hrs => distinct_yields _ hu hrs)
    · intro inherited u hu htu hinherited
      rw [LoadedClass.allInterfaces_eq]
      split
      · have hself := fun hl => ((hst.trans htu).hasFamily (hlive hl)).self
        refine .bind (recordOf_yields hpop hu hc hself) ?_
        intro q v hv huv hq
        exact .pure hv (.cons hq.1 (hinherited.imp huv.describes))
      · exact .pure hu hinherited

theorem interfacesOfAll_yields (hpop : Population classes) :
    ∀ (cs : List LoadedClass) (rs : List RecordNo) (s : Realm),
    s.cache.Coherent classes → List.Forall₂ s.cache.Describes rs cs →
      (live → ∀ c ∈ cs, s.space.HasFamily c) →
    Yields classes (interfacesOfAll cs rs) s live fun t v =>
      List.Forall₂ t.cache.Describes v (LoadedClass.interfacesOfAll cs)
  | [], [], _, h, _, _ => .pure h .nil
  | c :: cs, r :: rs, s, h, .cons hr hrs, hlive => by
    rw [interfacesOfAll]
    refine append_yields
      (allInterfaces_yields hpop c r s h hr fun hl => hlive hl c List.mem_cons_self) ?_
    intro t ht hst
    exact interfacesOfAll_yields hpop cs rs t ht (hrs.imp hst.describes)
      fun hl d hd => hst.hasFamily (hlive hl d (List.mem_cons_of_mem c hd))

theorem interfacesOfParent_yields (hpop : Population classes) :
    ∀ (p : Option LoadedClass) (q : Option RecordNo)
    (s : Realm), s.cache.Coherent classes → Option.Rel s.cache.Describes q p →
      (live → ∀ c ∈ p, s.space.HasFamily c) →
    Yields classes (interfacesOfParent p q) s live fun t v =>
      List.Forall₂ t.cache.Describes v (LoadedClass.interfacesOf p)
  | some c, some r, s, h, .some hr, hlive =>
    allInterfaces_yields hpop c r s h hr fun hl => hlive hl c rfl
  | none, none, _, h, _, _ => .pure h .nil

end

mutual

/-- The hierarchy of a record describes the lineage of its class. -/
theorem hierarchy_yields (hpop : Population classes) :
    ∀ (c : LoadedClass) (r : RecordNo) (s : Realm),
    s.cache.Coherent classes → s.cache.Describes r c → (live → s.space.HasFamily c) →
    Yields classes (hierarchy c r) s live fun t v => List.Forall₂ t.cache.Describes v c.lineage
  | ⟨_, _, _, parent, interfaces, _, _, _⟩, r, s, h, hr, hlive => by
    have hc := h.known r _ hr
    rw [hierarchy]
    refine .bind (ensureUsable_yields h fun hl => (hlive hl).self) ?_
    intro _ t ht hst _
    have hlive_t := fun hl => hst.hasFamily (hlive hl)
    refine .bind (memo_yields RecordSlot.hierarchy_lawful ht (hst.describes r _ hr) ?_) ?_
    · refine parents_yields hpop ht (hst.describes r _ hr) hlive_t
        (fun qs u hu hqs hl => hierarchyOfAll_yields hpop interfaces qs u hu hqs hl)
        (fun q u hu hq hl => hierarchyOfParent_yields hpop parent q u hu hq hl) ?_
      intro xs ys u hu htu hrs
      exact distinct_top_yields hpop _ hu hrs fun hl => (htu.hasFamily (hlive_t hl)).root
    · intro ancestors u hu htu hancestors
      have hself := fun hl => (htu.hasFamily (hlive_t hl)).self
      refine .bind (recordOf_yields hpop hu hc hself) ?_
      intro q v hv huv hq
      rw [LoadedClass.lineage_eq]
      exact .pure hv (.cons hq.1 (hancestors.imp huv.describes))

theorem hierarchyOfAll_yields (hpop : Population classes) :
    ∀ (cs : List LoadedClass) (rs : List RecordNo) (s : Realm),
    s.cache.Coherent classes → List.Forall₂ s.cache.Describes rs cs →
      (live → ∀ c ∈ cs, s.space.HasFamily c) →
    Yields classes (hierarchyOfAll cs rs) s live fun t v =>
      List.Forall₂ t.cache.Describes v (LoadedClass.lineageOfAll cs)
  | [], [], _, h, _, _ => .pure h .nil
  | c :: cs, r :: rs, s, h, .cons hr hrs, hlive => by
    rw [hierarchyOfAll]
    refine append_yields (hierarchy_yields hpop c r s h hr fun hl => hlive hl c List.mem_cons_self)
      ?_
    intro t ht hst
    exact hierarchyOfAll_yields hpop cs rs t ht (hrs.imp hst.describes)
      fun hl d hd => hst.hasFamily (hlive hl d (List.mem_cons_of_mem c hd))

theorem hierarchyOfParent_yields (hpop : Population classes) :
    ∀ (p : Option LoadedClass) (q : Option RecordNo)
    (s : Realm), s.cache.Coherent classes → Option.Rel s.cache.Describes q p →
      (live → ∀ c ∈ p, s.space.HasFamily c) →
    Yields classes (hierarchyOfParent p q) s live fun t v =>
      List.Forall₂ t.cache.Describes v (LoadedClass.lineageOf p)
  | some c, some r, s, h, .some hr, hlive =>
    hierarchy_yields hpop c r s h hr fun hl => hlive hl c rfl
  | none, none, _, h, _, _ => .pure h .nil

end

mutual

/-- The distance from the root is the depth of the class. -/
theorem distance_yields (hpop : Population classes) :
    ∀ (c : LoadedClass) (r : RecordNo) (s : Realm),
    s.cache.Coherent classes → s.cache.Describes r c → (live → s.space.HasFamily c) →
    Yields classes (distance c r) s live fun _ n => n = c.depth
  | ⟨_, _, _, parent, _, _, _, _⟩, r, s, h, hr, hlive => by
    obtain ⟨d, hd, hcls⟩ := hr
    rw [distance]
    refine .bind (record_yields h hd) ?_
    rintro _ _ - - ⟨rfl, rfl⟩
    -- a distance that is kept is right already; otherwise the parent is asked, and the answer is
    -- written into the record as it is after that
    cases hdistance : d.distance with
    | some n =>
      have hn := (h.faithful r d hd).distance n hdistance
      rw [hcls] at hn
      exact .pure h hn
    | none =>
      refine .bind (superclass_yields hpop h ⟨d, hd, hcls⟩ hlive) ?_
      intro q t ht hst hq
      have hlive' : live → ∀ p ∈ parent, t.space.HasFamily p :=
        fun hl p hp => hst.hasFamily ((hlive hl).superclass hp)
      refine .bind (distanceOfParent_yields hpop parent q t ht hq hlive') ?_
      rintro _ u hu htu rfl
      have hdepth : ∀ e, u.cache.records[r]? = some e →
          ClassRecord.Faithful u.cache.Describes { e with
            distance := some (LoadedClass.depthOf parent + 1) } := by
        intro e he
        refine { hu.faithful r e he with
          distance := ?_, revocable := { (hu.faithful r e he).revocable with } }
        rintro _ ⟨⟩
        rw [(hst.trans htu).cls_eq hd he, hcls]
        rfl
      refine .bind (update_yields hu (fun _ => rfl) (fun _ => rfl) hdepth) ?_
      intro _ v hv _ _
      exact .pure hv rfl

theorem distanceOfParent_yields (hpop : Population classes) :
    ∀ (p : Option LoadedClass) (q : Option RecordNo)
    (s : Realm), s.cache.Coherent classes → Option.Rel s.cache.Describes q p →
      (live → ∀ c ∈ p, s.space.HasFamily c) →
    Yields classes (distanceOfParent p q) s live fun _ n => n = LoadedClass.depthOf p
  | some c, some r, s, h, .some hr, hlive =>
    distance_yields hpop c r s h hr fun hl => hlive hl c rfl
  | none, none, _, h, _, _ => .pure h rfl

end

end View

/-! ## Resolution -/

namespace Resolution

variable {classes : List LoadedClass} {s : Realm} {live : Prop} {c : LoadedClass} {r : RecordNo}

/-- The search goes through the classes in their order. -/
theorem order_yields (hpop : Population classes) (h : s.cache.Coherent classes)
    (hr : s.cache.Describes r c) (hlive : live → s.space.HasFamily c) :
    Yields classes
      (order c r) s live fun t v => List.Forall₂ t.cache.Describes v c.searchOrder := by
  unfold order
  refine .bind (View.hierarchy_yields hpop c r s h hr hlive) ?_
  intro rs t ht hst hrs
  refine .bind (get_yields ht) ?_
  rintro _ _ - - ⟨rfl, rfl⟩
  have hroot : ∀ q d, t.cache.Describes q d → (t.cache.record q).cls.isRoot = d.isRoot := by
    intro q d hq
    rw [hq.record_cls]
  refine .pure ht (List.rel_append (List.rel_filter ?_ hrs) (List.rel_filter ?_ hrs))
  · intro q d hq
    dsimp only
    rw [hroot q d hq]
  · intro q d hq
    dsimp only
    rw [hroot q d hq]

/-- The method of a class itself is found as it is declared. -/
theorem ownMethod_yields (hpop : Population classes) (name : String) (arity : Nat)
    (h : s.cache.Coherent classes) (hr : s.cache.Describes r c)
    (hlive : live → s.space.HasFamily c) :
    Yields classes (ownMethod name arity r) s live fun _ v => v = c.ownMethod? name arity := by
  obtain ⟨d, hd, rfl⟩ := hr
  unfold ownMethod
  refine .bind (record_yields h hd) ?_
  rintro _ _ - - ⟨rfl, rfl⟩
  refine .bind (View.methods_yields hpop d.cls r s h ⟨d, hd, rfl⟩ hlive) ?_
  rintro _ t ht _ rfl
  exact .pure ht rfl

/-- The search along some records finds what the search along their classes finds. -/
theorem searchMethod_yields (hpop : Population classes) (name : String) (arity : Nat)
    {rs : List RecordNo} {cs : List LoadedClass} (fallback : Option MethodHandle)
    (h : s.cache.Coherent classes) (hrs : List.Forall₂ s.cache.Describes rs cs)
    (hlive : live → ∀ c ∈ cs, s.space.HasFamily c) :
    Yields classes (searchMethod name arity fallback rs) s live fun _ v =>
      v = LoadedClass.searchMethod name arity fallback cs := by
  induction cs generalizing s rs fallback with
  | nil =>
    cases hrs
    exact .pure h rfl
  | cons c cs ih =>
    cases hrs with
    | cons hr hrs =>
      rw [searchMethod, LoadedClass.searchMethod]
      refine .bind (ownMethod_yields hpop name arity h hr fun hl => hlive hl c List.mem_cons_self)
        ?_
      rintro _ t ht hst rfl
      have hlive' : live → ∀ d ∈ cs, t.space.HasFamily d :=
        fun hl d hd => hst.hasFamily (hlive hl d (List.mem_cons_of_mem c hd))
      cases c.ownMethod? name arity with
      | none => exact ih fallback ht (hrs.imp hst.describes) hlive'
      | some m =>
        dsimp only
        split
        · exact ih _ ht (hrs.imp hst.describes) hlive'
        · exact .pure ht rfl

/-- The declared member is found. -/
theorem declaredMember_yields (hpop : Population classes) (name : String) (arity : Nat)
    (h : s.cache.Coherent classes) (hr : s.cache.Describes r c)
    (hlive : live → s.space.HasFamily c) :
    Yields classes (declaredMember c r name arity) s live fun _ v =>
      v = c.declaredMember? name arity := by
  unfold declaredMember LoadedClass.declaredMember?
  refine .bind (order_yields hpop h hr hlive) ?_
  intro rs t ht hst hrs
  have hlive_t : live → t.space.HasFamily c := fun hl => hst.hasFamily (hlive hl)
  refine .bind
    (searchMethod_yields hpop name arity none ht hrs fun hl d hd => (hlive_t hl).searchOrder hd) ?_
  rintro _ u hu htu rfl
  cases LoadedClass.searchMethod name arity none c.searchOrder with
  | some m => exact .pure hu rfl
  | none =>
    dsimp only
    split
    · have hsu := hst.trans htu
      refine .bind (View.findField_yields hpop name c r u hu (hsu.describes r c hr)
        fun hl => hsu.hasFamily (hlive hl)) ?_
      rintro _ v hv _ rfl
      exact .pure hv rfl
    · exact .pure hu rfl

/-- The member is found, added methods included. -/
theorem member_yields (hpop : Population classes) (name : String) (arity : Nat) {d : ClassRecord}
    (h : s.cache.Coherent classes) (hd : s.cache.records[r]? = some d)
    (hlive : live → s.space.HasFamily d.cls) :
    Yields classes (member d.cls r name arity) s live fun _ v =>
      v = d.cls.member? d.added name arity := by
  unfold member LoadedClass.member?
  refine .bind (record_yields h hd) ?_
  rintro _ _ - - ⟨rfl, rfl⟩
  unfold addedMethod
  cases MethodHandle.select arity (d.added.reverse.filter (·.name == name)) with
  | some m => exact .pure h rfl
  | none => exact declaredMember_yields hpop name arity h ⟨d, hd, rfl⟩ hlive

/-- The constructor is found. -/
theorem constructor_yields (arity : Nat) (h : s.cache.Coherent classes) (hr : s.cache.Describes r c)
    (hlive : live → s.space.HasFamily c) :
    Yields classes (constructor c r arity) s live fun _ v => v = c.constructor? arity := by
  unfold constructor
  refine .bind (View.constructors_yields h hr fun hl => (hlive hl).self) ?_
  rintro _ t ht _ rfl
  exact .pure ht rfl

end Resolution

end Metaobject
