import Metaobject.Proofs.Reflection.Overriding

/-!
# What method tables show

A method table neither loses nor invents a method. Under an ordinary name it shows the methods of
this name that the class declares, sorted by their parameters; under a name of the metaobject
protocol also those of the superclasses, nearest first. Bridges are left out, and names with a `+`,
which only repeat an overload, are not to be found at all.

The protocol methods of a superclass are sorted when the table of the superclass is made, and once
more with the methods of the class itself. Sorting by name is stable, so the methods of one name
stay in the order in which they came.

* `LoadedClass.find_perm`, `LoadedClass.pairwise_find`: ordinary methods.
* `LoadedClass.findProtocol_eq_flatMap`: protocol methods, by induction over the superclasses.
* `Session.methods_tabulate`: what a session finds as the methods of a class, whatever parts of
  records it keeps.
-/

namespace Metaobject

/-- Names of methods that only repeat an overload. -/
def repeatsOverload (name : String) : Bool := name.toList.contains '+'

/-- Names of methods that serve the metaobject protocol. -/
def isProtocolName (name : String) : Bool := name.startsWith "this$" || name.startsWith "super$"

/-- Handles of declared members are told apart by their positions. -/
theorem Handle.nodup_declared {σ : Type} (owner : LoadedClass) {mkId : ClassNo → Nat → MemberId}
    (hinjective : ∀ i j, mkId owner.no i = mkId owner.no j → i = j) (members : List σ) :
    (Handle.declared owner mkId members).Nodup := by
  refine List.Nodup.of_map (·.id) ?_
  have hids : (Handle.declared owner mkId members).map (·.id) =
    (List.range members.length).map (mkId owner.no) := by
    calc (Handle.declared owner mkId members).map (·.id)
      _ = members.zipIdx.map (mkId owner.no ∘ Prod.snd) := List.map_map
      _ = (members.zipIdx.map Prod.snd).map (mkId owner.no) := List.map_map.symm
      _ = (List.range members.length).map (mkId owner.no) := by
        rw [List.zipIdx_map_snd, List.range_eq_range']
  rw [hids]
  exact (List.nodup_range).map_on fun i _ j _ hij => hinjective i j hij

namespace MethodHandle

/-- Sorting by name leaves the methods of one name in the order in which they came. -/
theorem filter_mergeSort_nameLe (l : List MethodHandle) (name : String) :
    (l.mergeSort nameLe).filter (·.name == name) = l.filter (·.name == name) := by
  have hordered : (l.filter (·.name == name)).Pairwise fun a b => nameLe a b = true := by
    refine List.pairwise_of_forall_mem_list fun a ha b hb => ?_
    have ha : a.name = name := by simpa using (List.mem_filter.mp ha).2
    have hb : b.name = name := by simpa using (List.mem_filter.mp hb).2
    exact nameLe_iff.mpr (Std.le_of_eq (ha.trans hb.symm))
  have hsublist :=
    (List.sublist_mergeSort nameLe_trans nameLe_total hordered List.filter_sublist).filter
      (·.name == name)
  rw [List.filter_filter] at hsublist
  simp only [Bool.and_self] at hsublist
  exact (hsublist.eq_of_length ((List.mergeSort_perm l nameLe).symm.filter _).length_eq).symm

end MethodHandle

namespace LoadedClass

variable (c : LoadedClass) (name : String)

/-- The methods of a name that a class declares, bridges aside, in the order of declaration. -/
def declaredNamed : List MethodHandle :=
  (Handle.declared c .method c.methods).filter fun h => h.name == name &&
    !h.signature.modifiers.isBridge

/-- Of two declared methods, the first one has fewer parameters, or as many with types that come
first, or the same ones and is declared first. -/
def Precedes (h g : MethodHandle) : Prop :=
  h.arity < g.arity ∨ h.arity = g.arity ∧ (h.signature.params < g.signature.params ∨
    h.signature.params = g.signature.params ∧ [h, g].Sublist (Handle.declared c .method c.methods))

/-- A method table shows exactly the methods that the class has under a name. -/
structure Tabulates (table : MethodTable) : Prop where
  perm : repeatsOverload name = false → isProtocolName name = false →
    (table.find name).Perm (c.declaredNamed name)
  nodup : (table.find name).Nodup
  sorted : (table.find name).Pairwise c.Precedes
  find_nil : repeatsOverload name = true ∨ isProtocolName name = true → table.find name = []
  protocol : repeatsOverload name = false → isProtocolName name = true →
    table.findProtocol name = c.superChain.flatMap (·.declaredNamed name)
  protocol_nil : repeatsOverload name = true ∨ isProtocolName name = false →
    table.findProtocol name = []

variable {c : LoadedClass} {name : String} {h g : MethodHandle} {table : MethodTable}

/-! ## Ordinary methods -/

theorem normal_methodTable (c : LoadedClass) :
    c.methodTable.normal = (c.shownMethods.filter (!·.isProtocol)).mergeSort
      MethodHandle.naturalLe := by
  cases c
  rfl

theorem protocol_methodTable (c : LoadedClass) : c.methodTable.protocol =
    (c.shownMethods.filter (·.isProtocol) ++ protocolOf c.superclass).mergeSort
      MethodHandle.nameLe := by
  cases c
  rfl

/-- Whether a method is shown, and in which table, is for its name to say if it is no bridge. -/
theorem filter_shownMethods (c : LoadedClass) (name : String) (keep : Bool → Bool) :
    (c.shownMethods.filter fun h => keep h.isProtocol).filter (·.name == name)
      = if !repeatsOverload name && keep (isProtocolName name) then c.declaredNamed name
        else [] := by
  have hname : ∀ h : MethodHandle, h.name = name → h.isProtocol = isProtocolName name ∧
      h.isShown = (!h.signature.modifiers.isBridge && !repeatsOverload name) := by
    rintro h rfl
    exact ⟨rfl, rfl⟩
  rw [shownMethods, List.filter_filter, List.filter_filter]
  split
  · rename_i hshown
    rw [Bool.and_eq_true, Bool.not_eq_true'] at hshown
    refine List.filter_congr fun h _ => ?_
    by_cases hh : h.name = name
    · simp [hh, hname h hh, hshown]
    · simp [beq_eq_false_iff_ne.mpr hh]
  · rename_i hhidden
    refine List.filter_eq_nil_iff.mpr fun h _ hh => hhidden ?_
    simp only [Bool.and_eq_true, beq_iff_eq] at hh
    obtain ⟨⟨hn, hkeep⟩, hh⟩ := hh
    rw [(hname h hn).1] at hkeep
    rw [(hname h hn).2, Bool.and_eq_true] at hh
    rw [hkeep, hh.2]
    rfl

/-- Up to their order, the table finds the methods that are declared under a name. -/
theorem find_perm (c : LoadedClass) (name : String) : (c.methodTable.find name).Perm
    (if !repeatsOverload name && !isProtocolName name then c.declaredNamed name else []) := by
  rw [find_methodTable, normal_methodTable, ← filter_shownMethods c name (!·)]
  exact (List.mergeSort_perm _ _).filter _

theorem nodup_declaredMethods (c : LoadedClass) : (Handle.declared c .method c.methods).Nodup :=
  Handle.nodup_declared c (by rintro i j ⟨⟩; rfl) c.methods

/-- No method is listed twice. -/
theorem nodup_normal (c : LoadedClass) : c.methodTable.normal.Nodup := by
  rw [normal_methodTable, (List.mergeSort_perm _ _).nodup_iff]
  exact (c.nodup_declaredMethods.filter _).filter _

/-- Where the natural order does not decide, the order of declaration does. -/
theorem pairwise_find (c : LoadedClass) (name : String) :
    (c.methodTable.find name).Pairwise c.Precedes := by
  rw [find_methodTable, List.pairwise_iff_forall_sublist]
  intro h g hpair
  have hnormal : [h, g].Sublist c.methodTable.normal := hpair.trans List.filter_sublist
  have hname : h.name = g.name := by
    have hh : (h.name == name) = true := (List.mem_filter.mp (hpair.subset (by simp))).2
    have hg : (g.name == name) = true := (List.mem_filter.mp (hpair.subset (by simp))).2
    rw [beq_iff_eq.mp hh, beq_iff_eq.mp hg]
  have hne : h ≠ g := by
    have hnodup := hnormal.nodup c.nodup_normal
    simpa using hnodup
  have hle : h.naturalLe g = true := by
    have hsorted :=
      List.pairwise_mergeSort MethodHandle.naturalLe_trans MethodHandle.naturalLe_total
      (c.shownMethods.filter (!·.isProtocol))
    rw [← normal_methodTable] at hsorted
    exact List.pairwise_iff_forall_sublist.mp hsorted hnormal
  rcases MethodHandle.naturalLe_iff.mp hle with hlt | ⟨-, harity | ⟨harity, hparams⟩⟩
  · exact absurd (hname ▸ hlt) (String.lt_irrefl _)
  · exact .inl harity
  · refine .inr ⟨harity, ?_⟩
    by_cases heq : h.signature.params = g.signature.params
    · refine .inr ⟨heq, ?_⟩
      -- declared the other way round, they would have been sorted the other way round
      have hshown :
        (c.shownMethods.filter (!·.isProtocol)).Sublist (Handle.declared c .method c.methods) :=
        List.filter_sublist.trans List.filter_sublist
      have hmem : ∀ m ∈ [h, g], m ∈ c.shownMethods.filter (!·.isProtocol) := by
        intro m hm
        have hm := hnormal.subset hm
        rw [normal_methodTable] at hm
        exact List.mem_mergeSort.mp hm
      rcases pair_sublist_or (hmem h (by simp)) (hmem g (by simp)) hne with hfirst | hsecond
      · exact hfirst.trans hshown
      · have hge : g.naturalLe h = true :=
          MethodHandle.naturalLe_iff.mpr
            (.inr ⟨hname.symm, .inr ⟨harity.symm, heq ▸ List.lt_irrefl _⟩⟩)
        have hback :=
          List.pair_sublist_mergeSort MethodHandle.naturalLe_trans MethodHandle.naturalLe_total hge
          hsecond
        rw [← normal_methodTable] at hback
        exact absurd hback (pair_sublist_asymm c.nodup_normal hnormal)
    · refine .inl (by_contra fun hlt => heq ?_)
      exact List.le_antisymm (List.not_lt.mp hparams) (List.not_lt.mp hlt)

/-! ## Protocol methods -/

/-- The protocol methods of a name are found along the superclasses. -/
theorem findProtocol_eq_flatMap (c : LoadedClass) (name : String) :
    c.methodTable.findProtocol name =
    if !repeatsOverload name && isProtocolName name then c.superChain.flatMap (·.declaredNamed name)
      else [] := by
  induction c using parent_induction with
  | step c ih =>
    have hparent : (protocolOf c.superclass).filter (·.name == name) =
        if !repeatsOverload name &&
          isProtocolName name then (superChainOf c.superclass).flatMap (·.declaredNamed name)
        else [] := by
      cases hp : c.superclass with
      | none => simp [protocolOf, superChainOf]
      | some p =>
        have hfind := ih p (mem_parents.mpr (.inl hp))
        rwa [findProtocol_methodTable] at hfind
    have hown := filter_shownMethods c name id
    simp only [id] at hown
    rw [findProtocol_methodTable, protocol_methodTable, MethodHandle.filter_mergeSort_nameLe,
      List.filter_append, hparent, hown, superChain_eq, List.flatMap_cons]
    split <;> rfl

/-- The table of a class tabulates its methods. -/
theorem tabulates_methodTable (c : LoadedClass) (name : String) :
    c.Tabulates name c.methodTable where
  perm hoverload hprotocol := by simpa [hoverload, hprotocol] using c.find_perm name
  nodup := by
    rw [find_methodTable]
    exact c.nodup_normal.filter _
  sorted := c.pairwise_find name
  find_nil hother := by
    have hperm := c.find_perm name
    rw [if_neg (by rcases hother with h | h <;> simp [h])] at hperm
    exact hperm.eq_nil
  protocol hoverload hprotocol := by simp [findProtocol_eq_flatMap, hoverload, hprotocol]
  protocol_nil hother := by
    rw [findProtocol_eq_flatMap, if_neg (by rcases hother with h | h <;> simp [h])]

end LoadedClass

namespace Session

variable {α : Type}

/-- In every state that a session reaches, the methods of a class that is loaded with all its
ancestors are found, both through the current record of the class and through any other, and the
table shows what the class has under each name. -/
theorem methods_tabulate (backend : ValueBackend) (permits : AccessPolicy) (actions : List Action)
    (c : LoadedClass) (hc : c ∈ ((start backend permits : Session α).run actions).classes)
    (hfamily : ((start backend permits : Session α).run actions).realm.space.HasFamily c) :
    let s : Session α := (start backend permits).run actions
    (∃ table, (Viewing.recordOf c >>= View.methods c).Finds s.realm table ∧ ∀ name,
      c.Tabulates name table) ∧
    ∀ r, s.cache.Describes r c →
      ∃ table, (View.methods c r).Finds s.realm table ∧ ∀ name, c.Tabulates name table := by
  intro s
  have hs : s.Orderly := (start_orderly backend permits).run actions
  have hmethods (r : RecordNo) (t : Realm) (ht : t.cache.Coherent s.classes)
    (hr : t.cache.Describes r c)
      (hloaded : t.space.HasFamily c) :
      Viewing.Yields s.classes (View.methods c r) t True fun _ table => table = c.methodTable :=
    View.methods_yields hs.population c r t ht hr fun _ => hloaded
  refine ⟨⟨c.methodTable, (hs.current_yields hc hfamily hmethods).finds, c.tabulates_methodTable⟩,
    ?_⟩
  intro r hr
  exact ⟨c.methodTable, (hmethods r s.realm hs.coherent hr hfamily).finds, c.tabulates_methodTable⟩

def base : LoadedClass where
  no := 1
  name := "Base"
  modifiers := .publicOnly
  superclass := some .root
  interfaces := []
  fields := []
  methods := [⟨"this$2$run", [], "void", .publicOnly⟩, ⟨"run", [], "void", .publicOnly⟩]
  constructors := []

/-- A class with overloads that differ in their parameters, in the result alone or by a bridge, and
with a protocol method that its superclass has as well. -/
def derived : LoadedClass where
  no := 2
  name := "Derived"
  modifiers := .publicOnly
  superclass := some base
  interfaces := []
  fields := []
  methods := [
    ⟨"run", ["String"], "void", .publicOnly⟩,
    ⟨"run", ["Object"], "void", .publicOnly⟩,
    ⟨"run", ["Object"], "int", .publicOnly⟩,
    ⟨"run", [], "void", { isBridge := true }⟩,
    ⟨"run+1", [], "void", .publicOnly⟩,
    ⟨"this$2$run", ["String"], "void", .publicOnly⟩,
    ⟨"this$2$run", [], "void", .publicOnly⟩]
  constructors := []

/-- The table of the superclass is kept when that of the class is made. -/
def overloadActions : List Action := [
  .addLoader,
  .define 0 { name := "Base", methods := base.methods },
  .define 0 { name := "Derived", superclass := some "Base", methods := derived.methods },
  .describe 1,
  .look 0 .methods]

/-- The table of the derived class has its overloads and the protocol methods of both classes. -/
theorem methods_tabulate_derived :
    let s : Session Unit := (start .slot fun _ _ => true).run overloadActions
    derived ∈ s.classes ∧ s.realm.space.HasFamily derived ∧
      ∃ table, (Viewing.recordOf derived >>= View.methods derived).Finds s.realm table ∧
        ((table.find "run").map (·.id)).Perm [.method 2 0, .method 2 1, .method 2 2] ∧
          table.find "run+1" = [] ∧
        (table.findProtocol "this$2$run").map (·.id) = [.method 2 5, .method 2 6, .method 1 0] := by
  intro s
  have hmem : derived ∈ s.classes := by
    have hclasses : s.classes = [.root, base, derived] := rfl
    simp [hclasses]
  have hfamily : s.realm.space.HasFamily derived := by
    intro no _
    have hunloaded : s.realm.space.unloaded = [] := rfl
    rw [ClassSpace.isLoaded, hunloaded]
    rfl
  obtain ⟨table, hfound, htable⟩ :=
    (methods_tabulate .slot _ overloadActions derived hmem hfamily).1
  refine ⟨hmem, hfamily, table, hfound, ?_, (htable "run+1").find_nil (.inl (by decide +kernel)),
    ?_⟩
  · exact ((htable "run").perm (by decide +kernel) (by decide +kernel)).map (·.id)
  · rw [(htable "this$2$run").protocol (by decide +kernel) (by decide +kernel)]
    decide +kernel

end Session

end Metaobject
