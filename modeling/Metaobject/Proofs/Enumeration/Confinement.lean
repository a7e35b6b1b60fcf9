import Metaobject.Proofs.Annotation.Totality
import Metaobject.Proofs.ClassTable.Mentions
import Metaobject.Enumeration.Constructors
import Metaobject.Enumeration.Members

/-!
# Completed enums mention classes of the table

The code that an enum gets mentions the enum itself, built-in classes, the bodies of its constants,
and what the arguments of its constants and the parameters of its superclass mention.

* `Enumeration.below_complete` and `Enumeration.below_addInit`: members.
* `Enumeration.below_completeConstructors`: constructors.
-/

namespace Metaobject

namespace Enumeration

variable {n : Nat} {calls : Bool} {t : ClassTable} {id : ClassId} {self : TypeRef} {c : ClassDecl}

/-! ## Members -/

/-- The new fields name the enum and built-in classes. -/
theorem below_addFields (hasConstants : Bool) (hself : Below n self.classIds)
    (hc : Below n (c.mentions calls)) :
    Below n ((addFields hasConstants self c).mentions calls) := by
  rw [ClassDecl.below_mentions] at hc ⊢
  obtain ⟨hheader, hfields, hrest⟩ := hc
  -- behind the fields of the class stand the array of constants and the two markers
  refine ⟨hheader, List.forall_mem_append.mpr ⟨List.forall_mem_append.mpr ⟨hfields, ?_⟩, ?_⟩, hrest⟩
  · refine List.forall_mem_singleton.mpr ?_
    simpa [Field.mentions, TypeRef.classIds] using hself
  · refine List.forall_mem_map.mpr fun name _ => ?_
    simpa [Field.mentions] using hself

/-- The companion methods name the enum and built-in classes. -/
theorem below_companions (hn : 25 ≤ n) (hid : id < n) (hself : Below n self.classIds) :
    ∀ m ∈ companions id self, Below n (m.mentions calls) := by
  have hint : Builtin.int < n := Nat.lt_of_lt_of_le (by decide) hn
  have hstring : Builtin.string < n := Nat.lt_of_lt_of_le (by decide) hn
  have henum : Builtin.enumBase < n := Nat.lt_of_lt_of_le (by decide) hn
  have hstep : Below n (self.classIds ++ [] ++ [Builtin.int, id, id] ++ [] ++ []) := by
    simp [hint, hid, hself]
  intro m hm
  -- `next` and `previous` mention the same classes: the enum and the type of their counter
  simp only [companions, List.mem_cons, List.not_mem_nil, or_false] at hm
  rcases hm with rfl | rfl | rfl | rfl
  · simp [Method.mentions, TypeRef.classIds, Stmt.mentions, Stmt.returning, Expr.callOn,
      Expr.mentions, Expr.fieldOf, MethodName.mentions, hid, hself]
  · cases calls <;> exact hstep
  · cases calls <;> exact hstep
  · simp [Method.mentions, Param.mentions, Param.plain, Builtin.stringType, TypeRef.classIds,
      Stmt.mentions, Stmt.returning, Expr.callStatic, Expr.mentions, Expr.literal, Expr.param,
      Binding.classIds, hstring, henum, hself]

/-- Adding methods below the bound stays below it. -/
theorem below_addMethods {ms : List Method} (hms : ∀ m ∈ ms, Below n (m.mentions calls))
    (hc : Below n (c.mentions calls)) :
    Below n ({ c with methods := c.methods ++ ms }.mentions calls) := by
  rw [ClassDecl.below_mentions] at hc ⊢
  obtain ⟨hheader, hfields, hmethods, hrest⟩ := hc
  exact ⟨hheader, hfields, List.forall_mem_append.mpr ⟨hmethods, hms⟩, hrest⟩

theorem below_addCompanions (hn : 25 ≤ n) (hid : id < n) (hself : Below n self.classIds)
    (hc : Below n (c.mentions calls)) : Below n ((addCompanions id self c).mentions calls) :=
  below_addMethods (fun m hm => below_companions hn hid hself m (List.mem_of_mem_filter hm)) hc

/-- `$INIT` names the enum and built-in classes. -/
theorem below_addInit (hn : 25 ≤ n) (isFinal : Bool) (hself : Below n self.classIds)
    (hc : Below n (c.mentions calls)) : Below n ((addInit self isFinal c).mentions calls) := by
  have hobject : Builtin.object < n := Nat.lt_of_lt_of_le (by decide) hn
  rw [addInit]
  split
  · exact hc
  · refine below_addMethods (List.forall_mem_singleton.mpr ?_) hc
    simp [Method.mentions, Param.mentions, Param.plain, Builtin.objectType, TypeRef.classIds,
      Stmt.mentions, Stmt.returning, Expr.thisCall, Expr.mentions, Expr.spreadOf, Expr.param,
      Binding.classIds, ConstructorKind.classIds, hobject, hself]

/-! ## The static initializer -/

/-- A planned constant belongs to a class of the table, and its arguments stand in the enum. -/
theorem below_planned (ht : t.Confined calls) (hn : t.Numbered) (hget : t.get? id = some c)
    {p : PlannedConstant} (hp : p ∈ t.plannedConstants c) :
    p.owner < t.size ∧ ∀ e ∈ p.args, Below t.size (e.mentions calls) := by
  obtain ⟨⟨f, ordinal⟩, hf, hplan⟩ := List.mem_filterMap.mp hp
  have hfield : f ∈ c.fields := List.mem_of_mem_filter (List.fst_mem_of_mem_zipIdx hf)
  have hself : c.id < t.size := hn id c hget ▸ ClassTable.lt_size_of_get? hget
  dsimp only at hplan
  split at hplan
  · cases hplan
  · cases hplan
    refine ⟨?_, fun e he => ?_⟩
    · -- the body that a literal names is looked up in the table
      cases hbody : t.constantBody? c.id f with
      | none => exact hself
      | some body =>
        obtain ⟨e, -, hliteral⟩ := List.exists_of_findSome?_eq_some hbody
        unfold ClassTable.bodyLiteral? at hliteral
        split at hliteral
        · exact ClassTable.lt_of_any_get? (Option.filter_eq_some_iff.mp hliteral).2
        · cases hliteral
    · -- an argument stands in the initializer of the constant
      have harg : e ∈ f.constantArgs := List.mem_of_mem_filter he
      have hinit : Below t.size (f.init.elim [] (Expr.mentions calls)) := by
        have hmentions := (ClassDecl.below_mentions.mp (ht.get? hget)).2.1 f hfield
        simp only [Field.mentions, below_append] at hmentions
        exact hmentions.1.2
      unfold Field.constantArgs at harg
      split at harg
      · rename_i es span hlist
        rw [hlist] at hinit
        exact Expr.below_mentionsAll.mp hinit e harg
      · rename_i e' _ hsingle
        rw [List.mem_singleton.mp harg]
        rwa [hsingle] at hinit
      · cases harg

/-- The constructions mention the classes of the constants and their arguments. -/
theorem below_constructions (hid : id < n) : (planned : List PlannedConstant) →
    (∀ p ∈ planned, p.owner < n ∧ ∀ e ∈ p.args, Below n (e.mentions calls)) →
      ∀ s ∈ constructions t id planned, Below n (s.mentions calls) := by
  intro planned hplanned s hs
  obtain ⟨p, hp, rfl⟩ := List.mem_map.mp hs
  obtain ⟨howner, hargs⟩ := hplanned p hp
  show Below n
    ([id] ++ (p.owner :: Expr.mentionsAll calls (.string p.name :: .int p.ordinal :: p.args)
    ++ callIds calls none none))
  simpa [Expr.mentions, Expr.string, Expr.int, hid, howner] using hargs

/-- The marker stores mention the enum only. -/
theorem below_markerStores (hid : id < n) (planned : List PlannedConstant) :
    ∀ s ∈ markerStores id planned, Below n (s.mentions calls) := by
  have hstore : Below n ([id] ++ [id]) := by simp [hid]
  unfold markerStores
  split
  · exact List.forall_mem_cons.mpr ⟨hstore, List.forall_mem_singleton.mpr hstore⟩
  · simp

/-- So does the array of constants, with the type of the enum. -/
theorem below_arrayStore (hid : id < n) (hself : Below n self.classIds)
    (planned : List PlannedConstant) : Below n ((arrayStore id self planned).mentions calls) := by
  show Below n
    ([id] ++ (self.classIds ++ Expr.mentionsAll calls (planned.map fun p => .fieldOf id p.name)))
  simp [Expr.mentions, Expr.fieldOf, hid, hself]

/-- The new static initializer mentions nothing beyond this. -/
theorem below_addStaticInit {planned : List PlannedConstant} (hid : id < n)
    (hself : Below n self.classIds)
    (hplanned : ∀ p ∈ planned, p.owner < n ∧ ∀ e ∈ p.args, Below n (e.mentions calls))
    (hc : Below n (c.mentions calls)) :
    Below n ((addStaticInit t id self planned c).mentions calls) := by
  rw [ClassDecl.below_mentions] at hc ⊢
  obtain ⟨hheader, hfields, hmethods, hconstructors, hstatic, hannotations⟩ := hc
  refine ⟨hheader, hfields, hmethods, hconstructors, fun s hs => ?_, hannotations⟩
  simp only [addStaticInit, List.mem_append, List.mem_cons] at hs
  rcases hs with (hs | hs) | rfl | hs
  · exact below_constructions hid planned hplanned s hs
  · exact below_markerStores hid planned s hs
  · exact below_arrayStore hid hself planned
  · exact hstatic s hs

/-- Dropping initializers mentions nothing new. -/
theorem below_dropInitializers (hc : Below n (c.mentions calls)) :
    Below n ((dropInitializers c).mentions calls) := by
  rw [ClassDecl.below_mentions] at hc ⊢
  obtain ⟨hheader, hfields, hrest⟩ := hc
  refine ⟨hheader, fun f' hf' => ?_, hrest⟩
  obtain ⟨f, hf, rfl⟩ := List.mem_map.mp hf'
  have hfield := hfields f hf
  split
  · simp only [Field.mentions, below_append] at hfield ⊢
    exact ⟨⟨hfield.1.1, below_nil⟩, hfield.2⟩
  · exact hfield

theorem below_modifiers (modifiers : Modifiers) (hc : Below n (c.mentions calls)) :
    Below n ({ c with modifiers }.mentions calls) := hc

/-- A completed enum mentions classes of the table only. -/
theorem below_complete (ht : t.Confined calls) (hb : t.Based) (hget : t.get? id = some c) :
    Below t.size ((complete t id c).mentions calls) := by
  have hid : id < t.size := ClassTable.lt_size_of_get? hget
  have hself : Below t.size (t.typeRef id).classIds := by
    simp [ClassTable.typeRef, TypeRef.classIds, hid]
  have hplanned := fun p => below_planned (p := p) ht hb.numbered hget
  refine below_dropInitializers (below_modifiers _ ?_)
  exact below_addStaticInit hid hself hplanned (below_addInit hb.builtins _ hself
    (below_addCompanions hb.builtins hid hself (below_addFields _ hself (ht.get? hget))))

/-! ## Constructors -/

theorem below_plain {name : String} {type : TypeRef} (h : Below n type.classIds) :
    Below n ((Param.plain name type).mentions calls) := by
  simpa [Param.mentions, Param.plain] using h

/-- Passing hidden parameters on mentions nothing new. -/
theorem below_passHidden {hidden forward : List Expr}
    (hhidden : ∀ e ∈ hidden, Below n (e.mentions calls))
    (hforward : ∀ e ∈ forward, Below n (e.mentions calls)) {body : Block}
    (hbody : ∀ s ∈ body, Below n (s.mentions calls)) :
    ∀ s ∈ passHidden hidden forward body, Below n (s.mentions calls) := by
  unfold passHidden
  split
  · rename_i args d span rest
    rw [List.forall_mem_cons] at hbody ⊢
    refine ⟨?_, hbody.2⟩
    have hcall := hbody.1
    simp only [Stmt.mentions, Expr.mentions, below_append, Expr.below_mentionsAll] at hcall ⊢
    refine ⟨⟨hcall.1.1, List.forall_mem_append.mpr ⟨hhidden, hcall.1.2⟩⟩, hcall.2⟩
  · refine List.forall_mem_cons.mpr ⟨?_, hbody⟩
    simp only [Stmt.mentions, Expr.superCall, Expr.mentions, ConstructorKind.classIds, below_append,
      Expr.below_mentionsAll, callIds_none, below_nil, true_and, and_true]
    exact List.forall_mem_append.mpr ⟨hhidden, hforward⟩

/-- The hidden parameters have built-in types. -/
theorem below_addHidden (hn : 25 ≤ n) (forward : Bool) {k : Constructor}
    (hk : Below n (k.mentions calls)) : Below n ((addHidden forward k).mentions calls) := by
  have hint : Builtin.int < n := Nat.lt_of_lt_of_le (by decide) hn
  have hstring : Builtin.string < n := Nat.lt_of_lt_of_le (by decide) hn
  have hparam (name : String) : Below n ((Expr.param name).mentions calls) := below_nil
  rw [addHidden]
  split
  · exact hk
  · simp only [Constructor.mentions, below_append, Param.below_mentionsAll, Stmt.below_mentionsAll,
      List.forall_mem_cons] at hk ⊢
    refine ⟨⟨⟨below_plain ?_, below_plain ?_, hk.1.1⟩, below_passHidden ?_ ?_ hk.1.2⟩, hk.2⟩
    · simp [Builtin.stringType, TypeRef.classIds, hstring]
    · simp [Builtin.intType, TypeRef.classIds, hint]
    · simp [hparam]
    · split <;> simp [hparam]

/-- Repeating a constructor mentions nothing new. -/
theorem below_repeated {k : Constructor} (hk : Below n (k.mentions calls)) :
    Below n ((repeated k).mentions calls) := by
  simp only [Constructor.mentions, below_append, Param.below_mentionsAll] at hk
  show Below n
    (Param.mentionsAll calls (if k.hiddenParams then k.params.drop 2 else k.params) ++ [] ++ [])
  rw [List.append_nil, List.append_nil, Param.below_mentionsAll]
  split
  · exact fun p hp => hk.1.1 p (List.mem_of_mem_drop hp)
  · exact hk.1.1

/-- The default constructors only mention classes of the table. -/
theorem below_defaultConstructors (hb : t.Based) (ht : t.Confined calls) :
    ∀ k ∈ defaultConstructors t c, Below t.size (k.mentions calls) := by
  have hmap : Builtin.map < t.size := ClassTable.builtin_lt hb (by decide)
  have hreject : Builtin.illegalArgument < t.size := ClassTable.builtin_lt hb (by decide)
  have hplain : ∀ k ∈ bodyConstructors, Below t.size (k.mentions calls) := by
    have hfirst : Below t.size ([Builtin.map] ++ [] ++ [] ++ []) := by simp [hmap]
    exact List.forall_mem_cons.mpr ⟨hfirst, List.forall_mem_singleton.mpr below_nil⟩
  unfold defaultConstructors
  split
  · cases hparent : c.superId?.bind t.get? with
    | none => exact hplain
    | some parent =>
      rw [Option.map_some]
      split
      · exact hplain
      · exact hplain
      · -- the constructors of the superclass, which is a class of the table
        rename_i ks _ hks
        intro k hk
        obtain ⟨k', hk', rfl⟩ := List.mem_map.mp hk
        obtain ⟨i, -, hget⟩ := Option.bind_eq_some_iff.mp hparent
        rw [← Option.some.inj hks] at hk'
        exact below_repeated ((ClassDecl.below_mentions.mp (ht.get? hget)).2.2.2.1 k' hk')
  · -- one constructor takes a map and may throw; the other one mentions nothing
    have hmapConstructor :
      Below t.size ([Builtin.map] ++ [] ++ [] ++ [Builtin.illegalArgument] ++ []) := by
      simp [hmap, hreject]
    refine List.forall_mem_cons.mpr ⟨?_, List.forall_mem_singleton.mpr ?_⟩
    · cases calls <;> exact hmapConstructor
    · cases calls <;> exact below_nil

/-- Completed constructors mention classes of the table only. -/
theorem below_completeConstructors (hb : t.Based) (ht : t.Confined calls)
    (hc : Below t.size (c.mentions calls)) :
    Below t.size ((completeConstructors t c).mentions calls) := by
  rw [ClassDecl.below_mentions] at hc ⊢
  obtain ⟨hheader, hfields, hmethods, hconstructors, hrest⟩ := hc
  refine ⟨hheader, hfields, hmethods, fun k hk => ?_, hrest⟩
  obtain ⟨k', hk', rfl⟩ := List.mem_map.mp hk
  refine below_addHidden hb.builtins _ ?_
  split at hk'
  · exact below_defaultConstructors hb ht k' hk'
  · exact hconstructors k' hk'

end Enumeration

end Metaobject
