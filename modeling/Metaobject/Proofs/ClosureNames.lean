import Mathlib.Data.List.Forall2
import Mathlib.Data.List.Nodup
import Mathlib.Data.List.Perm.Subperm
import Metaobject.ClosureClass
import Metaobject.Proofs.AssociationList

/-!
# Closure classes do not collide

The name of a closure class is put together from the name of the enclosing class, the name of the
method and a number. Different classes and methods can give the same text, and a class from source
may have taken it, so a number is used only if the table does not know its name. The search for a
number ends: numbers tell names apart, so a table of `n` classes cannot know the names of `n + 1`
numbers.

* `ClosureClass.isFirstFree_nextNumber`: the number that is found is the first one after the counter
  whose name is free.
* `ClosureClass.addClosureClass_adds`: what one closure adds to a table.
* `ClosureClass.addClosureClasses_distinct`: any number of closures, in any classes, one after the
  other.
-/

namespace Metaobject

namespace ClassTable

variable (t : ClassTable)

/-- A name is free exactly if no class has it. -/
theorem lookup_eq_none_iff {name : String} :
    t.lookup name = none ↔ name ∉ t.classes.map (·.name) := by
  simp [lookup]

/-- A name means the class that took it last. -/
theorem lookup_add (c : ClassDecl) (name : String) :
    (t.add c).lookup name = if c.name = name then some t.size else t.lookup name := by
  rw [lookup, add, List.reverse_append, List.reverse_singleton, List.singleton_append,
    List.find?_cons]
  by_cases h : c.name = name
  · simp [h]
  · simp [h, lookup, beq_eq_false_iff_ne.mpr h]

end ClassTable

namespace ClosureClass

variable {t : ClassTable} {outer method : String} {fuel last : Nat}

/-! ## Numbers -/

/-- Different numbers give different names. -/
theorem numberedName_injective (outer method : String) :
    Function.Injective (numberedName outer method) := by
  intro a b h
  have hrepr : a.repr = b.repr := by simpa [numberedName] using h
  have hdigits : Nat.toDigits 10 a = Nat.toDigits 10 b := by
    rw [← Nat.toList_repr, ← Nat.toList_repr, hrepr]
  calc
    a = Nat.ofDigitChars 10 (Nat.toDigits 10 a) 0 := Nat.ofDigitChars_ten_toDigits.symm
    _ = Nat.ofDigitChars 10 (Nat.toDigits 10 b) 0 := by rw [hdigits]
    _ = b := Nat.ofDigitChars_ten_toDigits

/-- The first number after `last` whose name the table does not know. -/
structure IsFirstFree (t : ClassTable) (outer method : String) (last number : Nat) : Prop where
  lt : last < number
  free : t.lookup (numberedName outer method number) = none
  taken : ∀ k, last < k → k < number → t.lookup (numberedName outer method k) ≠ none

/-- The next number is greater than the last one. -/
theorem lt_nextNumber (t : ClassTable) (outer method : String) (fuel last : Nat) :
    last < nextNumber t outer method fuel last := by
  induction fuel generalizing last with
  | zero => exact Nat.lt_succ_self last
  | succ fuel ih =>
    rw [nextNumber]
    split
    · exact Nat.lt_trans (Nat.lt_succ_self last) (ih (last + 1))
    · exact Nat.lt_succ_self last

/-- The search passes only over names that are taken. -/
theorem taken_of_lt_nextNumber {k : Nat} (hlast : last < k)
    (hk : k < nextNumber t outer method fuel last) :
    t.lookup (numberedName outer method k) ≠ none := by
  induction fuel generalizing last with
  | zero =>
    rw [nextNumber] at hk
    omega
  | succ fuel ih =>
    rw [nextNumber] at hk
    split at hk
    · rename_i htaken
      by_cases hfirst : k = last + 1
      · rw [hfirst]
        exact Option.isSome_iff_ne_none.mp htaken
      · exact ih (by omega) hk
    · omega

/-- The search ends at a free name, or when it may go no further. -/
theorem free_or_nextNumber_eq (t : ClassTable) (outer method : String) (fuel last : Nat) :
    t.lookup (numberedName outer method (nextNumber t outer method fuel last)) = none ∨
      nextNumber t outer method fuel last = last + fuel + 1 := by
  induction fuel generalizing last with
  | zero => exact .inr rfl
  | succ fuel ih =>
    rw [nextNumber]
    split
    · refine (ih (last + 1)).imp_right fun heq => ?_
      omega
    · rename_i hfree
      exact .inl (by simpa using hfree)

/-- A table cannot know the names of more numbers than it has classes. -/
theorem exists_free (t : ClassTable) (outer method : String) (last : Nat) :
    ∃ k, last < k ∧ k ≤ last + t.size + 1 ∧ t.lookup (numberedName outer method k) = none := by
  by_contra hnone
  push Not at hnone
  have hnodup : ((List.range' (last + 1) (t.size + 1)).map (numberedName outer method)).Nodup :=
    (List.nodup_range' ..).map (numberedName_injective outer method)
  have hsubset : (List.range' (last + 1) (t.size + 1)).map (numberedName outer method) ⊆
    t.classes.map (·.name) := by
    intro name hname
    obtain ⟨k, hk, rfl⟩ := List.mem_map.mp hname
    rw [List.mem_range'_1] at hk
    have htaken := hnone k (by omega) (by omega)
    rwa [ne_eq, ClassTable.lookup_eq_none_iff, not_not] at htaken
  have hlength := (hnodup.subperm hsubset).length_le
  rw [List.length_map, List.length_range', List.length_map] at hlength
  exact absurd hlength (Nat.not_succ_le_self t.size)

/-- As many steps as there are classes are enough. -/
theorem isFirstFree_nextNumber (t : ClassTable) (outer method : String) (last : Nat) :
    IsFirstFree t outer method last (nextNumber t outer method t.size last) where
  lt := lt_nextNumber ..
  free := by
    rcases free_or_nextNumber_eq t outer method t.size last with hfree | hend
    · exact hfree
    · obtain ⟨k, hlast, hk, hfree⟩ := exists_free t outer method last
      rcases Nat.lt_or_eq_of_le hk with hk | hk
      · exact absurd hfree (taken_of_lt_nextNumber hlast (hend.symm ▸ hk))
      · rw [hend, ← hk]
        exact hfree
  taken _ hlast hk := taken_of_lt_nextNumber hlast hk

/-! ## One closure -/

/-- A closure that stands in a method of a class. -/
structure Call where
  outer : ClassId
  method : String
  closure : Closure

/-- A class has a field, an assignment and an accessor for each of some captured variables, in their
order, and a constructor that takes them after two other parameters. -/
structure Keeps (c : ClassDecl) (captured : List Capture) : Prop where
  fields : List.Forall₂ (fun f v => f.name = v.name ∧ f.type = v.type) c.fields captured
  constructor : ∃ k passed assigned, c.constructors = [k] ∧ k.params.length = captured.length + 2 ∧
    List.Forall₂ (fun p v => p.name = v.name ∧ p.type = v.type) (k.params.drop 2) captured ∧
    k.body = .expr (.superCall passed) :: assigned ∧
    List.Forall₂ (fun a v => a = .expr (.set (.fieldOf c.id v.name) (.param v.name)))
      assigned captured
  accessors : ∃ accessors call, c.methods = accessors ++ [call] ∧
    List.Forall₂ (fun m v => m.name = accessorName v.name ∧ m.params = [] ∧ m.returnType = v.type ∧
      m.body = some [.returning (.fieldOf c.id v.name)]) accessors captured

/-- What a closure does to a table and its counters: the class `c` is added under the next number,
and nothing else changes but the counter of the enclosing class. -/
structure Adds (s : ClassTable × ClosureCounters) (call : Call) (c : ClassDecl)
    (s' : ClassTable × ClosureCounters) :
    Prop where
  run : s.1.addClosureClass s.2 call.outer call.method call.closure = .ok s'
  classes : s'.1.classes = s.1.classes ++ [c]
  id : c.id = s.1.size
  outer : c.outer = some call.outer
  number : ∃ o number, s.1.get? call.outer = some o ∧
    c.name = numberedName o.name call.method number ∧
    IsFirstFree s.1 o.name call.method ((s.2.lookup call.outer).getD 0) number ∧
    ∀ id, s'.2.lookup id = if id = call.outer then some number else s.2.lookup id
  keeps : Keeps c call.closure.captured

/-- The class of a closure keeps what the closure captures. -/
theorem keeps_declaration (id outer : ClassId) (name : String) (closure : Closure) :
    Keeps { declaration id outer name closure with id } closure.captured where
  fields := List.forall₂_map_left_iff.mpr (List.forall₂_same.mpr fun _ _ => ⟨rfl, rfl⟩)
  constructor := by
    refine ⟨constructor id closure.captured, _, _, rfl, ?_, ?_, rfl, ?_⟩
    · simp [constructor]
    · exact List.forall₂_map_left_iff.mpr (List.forall₂_same.mpr fun _ _ => ⟨rfl, rfl⟩)
    · exact List.forall₂_map_left_iff.mpr (List.forall₂_same.mpr fun _ _ => rfl)
  accessors := by
    refine ⟨_, _, rfl, ?_⟩
    exact List.forall₂_map_left_iff.mpr (List.forall₂_same.mpr fun _ _ => ⟨rfl, rfl, rfl, rfl⟩)

/-- One counter is set, and the others stay. -/
theorem lookup_counters (counters : ClosureCounters) (outer id : ClassId) (number : Nat) :
    ((outer, number) :: counters.filter (·.1 != outer)).lookup id
      = if id = outer then some number else counters.lookup id := by
  rw [List.lookup_cons_eq_ite, List.lookup_filter_bne]
  split <;> rfl

/-- A closure in a class of the table adds its class. -/
theorem addClosureClass_adds (s : ClassTable × ClosureCounters) (call : Call)
    (houter : call.outer < s.1.size) : ∃ c s', Adds s call c s' := by
  obtain ⟨o, ho⟩ : ∃ o, s.1.get? call.outer = some o := ⟨_, List.getElem?_eq_getElem houter⟩
  have hget : s.1.get call.outer = .ok o := by rw [ClassTable.get, ho]
  let last := (s.2.lookup call.outer).getD 0
  let number := nextNumber s.1 o.name call.method s.1.size last
  let c := declaration s.1.size call.outer (numberedName o.name call.method number) call.closure
  refine ⟨{ c with id := s.1.size },
    (s.1.add c, (call.outer, number) :: s.2.filter (·.1 != call.outer)), ?_⟩
  constructor
  · rw [ClassTable.addClosureClass, hget]
    rfl
  · rfl
  · rfl
  · rfl
  · exact ⟨o, number, ho, rfl, isFirstFree_nextNumber ..,
      fun id => lookup_counters s.2 call.outer id number⟩
  · exact keeps_declaration ..

/-! ## Many closures -/

/-- What some closures add, one after the other. -/
inductive AddsAll : ClassTable × ClosureCounters → List Call → List ClassDecl →
    ClassTable × ClosureCounters → Prop
  | nil (s : ClassTable × ClosureCounters) : AddsAll s [] [] s
  | cons {s s' s'' : ClassTable × ClosureCounters} {call : Call} {c : ClassDecl} {calls : List Call}
      {cs : List ClassDecl} :
    Adds s call c s' → AddsAll s' calls cs s'' → AddsAll s (call :: calls) (c :: cs) s''

/-- The table and the counters after some closures. -/
def addAll (s : ClassTable × ClosureCounters) (calls : List Call) :
    Except Fault (ClassTable × ClosureCounters) :=
  calls.foldlM (fun s call => s.1.addClosureClass s.2 call.outer call.method call.closure) s

variable {s s' : ClassTable × ClosureCounters} {call : Call} {c : ClassDecl} {calls : List Call}
  {cs : List ClassDecl}

namespace Adds

/-- A closure adds one class. -/
theorem size (h : Adds s call c s') : s'.1.size = s.1.size + 1 := by
  rw [ClassTable.size, h.classes, List.length_append]
  rfl

/-- The name of the new class was free. -/
theorem lookup_name (h : Adds s call c s') : s.1.lookup c.name = none := by
  obtain ⟨o, number, -, hname, hfirst, -⟩ := h.number
  rw [hname]
  exact hfirst.free

/-- The new name means the new class, and all other names mean what they did. -/
theorem lookup (h : Adds s call c s') (name : String) :
    s'.1.lookup name = if c.name = name then some c.id else s.1.lookup name := by
  have htable : s'.1 = s.1.add c := by
    have hc : { c with id := s.1.size } = c := by rw [← h.id]
    rw [ClassTable.add, hc, ← h.classes]
  rw [htable, ClassTable.lookup_add, h.id]

end Adds

namespace AddsAll

/-- Closures that add their classes one after the other are a run. -/
theorem run (h : AddsAll s calls cs s') : addAll s calls = .ok s' := by
  induction h with
  | nil s => rfl
  | cons hadds _ ih =>
    rw [addAll, List.foldlM_cons, hadds.run]
    exact ih

/-- The new classes come behind the others. -/
theorem classes (h : AddsAll s calls cs s') : s'.1.classes = s.1.classes ++ cs := by
  induction h with
  | nil s => rw [List.append_nil]
  | cons hadds _ ih => rw [ih, hadds.classes, List.append_assoc, List.singleton_append]

/-- A name that means a class keeps its meaning. -/
theorem lookup_of_lookup (h : AddsAll s calls cs s') {name : String} {id : ClassId}
    (hname : s.1.lookup name = some id) : s'.1.lookup name = some id := by
  induction h with
  | nil s => exact hname
  | cons hadds _ ih =>
    apply ih
    rw [hadds.lookup, if_neg ?_]
    · exact hname
    · rintro rfl
      rw [hadds.lookup_name] at hname
      cases hname

/-- A name that is free after a closure was free before it, and is not the name of its class. -/
theorem lookup_name (h : AddsAll s calls cs s') (hc : c ∈ cs) : s.1.lookup c.name = none := by
  induction h with
  | nil s => cases hc
  | cons hadds _ ih =>
    rcases List.mem_cons.mp hc with rfl | hc
    · exact hadds.lookup_name
    · have hfree := ih hc
      rw [hadds.lookup] at hfree
      split at hfree
      · cases hfree
      · exact hfree

/-- The new names differ from each other. -/
theorem nodup (h : AddsAll s calls cs s') : (cs.map (·.name)).Nodup := by
  induction h with
  | nil s => exact List.nodup_nil
  | cons hadds hrest ih =>
    rw [List.map_cons, List.nodup_cons]
    refine ⟨fun hmem => ?_, ih⟩
    obtain ⟨d, hd, hname⟩ := List.mem_map.mp hmem
    have hfree := hrest.lookup_name hd
    rw [hadds.lookup, if_pos hname.symm] at hfree
    cases hfree

/-- Each new name means its class. -/
theorem lookup_new (h : AddsAll s calls cs s') (hc : c ∈ cs) : s'.1.lookup c.name = some c.id := by
  induction h with
  | nil s => cases hc
  | cons hadds hrest ih =>
    rcases List.mem_cons.mp hc with rfl | hc
    · exact hrest.lookup_of_lookup (by rw [hadds.lookup, if_pos rfl])
    · exact ih hc

/-- No closure fails whose enclosing class is in the table by then. -/
theorem exists_of_outers (s : ClassTable × ClosureCounters) (calls : List Call)
    (houters : ∀ i call, calls[i]? = some call → call.outer < s.1.size + i) :
    ∃ cs s', AddsAll s calls cs s' := by
  induction calls generalizing s with
  | nil => exact ⟨[], s, .nil s⟩
  | cons call calls ih =>
    obtain ⟨c, s', hadds⟩ := addClosureClass_adds s call (houters 0 call rfl)
    have hrest : ∀ i next, calls[i]? = some next → next.outer < s'.1.size + i := by
      intro i next hnext
      have hlt := houters (i + 1) next hnext
      rw [hadds.size]
      omega
    obtain ⟨cs, s'', hall⟩ := ih s' hrest
    exact ⟨c :: cs, s'', .cons hadds hall⟩

end AddsAll

/-- Any number of closures, in classes of the table or of earlier closures: every one gets its
class. The classes before stay as they are and keep their names, and the new classes have names that
were free, all different. -/
theorem closure_names_distinct (s : ClassTable × ClosureCounters) (calls : List Call)
    (houters : ∀ i call, calls[i]? = some call → call.outer < s.1.size + i) :
    ∃ cs s', addAll s calls = .ok s' ∧ AddsAll s calls cs s' ∧ s'.1.classes = s.1.classes ++ cs ∧
      (cs.map (·.name)).Nodup ∧
        (∀ c ∈ cs, s.1.lookup c.name = none ∧ s'.1.lookup c.name = some c.id) ∧
      ∀ name id, s.1.lookup name = some id → s'.1.lookup name = some id := by
  obtain ⟨cs, s', hall⟩ := AddsAll.exists_of_outers s calls houters
  exact ⟨cs, s', hall.run, hall, hall.classes, hall.nodup,
    fun c hc => ⟨hall.lookup_name hc, hall.lookup_new hc⟩,
    fun _ _ hname => hall.lookup_of_lookup hname⟩

/-- Two classes of one name, and a class that has taken the first name of their closures. -/
def widgetTable : ClassTable := ⟨[
  { ClassDecl.empty "Widget" .ordinary with id := 0 },
  { ClassDecl.empty "Widget" .ordinary with id := 1 },
  { ClassDecl.empty "Widget$_draw_closure1" .ordinary with id := 2 }]⟩

/-- A closure that captures one variable. -/
def drawClosure : Closure := ⟨[], [], [⟨"x", .unresolved "int"⟩], .synthetic⟩

/-- Closures of both classes in turn, and one inside the class of the first. -/
def widgetCalls : List Call :=
  [⟨0, "draw", drawClosure⟩, ⟨1, "draw", drawClosure⟩, ⟨0, "draw", drawClosure⟩,
    ⟨3, "doCall", drawClosure⟩]

/-- The four closures get four names, past the one that is taken. -/
theorem closure_names_distinct_widget :
    (∀ i call, widgetCalls[i]? = some call → call.outer < widgetTable.size + i) ∧
      ∃ cs s', addAll (widgetTable, []) widgetCalls = .ok s' ∧
        AddsAll (widgetTable, []) widgetCalls cs s' ∧
        (cs.map (·.name)).Nodup ∧
        cs.map (·.name) = ["Widget$_draw_closure2", "Widget$_draw_closure3",
          "Widget$_draw_closure4",
          "Widget$_draw_closure2$_doCall_closure1"] := by
  have houters : ∀ i call, widgetCalls[i]? = some call → call.outer < widgetTable.size + i := by
    intro i call hcall
    rcases i with _ | _ | _ | _ | i
    all_goals cases hcall
    all_goals decide
  obtain ⟨cs, s', hrun, hall, hclasses, hnodup, -⟩ :=
    closure_names_distinct (widgetTable, []) widgetCalls houters
  have hnames :
    (addAll (widgetTable, []) widgetCalls).toOption.map (fun s => (s.1.classes.drop 3).map (·.name))
      = some ["Widget$_draw_closure2", "Widget$_draw_closure3", "Widget$_draw_closure4",
          "Widget$_draw_closure2$_doCall_closure1"] := by
    decide +kernel
  have hnew : s'.1.classes.drop 3 = cs := by
    rw [hclasses]
    rfl
  rw [hrun, Except.toOption, Option.map_some, hnew, Option.some_inj] at hnames
  exact ⟨houters, cs, s', hrun, hall, hnodup, hnames⟩

end ClosureClass

end Metaobject
