import Metaobject.Proofs.Reflection.Coherence
import Metaobject.Reflection.SlotTable

/-!
# Requests to class values with slots

The slots of all class values stand side by side on the classes. For one class value only its own
slots count: taken out of the table they make a class value by itself, and a request to it is
answered as by that one. Everything that a request can do to the table is said once, and what it
leaves alone follows from it.

* `SlotTable.alone?`: what the table holds for one class value, as a class value that has all slots
  for itself.
* `SlotTable.effect_of_reply`: what a request can do to the table.
* `SlotTable.Effect.alone?_of_ne`: it does nothing to other class values.
* `SlotTable.reply_eq_alone`: the class value itself answers, and changes, as it would by itself.
-/

namespace Metaobject

/-! ## Operations of slot tables -/

/-- Writing to a class notes it, and forgets the classes that are no longer in use. -/
theorem SlotBook.mem_written_note {b : SlotBook} {inUse : ClassNo → Bool} {c d : ClassNo} :
    d ∈ (b.note inUse c).written ↔ (d ∈ b.written ∧ inUse d = true) ∨ d = c := by
  unfold note
  dsimp only
  split
  · rename_i hc
    rw [← List.mem_filter]
    exact ⟨.inl, fun hd => hd.elim id fun hd => hd ▸ hc⟩
  · rw [List.mem_append, List.mem_filter, List.mem_singleton]

namespace SlotTable

variable {α : Type} (t : SlotTable α) (c : ClassNo) (i j : ValueNo)

theorem book?_setBook (b : SlotBook) :
    (t.setBook i b).book? j = if j = i then (t.book? j).map fun _ => b else t.book? j := by
  refine List.lookup_replace (fun entry => ?_) t.books
  split <;> rfl

theorem book?_create :
    t.create.book? j = (t.book? j).or (if j = t.next then some {} else none) := by
  unfold book? create
  rw [List.lookup_append, List.lookup_cons_eq_ite]
  rfl

/-- Emptying slots of one class value, class by class. -/
theorem foldl_clear (cs : List ClassNo) :
    cs.foldl (fun t c => t.clear c i) t =
      { t with slots := t.slots.filter fun slot => !(slot.1.2 == i && cs.contains slot.1.1) } := by
  induction cs generalizing t with
  | nil => simp
  | cons c cs ih =>
    rw [List.foldl_cons, ih]
    unfold clear
    rw [List.filter_filter]
    congr 1
    refine List.filter_congr fun slot _ => ?_
    obtain ⟨⟨d, k⟩, x⟩ := slot
    rw [Bool.eq_iff_iff]
    simp only [List.contains_cons, Bool.and_eq_true, Bool.not_eq_true', Bool.and_eq_false_iff,
      beq_eq_false_iff_ne, Bool.or_eq_false_iff, bne_iff_ne, ne_eq, Prod.mk.injEq]
    tauto

/-- The classes whose slots a class value empties when it is dropped. -/
def emptied (inUse : ClassNo → Bool) : List ClassNo :=
  ((t.book? i).elim [] (·.written)).filter inUse

theorem drop_eq (inUse : ClassNo → Bool) :
    t.drop inUse i =
      { t with
        slots :=
          t.slots.filter fun slot => !(slot.1.2 == i && (t.emptied i inUse).contains slot.1.1)
        books := t.books.filter (·.1 != i) } := by
  unfold drop
  dsimp only
  rw [foldl_clear]
  rfl

/-- Dropping a value drops its book. -/
theorem book?_drop (inUse : ClassNo → Bool) :
    (t.drop inUse i).book? j = if j = i then none else t.book? j := by
  rw [drop_eq]
  unfold book?
  rw [List.lookup_filter_bne]

/-- What asking for a value comes to: it is there, or it is computed and stays, or it is computed
for nothing. -/
theorem get_cases {b : SlotBook} (hb : t.book? i = some b) (space : ClassSpace)
    (inUse : ClassNo → Bool) (compute : Nat → α) :
    (∃ x, t.slot? c i = some x ∧ t.get space inUse i c compute = some (x, t)) ∨
    (t.slot? c i = none ∧ space.isLoaded c = true ∧
      t.get space inUse i c compute = some (compute b.computations,
        { t with slots := t.slots ++ [((c, i), compute b.computations)] }.setBook i
          ({ b with computations := b.computations + 1 }.note inUse c))) ∨
    (t.slot? c i = none ∧ space.isLoaded c = false ∧
      t.get space inUse i c compute = some (compute b.computations,
        t.setBook i { b with computations := b.computations + 1 })) := by
  unfold get
  rw [hb, Option.map_some]
  cases hslot : t.slot? c i with
  | some x => exact .inl ⟨x, rfl, rfl⟩
  | none =>
    cases hloaded : space.isLoaded c with
    | true =>
      have hfilled :
        ({ t with slots := t.slots ++ [((c, i), compute b.computations)] } : SlotTable α).slot? c i
          = some (compute b.computations) := by
        have hnone : t.slots.lookup (c, i) = none := hslot
        unfold slot?
        rw [List.lookup_append, hnone, List.lookup_cons_self]
        rfl
      refine .inr (.inl ⟨rfl, rfl, ?_⟩)
      simp only [fill, hloaded, hslot, hfilled, if_true, Option.isSome_some]
    | false =>
      refine .inr (.inr ⟨rfl, rfl, ?_⟩)
      simp [fill, hloaded, hslot]

/-! ## One class value by itself -/

/-- What classes hold for a class value. -/
def held : List (ClassNo × α) := (t.slots.filter (·.1.2 == i)).map fun slot => (slot.1.1, slot.2)

/-- A class value as if it had all slots for itself. -/
def alone? : Option (ClassValue α) :=
  (t.book? i).map fun b => { backend := .slot, entries := t.held i, computations := b.computations }

theorem alone?_of_book? {b : SlotBook} (hb : t.book? i = some b) :
    t.alone? i =
      some { backend := .slot, entries := t.held i, computations := b.computations } := by
  unfold alone?
  rw [hb, Option.map_some]

/-- What a value holds is what its slots hold. -/
theorem lookup_held : (t.held i).lookup c = t.slot? c i := by
  unfold held slot?
  induction t.slots with
  | nil => rfl
  | cons slot slots ih =>
    obtain ⟨⟨d, k⟩, x⟩ := slot
    by_cases hk : k = i
    · rw [List.filter_cons_of_pos (by simpa using hk), List.map_cons, List.lookup_cons,
        List.lookup_cons, ih]
      have hkey : (c == d) = ((c, i) == (d, k)) := by
        rw [Bool.eq_iff_iff, beq_iff_eq, beq_iff_eq, Prod.mk.injEq]
        exact (and_iff_left hk.symm).symm
      rw [hkey]
    · rw [List.filter_cons_of_neg (by simpa using hk), ih, List.lookup_cons]
      have hkey : ((c, i) == (d, k)) = false := by
        rw [beq_eq_false_iff_ne]
        intro heq
        exact hk (Prod.mk.inj heq).2.symm
      rw [hkey]

/-- Emptying slots empties some of each class value. -/
theorem held_filter {keep : (ClassNo × ValueNo) × α → Bool} {own : ClassNo × α → Bool}
    (h : ∀ slot ∈ t.slots, slot.1.2 = i → keep slot = own (slot.1.1, slot.2)) :
    ({ t with slots := t.slots.filter keep } : SlotTable α).held i = (t.held i).filter own := by
  unfold held
  rw [List.filter_map, List.filter_filter, List.filter_filter]
  congr 1
  refine List.filter_congr fun slot hslot => ?_
  cases hi : slot.1.2 == i with
  | true =>
    rw [Bool.true_and, Bool.and_true]
    exact h slot hslot (eq_of_beq hi)
  | false => rw [Bool.false_and, Bool.and_false]

theorem held_filter_eq_self {keep : (ClassNo × ValueNo) × α → Bool}
    (h : ∀ slot ∈ t.slots, slot.1.2 = i → keep slot = true) :
    ({ t with slots := t.slots.filter keep } : SlotTable α).held i = t.held i :=
  (t.held_filter i h).trans (List.filter_true _)

theorem alone?_sweep (keeps : ClassNo → Bool) :
    (t.sweep keeps).alone? i =
      (t.alone? i).map fun v =>
        { v with entries := v.entries.filter fun entry => keeps entry.1 } := by
  have hheld : (t.sweep keeps).held i = (t.held i).filter fun entry => keeps entry.1 :=
    t.held_filter i fun _ _ _ => rfl
  unfold alone?
  rw [hheld, Option.map_map]
  rfl

/-- A dropped value stands alone no longer, and the others are as they were. -/
theorem alone?_drop (inUse : ClassNo → Bool) :
    (t.drop inUse i).alone? j = if i = j then none else t.alone? j := by
  unfold alone?
  rw [book?_drop]
  by_cases hij : i = j
  · rw [if_pos hij, if_pos hij.symm]
    rfl
  · have hheld : (t.drop inUse i).held j = t.held j := by
      rw [drop_eq]
      refine t.held_filter_eq_self j fun slot _ hslot => ?_
      have hne : (slot.1.2 == i) = false :=
        beq_eq_false_iff_ne.mpr fun heq => hij (heq.symm.trans hslot)
      rw [hne]
      rfl
    rw [if_neg hij, if_neg (Ne.symm hij), hheld]

theorem held_append (x : α) :
    ({ t with slots := t.slots ++ [((c, i), x)] } : SlotTable α).held j
      = if i = j then t.held j ++ [(c, x)] else t.held j := by
  unfold held
  rw [List.filter_append, List.map_append]
  split
  · rename_i hij
    rw [List.filter_cons_of_pos (by simpa using hij)]
    rfl
  · rename_i hij
    rw [List.filter_cons_of_neg (by simpa using hij)]
    exact List.append_nil _

end SlotTable

/-! ## Requests -/

/-- What is asked of a class value. -/
inductive SlotRequest (α : Type) where
  /-- The value of a class, with how it would be computed from the number of values computed
  before. -/
  | get (c : ClassNo) (compute : Nat → α)
  | contains (c : ClassNo)
  | remove (c : ClassNo)
  | computations

/-- What a request answers. -/
inductive SlotAnswer (α : Type) where
  | value (x : α)
  | contained (b : Bool)
  | removed (x : Option α)
  | computed (n : Nat)
deriving DecidableEq, Repr

/-- The classes that a request names. -/
def SlotRequest.classes {α : Type} : SlotRequest α → List ClassNo
  | get c _ | contains c | remove c => [c]
  | computations => []

/-- The answer of a class value that keeps its values by itself, and the class value afterwards. -/
def ClassValue.reply {α : Type} (v : ClassValue α) (space : ClassSpace) :
    SlotRequest α → SlotAnswer α × ClassValue α
  | .get c compute => (.value (v.get space c compute).1, (v.get space c compute).2)
  | .contains c => (.contained (v.find? space c).isSome, v)
  | .remove c => (.removed (v.remove c).1, (v.remove c).2)
  | .computations => (.computed v.computations, v)

namespace SlotTable

variable {α : Type} {t : SlotTable α} {space : ClassSpace} {inUse : ClassNo → Bool} {i j : ValueNo}

/-- The answer of a class value with slots, and the table afterwards. -/
def reply (t : SlotTable α) (space : ClassSpace) (inUse : ClassNo → Bool) (i : ValueNo) :
    SlotRequest α → Option (SlotAnswer α × SlotTable α)
  | .get c compute => (t.get space inUse i c compute).map fun r => (.value r.1, r.2)
  | .contains c => (t.book? i).map fun _ => (.contained (t.slot? c i).isSome, t)
  | .remove c => (t.book? i).map fun _ => (.removed (t.slot? c i), t.clear c i)
  | .computations => (t.book? i).map fun b => (.computed b.computations, t)

theorem reply_eq_none (h : t.book? i = none) (r : SlotRequest α) :
    t.reply space inUse i r = none := by
  cases r <;> simp [reply, get, h]

theorem alone?_setBook (b : SlotBook) :
    (t.setBook i b).alone? j =
      if j = i then (t.alone? j).map fun v => { v with computations := b.computations }
        else t.alone? j := by
  unfold alone?
  rw [book?_setBook]
  split
  · cases t.book? j <;> rfl
  · rfl

/-- What a request can do to a table: nothing, put a value into an empty slot and note it, compute a
value that does not stay, or empty a slot. -/
inductive Effect (t : SlotTable α) (space : ClassSpace)
    (inUse : ClassNo → Bool) (i : ValueNo) (b : SlotBook) :
    SlotTable α → Prop where
  | nothing : Effect t space inUse i b t
  | written (c : ClassNo) (x : α) (hloaded : space.isLoaded c = true) (huse : inUse c = true) :
      Effect t space inUse i b ({ t with slots := t.slots ++ [((c, i), x)] }.setBook i
        ({ b with computations := b.computations + 1 }.note inUse c))
  | computed : Effect t space inUse i b (t.setBook i { b with computations := b.computations + 1 })
  | emptied (c : ClassNo) : Effect t space inUse i b (t.clear c i)

/-- Every request that is answered has one of these effects. -/
theorem effect_of_reply {r : SlotRequest α} (hr : r.classes.all inUse = true) {a : SlotAnswer α}
    {t' : SlotTable α} (h : t.reply space inUse i r = some (a, t')) :
    ∃ b, t.book? i = some b ∧ Effect t space inUse i b t' := by
  cases hb : t.book? i with
  | none =>
    rw [reply_eq_none hb] at h
    cases h
  | some b =>
    refine ⟨b, rfl, ?_⟩
    cases r with
    | get c compute =>
      have huse : inUse c = true := by simpa [SlotRequest.classes] using hr
      obtain ⟨r, hget, heq⟩ := Option.map_eq_some_iff.mp h
      cases heq
      -- a value is found, or computed and kept, or computed for a class that is gone
      rcases t.get_cases c i hb space inUse compute with ⟨x, -, hr⟩ | ⟨-, hloaded, hr⟩ | ⟨-, -, hr⟩
      · cases hget.symm.trans hr
        exact .nothing
      · cases hget.symm.trans hr
        exact .written c _ hloaded huse
      · cases hget.symm.trans hr
        exact .computed
    | contains c =>
      rw [reply, hb] at h
      cases h
      exact .nothing
    | remove c =>
      rw [reply, hb] at h
      cases h
      exact .emptied c
    | computations =>
      rw [reply, hb] at h
      cases h
      exact .nothing

namespace Effect

variable {b : SlotBook} {t' : SlotTable α}

theorem next_eq (h : Effect t space inUse i b t') : t'.next = t.next := by
  cases h <;> rfl

/-- A request does nothing to other class values. -/
theorem alone?_of_ne (h : Effect t space inUse i b t') (hij : i ≠ j) :
    t'.alone? j = t.alone? j := by
  cases h with
  | nothing => rfl
  | written c x =>
    rw [alone?_setBook, if_neg hij.symm]
    unfold alone?
    rw [held_append, if_neg hij]
    rfl
  | computed => rw [alone?_setBook, if_neg hij.symm]
  | emptied c =>
    have hheld : (t.clear c i).held j = t.held j := by
      refine t.held_filter_eq_self j fun slot _ hslot => ?_
      refine bne_iff_ne.mpr fun heq => hij ?_
      rw [← hslot, heq]
    unfold alone?
    rw [hheld]
    rfl

end Effect

/-- No slot is hidden from the class value by itself, which looks at loaded classes only. -/
theorem find?_alone (hloaded : ∀ slot ∈ t.slots, space.isLoaded slot.1.1 = true) {v : ClassValue α}
    (hv : t.alone? i = some v) (c : ClassNo) : v.find? space c = t.slot? c i := by
  obtain ⟨b, -, rfl⟩ := Option.map_eq_some_iff.mp hv
  unfold ClassValue.find?
  split
  · exact t.lookup_held c i
  · rename_i hc
    cases hslot : t.slot? c i with
    | none => rfl
    | some x => exact absurd (hloaded _ (List.mem_of_lookup hslot)) hc

/-- A value in slots is asked like a value that stands alone. -/
theorem get_eq_alone (hloaded : ∀ slot ∈ t.slots, space.isLoaded slot.1.1 = true) {v : ClassValue α}
    (hv : t.alone? i = some v) (c : ClassNo) (compute : Nat → α) :
    ∃ t', t.get space inUse i c compute = some ((v.get space c compute).1, t') ∧
      t'.alone? i = some (v.get space c compute).2 := by
  have hfind := find?_alone hloaded hv c
  obtain ⟨b, hb, rfl⟩ := Option.map_eq_some_iff.mp hv
  unfold ClassValue.get
  rw [hfind]
  rcases t.get_cases c i hb space inUse compute with
    ⟨x, hslot, hr⟩ | ⟨hslot, hc, hr⟩ | ⟨hslot, hc, hr⟩
  · rw [hr, hslot]
    exact ⟨t, rfl, hv⟩
  · rw [hr, hslot]
    have hbook :
      ({ t with slots := t.slots ++ [((c, i), compute b.computations)] } : SlotTable α).book? i =
      some b := hb
    refine ⟨_, rfl, ?_⟩
    rw [alone?_setBook, if_pos rfl, alone?_of_book? _ _ hbook, held_append, if_pos rfl]
    simp [ClassValue.store, hc, SlotBook.note]
  · rw [hr, hslot]
    refine ⟨_, rfl, ?_⟩
    rw [alone?_setBook, if_pos rfl, hv]
    simp [ClassValue.store, hc]

/-- A class value with slots answers as if it had all slots for itself, if no unloaded class has
any. -/
theorem reply_eq_alone (hloaded : ∀ slot ∈ t.slots, space.isLoaded slot.1.1 = true)
    {v : ClassValue α} (hv : t.alone? i = some v) (r : SlotRequest α) :
    ∃ t', t.reply space inUse i r = some ((v.reply space r).1, t') ∧
      t'.alone? i = some (v.reply space r).2 := by
  obtain ⟨b, hb, hown⟩ := Option.map_eq_some_iff.mp hv
  cases r with
  | get c compute =>
    obtain ⟨t', hget, halone⟩ := get_eq_alone hloaded hv c compute
    refine ⟨t', ?_, halone⟩
    rw [reply, hget]
    rfl
  | contains c =>
    refine ⟨t, ?_, hv⟩
    rw [reply, hb, ← find?_alone hloaded hv]
    rfl
  | remove c =>
    subst hown
    refine ⟨t.clear c i, ?_, ?_⟩
    · rw [reply, hb, ← lookup_held]
      rfl
    · -- clearing a slot of the table takes the class out of what this value holds
      have hheld : (t.clear c i).held i = (t.held i).filter (·.1 != c) := by
        refine held_filter t i fun slot _ hslot => ?_
        obtain ⟨⟨d, k⟩, x⟩ := slot
        subst hslot
        rw [Bool.eq_iff_iff, bne_iff_ne, bne_iff_ne]
        simp
      rw [alone?_of_book? _ _ (show (t.clear c i).book? i = some b from hb), hheld]
      rfl
  | computations =>
    subst hown
    refine ⟨t, ?_, hv⟩
    rw [reply, hb]
    rfl

end SlotTable

end Metaobject
