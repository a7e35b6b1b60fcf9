import Metaobject.Proofs.Reflection.SlotRequests

/-!
# Class values that share their classes

Every class value with slots has its own list of the classes on which it has written, and only this
list says what has to be emptied when it is dropped. A history follows the table of all slots
through everything that can happen: class values are created, asked and dropped, and classes are
unloaded and given up.

* `SlotHistory.Sound`: slots are on loaded classes in use only, and are noted;
  `SlotHistory.Sound.step` carries it through every event.
* `SlotHistory.Sound.lone_step`: what an event does to one class value is what it does to a class
  value by itself, which hears nothing of requests to others.
* `SlotHistory.isolated_and_tidy`: class values do not disturb each other, and leave nothing behind.
-/

namespace Metaobject

/-! ## Histories -/

/-- Something that happens to class values with slots, or to classes. -/
inductive SlotEvent (α : Type) where
  /-- A class value is created, under the next number. -/
  | create
  | ask (i : ValueNo) (r : SlotRequest α)
  | drop (i : ValueNo)
  | unload (c : ClassNo)
  /-- Nobody holds other classes any more. -/
  | release (kept : ClassNo → Bool)

namespace SlotEvent

variable {α : Type}

/-- The class value that an event is about. -/
def addressee? : SlotEvent α → Option ValueNo
  | ask i _ | drop i => some i
  | _ => none

/-- What a class value is asked by an event. -/
def request? (j : ValueNo) : SlotEvent α → Option (SlotRequest α)
  | ask i r => if i = j then some r else none
  | _ => none

end SlotEvent

/-- Class values with slots, and what changes about classes. -/
structure SlotHistory (α : Type) where
  space : ClassSpace
  table : SlotTable α := {}
  /-- The classes that somebody holds. -/
  inUse : ClassNo → Bool := fun _ => true

namespace SlotHistory

variable {α : Type}

/-- The answer to a request, and the table afterwards. Only class values and classes that somebody
holds can be asked and asked about. -/
def serve (h : SlotHistory α) (i : ValueNo) (r : SlotRequest α) :
    Option (SlotAnswer α × SlotTable α) :=
  if r.classes.all h.inUse then h.table.reply h.space h.inUse i r else none

/-- What an event does to a history. -/
def step (h : SlotHistory α) : SlotEvent α → SlotHistory α
  | .create => { h with table := h.table.create }
  | .ask i r => { h with table := (h.serve i r).elim h.table (·.2) }
  | .drop i => { h with table := h.table.drop h.inUse i }
  | .unload c => { h with space := h.space.markUnloaded c, table := h.table.sweep (· != c) }
  | .release kept => { h with table := h.table.sweep kept, inUse := fun c => h.inUse c && kept c }

/-- The history after some events. -/
def run (h : SlotHistory α) (events : List (SlotEvent α)) : SlotHistory α := events.foldl step h

/-- What a class value answers to the requests among some events. -/
def answersOf (j : ValueNo) : SlotHistory α → List (SlotEvent α) → List (Option (SlotAnswer α))
  | _, [] => []
  | h, e :: rest =>
    ((e.request? j).map fun r => (h.serve j r).map (·.1)).toList ++ answersOf j (h.step e) rest

/-! ## What is kept -/

/-- Slots are on loaded classes in use, and their class values have noted them. -/
structure Sound (h : SlotHistory α) : Prop where
  loaded : ∀ slot ∈ h.table.slots, h.space.isLoaded slot.1.1 = true
  inUse : ∀ slot ∈ h.table.slots, h.inUse slot.1.1 = true
  noted : ∀ slot ∈ h.table.slots, ∃ b, h.table.book? slot.1.2 = some b ∧ slot.1.1 ∈ b.written
  /-- Only numbers that were given away are in use. -/
  numbered : ∀ i b, h.table.book? i = some b → i < h.table.next

theorem start_sound (space : ClassSpace) : Sound ({ space } : SlotHistory α) where
  loaded := fun slot hslot => absurd hslot List.not_mem_nil
  inUse := fun slot hslot => absurd hslot List.not_mem_nil
  noted := fun slot hslot => absurd hslot List.not_mem_nil
  numbered := by rintro i b ⟨⟩

namespace Sound

variable {h : SlotHistory α} {i j : ValueNo}

/-- Where a slot is filled, the book of its value says so. -/
theorem exists_noted (hs : h.Sound) {c : ClassNo} {x : α} (hx : h.table.slot? c i = some x) :
    ∃ b, h.table.book? i = some b ∧ c ∈ b.written :=
  hs.noted _ (List.mem_of_lookup hx)

/-- A class value that is not in use has nothing on any class. -/
theorem held_eq_nil (hs : h.Sound) (hb : h.table.book? i = none) : h.table.held i = [] := by
  unfold SlotTable.held
  rw [List.map_eq_nil_iff, List.filter_eq_nil_iff]
  intro slot hslot hi
  obtain ⟨b, hbook, -⟩ := hs.noted slot hslot
  rw [eq_of_beq hi, hb] at hbook
  cases hbook

/-- Slots may be emptied. -/
theorem filter (hs : h.Sound) (keep : (ClassNo × ValueNo) × α → Bool) :
    Sound { h with table := { h.table with slots := h.table.slots.filter keep } } where
  loaded := fun slot hslot => hs.loaded slot (List.mem_of_mem_filter hslot)
  inUse := fun slot hslot => hs.inUse slot (List.mem_of_mem_filter hslot)
  noted := fun slot hslot => hs.noted slot (List.mem_of_mem_filter hslot)
  numbered := hs.numbered

/-- A class value may note more, and forget classes that are gone. -/
theorem setBook (hs : h.Sound) {b : SlotBook} (hb : h.table.book? i = some b) (b' : SlotBook)
    (hkeep : ∀ c ∈ b.written, h.inUse c = true → c ∈ b'.written) :
    Sound { h with table := h.table.setBook i b' } where
  loaded := hs.loaded
  inUse := hs.inUse
  noted := by
    intro slot hslot
    obtain ⟨old, hold, hmem⟩ := hs.noted slot hslot
    show ∃ b, (h.table.setBook i b').book? slot.1.2 = some b ∧ _
    rw [SlotTable.book?_setBook]
    split
    · rename_i hi
      rw [hi, hb] at hold
      cases hold
      rw [hi, hb]
      exact ⟨b', rfl, hkeep _ hmem (hs.inUse slot hslot)⟩
    · exact ⟨old, hold, hmem⟩
  numbered := by
    intro k bk hbk
    have hbk : (h.table.setBook i b').book? k = some bk := hbk
    rw [SlotTable.book?_setBook] at hbk
    split at hbk
    · rename_i hk
      exact hs.numbered k b (hk ▸ hb)
    · exact hs.numbered k bk hbk

/-- A noted slot on a loaded class in use may be filled. -/
theorem append (hs : h.Sound) {b : SlotBook} (hb : h.table.book? i = some b) {c : ClassNo}
    (hc : c ∈ b.written) (hloaded : h.space.isLoaded c = true) (huse : h.inUse c = true) (x : α) :
    Sound { h with table := { h.table with slots := h.table.slots ++ [((c, i), x)] } } := by
  have hslots : ∀ slot ∈ h.table.slots ++ [((c, i), x)], slot ∈ h.table.slots ∨
    slot = ((c, i), x) := by
    intro slot hslot
    rwa [List.mem_append, List.mem_singleton] at hslot
  refine ⟨?_, ?_, ?_, hs.numbered⟩
  · intro slot hslot
    rcases hslots slot hslot with hslot | rfl
    · exact hs.loaded slot hslot
    · exact hloaded
  · intro slot hslot
    rcases hslots slot hslot with hslot | rfl
    · exact hs.inUse slot hslot
    · exact huse
  · intro slot hslot
    rcases hslots slot hslot with hslot | rfl
    · exact hs.noted slot hslot
    · exact ⟨b, hb, hc⟩

/-- What a request may do to a table keeps the history sound. -/
theorem effect (hs : h.Sound) {b : SlotBook} (hb : h.table.book? i = some b) {t : SlotTable α}
    (heffect : h.table.Effect h.space h.inUse i b t) : Sound { h with table := t } := by
  cases heffect with
  | nothing => exact hs
  | written c x hloaded huse =>
    -- seen as two steps: the class value notes the class, and then the slot is filled; pruning its
    -- list on the occasion loses no class that holds a slot, since those are in use
    have hnoted := hs.setBook hb ({ b with computations := b.computations + 1 }.note h.inUse c)
      fun d hd hduse => SlotBook.mem_written_note.mpr (.inl ⟨hd, hduse⟩)
    have hbook :
      (h.table.setBook i ({ b with computations := b.computations + 1 }.note h.inUse c)).book? i
        = some ({ b with computations := b.computations + 1 }.note h.inUse c) := by
      rw [SlotTable.book?_setBook, if_pos rfl, hb, Option.map_some]
    exact hnoted.append hbook (SlotBook.mem_written_note.mpr (.inr rfl)) hloaded huse x
  | computed => exact hs.setBook hb _ fun d hd _ => hd
  | emptied c => exact hs.filter _

theorem create (hs : h.Sound) : Sound { h with table := h.table.create } where
  loaded := hs.loaded
  inUse := hs.inUse
  noted := by
    intro slot hslot
    obtain ⟨b, hb, hmem⟩ := hs.noted slot hslot
    refine ⟨b, ?_, hmem⟩
    show h.table.create.book? slot.1.2 = some b
    rw [SlotTable.book?_create, hb, Option.some_or]
  numbered := by
    intro k b hb
    have hb : h.table.create.book? k = some b := hb
    rw [SlotTable.book?_create] at hb
    show k < h.table.next + 1
    cases hk : h.table.book? k with
    | some old => exact Nat.lt_succ_of_lt (hs.numbered k old hk)
    | none =>
      rw [hk, Option.none_or] at hb
      split at hb
      · rename_i hnext
        exact hnext ▸ Nat.lt_succ_self _
      · cases hb

/-- Every slot of a class value is noted, so that dropping the class value leaves none. -/
theorem drop (hs : h.Sound) (i : ValueNo) : Sound { h with table := h.table.drop h.inUse i } := by
  have hother : ∀ slot ∈ (h.table.drop h.inUse i).slots, slot ∈ h.table.slots ∧ slot.1.2 ≠ i := by
    intro slot hslot
    rw [SlotTable.drop_eq] at hslot
    obtain ⟨hslot, hkept⟩ := List.mem_filter.mp hslot
    refine ⟨hslot, fun hi => ?_⟩
    -- a slot of the dropped class value is noted, and on a class in use, so it was emptied
    obtain ⟨b, hb, hmem⟩ := hs.noted slot hslot
    have hemptied : slot.1.1 ∈ h.table.emptied i h.inUse := by
      rw [hi] at hb
      unfold SlotTable.emptied
      rw [hb]
      exact List.mem_filter.mpr ⟨hmem, hs.inUse slot hslot⟩
    simp [hi, hemptied] at hkept
  refine ⟨?_, ?_, ?_, ?_⟩
  · exact fun slot hslot => hs.loaded slot (hother slot hslot).1
  · exact fun slot hslot => hs.inUse slot (hother slot hslot).1
  · intro slot hslot
    obtain ⟨hslot, hne⟩ := hother slot hslot
    obtain ⟨b, hb, hmem⟩ := hs.noted slot hslot
    refine ⟨b, ?_, hmem⟩
    show (h.table.drop h.inUse i).book? slot.1.2 = some b
    rw [SlotTable.book?_drop, if_neg hne, hb]
  · intro k b hb
    have hb : (h.table.drop h.inUse i).book? k = some b := hb
    rw [SlotTable.book?_drop] at hb
    split at hb
    · cases hb
    · show k < (h.table.drop h.inUse i).next
      rw [SlotTable.drop_eq]
      exact hs.numbered k b hb

/-- Unloading a class keeps the history sound. -/
theorem unload (hs : h.Sound) (c : ClassNo) :
    Sound { h with space := h.space.markUnloaded c, table := h.table.sweep (· != c) } := by
  have hswept := hs.filter fun slot => slot.1.1 != c
  refine ⟨?_, hswept.inUse, hswept.noted, hswept.numbered⟩
  intro slot hslot
  obtain ⟨hslot, hne⟩ := List.mem_filter.mp hslot
  have hne : (slot.1.1 != c) = true := hne
  show (h.space.markUnloaded c).isLoaded slot.1.1 = true
  rw [ClassSpace.isLoaded_markUnloaded, hne, hs.loaded slot hslot]
  rfl

theorem release (hs : h.Sound) (kept : ClassNo → Bool) :
    Sound { h with table := h.table.sweep kept, inUse := fun c => h.inUse c && kept c } := by
  have hswept := hs.filter fun slot => kept slot.1.1
  refine ⟨hswept.loaded, ?_, hswept.noted, hswept.numbered⟩
  intro slot hslot
  obtain ⟨hslot, hkept⟩ := List.mem_filter.mp hslot
  show (h.inUse slot.1.1 && kept slot.1.1) = true
  rw [hkept, hs.inUse slot hslot]
  rfl

end Sound

theorem step_of_unanswered {h : SlotHistory α} {i : ValueNo} {r : SlotRequest α}
    (hserve : h.serve i r = none) : h.step (.ask i r) = h := by
  show { h with table := (h.serve i r).elim h.table (·.2) } = h
  rw [hserve]
  rfl

theorem step_of_answered {h : SlotHistory α} {i : ValueNo} {r : SlotRequest α} {a : SlotAnswer α}
    {t : SlotTable α} (hserve : h.serve i r = some (a, t)) :
    h.step (.ask i r) = { h with table := t } := by
  show { h with table := (h.serve i r).elim h.table (·.2) } = { h with table := t }
  rw [hserve]
  rfl

theorem effect_of_answered {h : SlotHistory α} {i : ValueNo} {r : SlotRequest α} {a : SlotAnswer α}
    {t : SlotTable α} (hserve : h.serve i r = some (a, t)) :
    ∃ b, h.table.book? i = some b ∧ h.table.Effect h.space h.inUse i b t := by
  unfold serve at hserve
  split at hserve
  · rename_i hr
    exact SlotTable.effect_of_reply hr hserve
  · cases hserve

/-- Every event keeps the history sound. -/
protected theorem Sound.step {h : SlotHistory α} (hs : h.Sound) (e : SlotEvent α) :
    (h.step e).Sound := by
  cases e with
  | create => exact hs.create
  | ask i r =>
    cases hserve : h.serve i r with
    | none =>
      rw [step_of_unanswered hserve]
      exact hs
    | some p =>
      obtain ⟨b, hb, heffect⟩ := effect_of_answered hserve
      rw [step_of_answered hserve]
      exact hs.effect hb heffect
  | drop i => exact hs.drop i
  | unload c => exact hs.unload c
  | release kept => exact hs.release kept

protected theorem Sound.run {h : SlotHistory α} (hs : h.Sound) (events : List (SlotEvent α)) :
    (h.run events).Sound :=
  List.foldlRecOn events step hs fun _ hs e _ => hs.step e

end SlotHistory

/-! ## One class value along a history -/

/-- A class value that has all slots for itself, and what it hears of the rest. -/
structure LoneValue (α : Type) where
  space : ClassSpace
  inUse : ClassNo → Bool
  /-- The number of the next class value. -/
  next : ValueNo
  /-- The class value, while it is in use. -/
  value : Option (ClassValue α)

namespace LoneValue

variable {α : Type}

def serve (l : LoneValue α) (r : SlotRequest α) : Option (SlotAnswer α × ClassValue α) :=
  if r.classes.all l.inUse then l.value.map (·.reply l.space r) else none

/-- What an event does to the class value with the number `j`. -/
def step (j : ValueNo) (l : LoneValue α) : SlotEvent α → LoneValue α
  | .create =>
    { l with
      next := l.next + 1
      value := l.value.or (if j = l.next then some { backend := .slot } else none) }
  | .ask i r => if i = j then { l with value := (l.serve r).elim l.value fun p => some p.2 } else l
  | .drop i => if i = j then { l with value := none } else l
  | .unload c =>
    { l with space := l.space.markUnloaded c, value := l.value.map (·.classUnloaded c) }
  | .release kept =>
    { l with
      inUse := fun c => l.inUse c && kept c
      value := l.value.map fun v => { v with entries := v.entries.filter fun entry => kept entry.1 }
        }

/-- What the class value answers to the requests among some events. -/
def answers (j : ValueNo) : LoneValue α → List (SlotEvent α) → List (Option (SlotAnswer α))
  | _, [] => []
  | l, e :: rest =>
    ((e.request? j).map fun r => (l.serve r).map (·.1)).toList ++ answers j (l.step j e) rest

/-- What is done to another class value is not heard. -/
theorem step_of_ne {i j : ValueNo} (hij : i ≠ j) {e : SlotEvent α} (he : e.addressee? = some i)
    (l : LoneValue α) : l.step j e = l := by
  cases e with
  | ask k r =>
    cases he
    exact if_neg hij
  | drop k =>
    cases he
    exact if_neg hij
  | create => cases he
  | unload c => cases he
  | release kept => cases he

/-- A class value that was dropped does not come back: its number is not given away again. -/
theorem stays_dropped {j : ValueNo} {l : LoneValue α} (hvalue : l.value = none) (hnext : j < l.next)
    (e : SlotEvent α) : (l.step j e).value = none ∧ j < (l.step j e).next := by
  -- numbers are given in ascending order, so a value made later has another number
  cases e with
  | create =>
    refine ⟨?_, Nat.lt_succ_of_lt hnext⟩
    show l.value.or _ = none
    rw [hvalue, Option.none_or, if_neg (Nat.ne_of_lt hnext)]
  | ask i r =>
    have hserve : l.serve r = none := by
      unfold serve
      rw [hvalue]
      split <;> rfl
    unfold step
    dsimp only
    rw [hserve]
    split <;> exact ⟨hvalue, hnext⟩
  | drop i =>
    unfold step
    dsimp only
    split
    · exact ⟨rfl, hnext⟩
    · exact ⟨hvalue, hnext⟩
  | unload c =>
    refine ⟨?_, hnext⟩
    show l.value.map _ = none
    rw [hvalue, Option.map_none]
  | release kept =>
    refine ⟨?_, hnext⟩
    show l.value.map _ = none
    rw [hvalue, Option.map_none]

end LoneValue

namespace SlotHistory

variable {α : Type} {h : SlotHistory α} {i j : ValueNo}

/-- What a history is for one class value. -/
def lone (h : SlotHistory α) (j : ValueNo) : LoneValue α :=
  ⟨h.space, h.inUse, h.table.next, h.table.alone? j⟩

namespace Sound

/-- A class value along a history answers as it would by itself, and is afterwards what it would
be. -/
theorem serve_eq_lone (hs : h.Sound) (j : ValueNo) (r : SlotRequest α) :
    (h.serve j r = none ∧ (h.lone j).serve r = none) ∨
      ∃ a t v, h.serve j r = some (a, t) ∧ (h.lone j).serve r = some (a, v) ∧
        lone { h with table := t } j = { h.lone j with value := some v } := by
  have hlone : (h.lone j).serve r
      = if r.classes.all h.inUse then (h.table.alone? j).map (·.reply h.space r) else none := rfl
  rw [hlone]
  unfold serve
  split
  · rename_i hr
    cases hv : h.table.alone? j with
    | none =>
      have hb : h.table.book? j = none := Option.map_eq_none_iff.mp hv
      exact .inl ⟨SlotTable.reply_eq_none hb r, rfl⟩
    | some v =>
      obtain ⟨t, hreply, halone⟩ := SlotTable.reply_eq_alone hs.loaded hv r
      obtain ⟨b, -, heffect⟩ := SlotTable.effect_of_reply hr hreply
      refine .inr ⟨_, t, _, hreply, rfl, ?_⟩
      show LoneValue.mk _ _ t.next (t.alone? j) = LoneValue.mk _ _ h.table.next _
      rw [heffect.next_eq, halone]
      rfl
  · exact .inl ⟨rfl, rfl⟩

/-- A new value stands alone with no entries. -/
theorem alone?_create (hs : h.Sound) (j : ValueNo) :
    h.table.create.alone? j = (h.table.alone? j).or
      (if j = h.table.next then some { backend := .slot } else none) := by
  unfold SlotTable.alone?
  rw [SlotTable.book?_create]
  cases hb : h.table.book? j with
  | some b => rfl
  | none =>
    have hheld : h.table.create.held j = [] := hs.held_eq_nil hb
    rw [Option.none_or, Option.map_none, Option.none_or, hheld]
    split <;> rfl

end Sound

/-- What an event does to one class value is what it does to a class value by itself. -/
theorem Sound.lone_step (hs : h.Sound) (e : SlotEvent α) (j : ValueNo) :
    (h.step e).lone j = (h.lone j).step j e := by
  cases e with
  | create =>
    show LoneValue.mk _ _ _ (h.table.create.alone? j) = LoneValue.mk _ _ _ _
    rw [hs.alone?_create]
    rfl
  | ask i r =>
    by_cases hij : i = j
    · subst hij
      have hstep : (h.lone i).step i (.ask i r) =
          { h.lone i with
            value := ((h.lone i).serve r).elim (h.lone i).value fun p => some p.2 } := if_pos rfl
      rw [hstep]
      rcases hs.serve_eq_lone i r with ⟨hserve, hlone⟩ | ⟨a, t, v, hserve, hlone, hafter⟩
      · rw [step_of_unanswered hserve, hlone]
        rfl
      · rw [step_of_answered hserve, hlone, hafter]
        rfl
    · -- a request to another class value: nothing is heard of it on the right,
      -- and its effect stays away on the left
      rw [LoneValue.step_of_ne hij rfl]
      cases hserve : h.serve i r with
      | none => rw [step_of_unanswered hserve]
      | some p =>
        obtain ⟨b, -, heffect⟩ := effect_of_answered hserve
        rw [step_of_answered hserve]
        show LoneValue.mk _ _ p.2.next (p.2.alone? j) = LoneValue.mk _ _ h.table.next
          (h.table.alone? j)
        rw [heffect.next_eq, heffect.alone?_of_ne hij]
  | drop i =>
    have hnext : (h.table.drop h.inUse i).next = h.table.next := by rw [SlotTable.drop_eq]
    show LoneValue.mk _ _ (h.table.drop h.inUse i).next ((h.table.drop h.inUse i).alone? j) = _
    rw [SlotTable.alone?_drop, hnext]
    unfold LoneValue.step lone
    dsimp only
    split <;> rfl
  | unload c =>
    show LoneValue.mk _ _ _ ((h.table.sweep (· != c)).alone? j) = LoneValue.mk _ _ _
      ((h.table.alone? j).map _)
    rw [SlotTable.alone?_sweep]
    unfold SlotTable.alone?
    cases h.table.book? j <;> rfl
  | release kept =>
    show LoneValue.mk _ _ _ ((h.table.sweep kept).alone? j) = LoneValue.mk _ _ _ _
    rw [SlotTable.alone?_sweep]
    rfl

/-- Along every history a class value answers as it would by itself. -/
theorem Sound.answersOf_eq_lone (hs : h.Sound) (j : ValueNo) (events : List (SlotEvent α)) :
    h.answersOf j events = (h.lone j).answers j events := by
  -- along the events; both sides take the same step, by `lone_step`
  induction events generalizing h with
  | nil => rfl
  | cons e rest ih =>
    have hanswer : ∀ r, (h.serve j r).map (·.1) = ((h.lone j).serve r).map (·.1) := by
      intro r
      rcases hs.serve_eq_lone j r with ⟨hserve, hlone⟩ | ⟨a, t, v, hserve, hlone, -⟩
      · rw [hserve, hlone]
        rfl
      · rw [hserve, hlone]
        rfl
    unfold answersOf LoneValue.answers
    rw [ih (hs.step e), hs.lone_step]
    simp only [hanswer]

theorem Sound.slot?_eq_none_of_dropped (hs : h.Sound) (hvalue : (h.lone i).value = none)
    (c : ClassNo) : h.table.slot? c i = none := by
  have hb : h.table.book? i = none := Option.map_eq_none_iff.mp hvalue
  rw [← SlotTable.lookup_held, hs.held_eq_nil hb]
  rfl

/-- A class value that was dropped has nothing on any class, whatever happens afterwards. -/
theorem Sound.slot?_run_eq_none (hs : h.Sound) (hvalue : (h.lone i).value = none)
    (hnext : i < h.table.next) (events : List (SlotEvent α)) (c : ClassNo) :
    (h.run events).table.slot? c i = none := by
  -- along the events; that the number was given away before keeps the class value from being
  -- created again
  induction events generalizing h with
  | nil => exact hs.slot?_eq_none_of_dropped hvalue c
  | cons e rest ih =>
    have hstays := LoneValue.stays_dropped (l := h.lone i) hvalue hnext e
    rw [← hs.lone_step] at hstays
    exact ih (hs.step e) hstays.1 hstays.2

/-- After any history: every class value answers as one that has all slots for itself, whatever
happens next. What is asked of a class value, or its drop, changes no answer of another. Every class
that holds something for a class value is loaded, and the class value has noted it. When a class
value is dropped, no class holds anything for it from then on. -/
theorem isolated_and_tidy (space : ClassSpace) (events : List (SlotEvent α)) :
    let h := run { space } events
    (∀ j rest, h.answersOf j rest = (h.lone j).answers j rest) ∧
    (∀ i j, i ≠ j → ∀ e, e.addressee? = some i →
      ∀ rest, (h.step e).answersOf j rest = h.answersOf j rest) ∧
    (∀ c i x, h.table.slot? c i = some x →
      h.space.isLoaded c = true ∧ ∃ b, h.table.book? i = some b ∧ c ∈ b.written) ∧
    (∀ i b, h.table.book? i = some b →
      ∀ rest c, ((h.step (.drop i)).run rest).table.slot? c i = none) := by
  intro h
  have hs : h.Sound := (start_sound space).run events
  refine ⟨fun j rest => hs.answersOf_eq_lone j rest, ?_, ?_, ?_⟩
  · intro i j hij e he rest
    rw [(hs.step e).answersOf_eq_lone, hs.answersOf_eq_lone, hs.lone_step,
      LoneValue.step_of_ne hij he]
  · intro c i x hx
    exact ⟨hs.loaded _ (List.mem_of_lookup hx), hs.exists_noted hx⟩
  · intro i b hb rest c
    have hlone : (h.step (.drop i)).lone i = { h.lone i with value := none } := by
      rw [hs.lone_step]
      exact if_pos rfl
    refine (hs.step (.drop i)).slot?_run_eq_none ?_ ?_ rest c
    · rw [hlone]
    · show i < ((h.step (.drop i)).lone i).next
      rw [hlone]
      exact hs.numbered i b hb

/-- Two class values on the classes 1, 2 and 3: a value is removed and computed again, one class is
unloaded, and another given up. -/
def usage : List (SlotEvent String) := [
  .create, .create, .ask 0 (.get 1 fun _ => "a"), .ask 1 (.get 1 fun _ => "b"),
  .ask 0 (.get 2 fun _ => "c"), .ask 0 (.get 3 fun _ => "d"), .ask 0 (.remove 1), .unload 2,
  .release (· != 3), .ask 0 (.get 1 fun _ => "e")]

/-- Two values through requests, an unloaded class, a released class and a dropped value. -/
theorem isolated_and_tidy_usage :
    let h := run { space := {} } usage
    let rest : List (SlotEvent String) :=
      [.ask 1 (.get 1 fun _ => "f"), .create, .ask 1 .computations]
    h.answersOf 1 rest = (h.lone 1).answers 1 rest ∧
    h.answersOf 1 rest = [some (.value "b"), some (.computed 1)] ∧
    (h.step (.drop 0)).answersOf 1 rest = h.answersOf 1 rest ∧
    (h.table.slot? 1 0 = some "e" ∧ h.space.isLoaded 1 = true ∧ ∃ b, h.table.book? 0 = some b ∧
      1 ∈ b.written) ∧
    (h.table.book? 0 = some ⟨[1, 2], 4⟩ ∧
      ((h.step (.drop 0)).run rest).table.slot? 1 0 = none) := by
  obtain ⟨halone, hisolated, hnoted, hdropped⟩ := isolated_and_tidy {} usage
  exact ⟨halone 1 _,
    by decide, hisolated 0 1 (by decide) (.drop 0) rfl _, ⟨by decide, hnoted 1 0 "e" (by decide)⟩,
    by decide, hdropped 0 ⟨[1, 2], 4⟩ (by decide) _ 1⟩

end SlotHistory

end Metaobject
