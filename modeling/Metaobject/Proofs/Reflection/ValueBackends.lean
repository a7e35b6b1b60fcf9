import Mathlib.Data.List.Dedup
import Mathlib.Data.Nat.Log
import Metaobject.Proofs.Reflection.Coherence

/-!
# The backends of class values

Slots and maps forget values at different moments. A slot goes when its class is unloaded; a map
keeps the entry of an unloaded class until the next value is written into the same segment. No
answer shows the difference, apart from what is removed for an unloaded class: both backends are
read through `ClassValue.find?`, which sees loaded classes only, and what a request does to that
view is the same for both.

* `ClassValue.find?_get`, `find?_remove`, `find?_unload`: what requests do to the view, for either
  backend.
* `ValueState.Twins.agreeAlong`: two class values with segments, or slots, agree on every sequence
  of requests.
* `ValueBackend.map_agrees_iff`: for which numbers of segments there is a map that agrees with
  slots.
-/

namespace Metaobject

/-! ## Requests -/

/-- What is asked of a class value, or done to a class. -/
inductive ValueRequest where
  | get (c : ClassNo)
  | contains (c : ClassNo)
  | remove (c : ClassNo)
  | unload (c : ClassNo)
deriving DecidableEq, Repr

/-- What a request answers. -/
inductive ValueAnswer (α : Type) where
  | value (x : α)
  | contained (b : Bool)
  | removed (x : Option α)
  | unloaded
deriving DecidableEq, Repr

/-- Whether the answer is the same for both backends. What is removed for an unloaded class is left
open: a slot is gone by then, a map may still have an entry. -/
def ValueRequest.isSettled (space : ClassSpace) : ValueRequest → Bool
  | remove c => space.isLoaded c
  | _ => true

/-- A class value together with what changes about classes. -/
structure ValueState (α : Type) where
  space : ClassSpace
  value : ClassValue α

namespace ValueState

variable {α : Type}

/-- A class value that nothing was asked of. -/
def new (space : ClassSpace) (backend : ValueBackend) : ValueState α := ⟨space, { backend }⟩

/-- Whether a class has a value. -/
def contains (s : ValueState α) (c : ClassNo) : Bool := (s.value.find? s.space c).isSome

/-- The answer to a request, and the state after it. Values are computed from the class and from the
number of values computed before. -/
def serve (compute : ClassNo → Nat → α) (s : ValueState α) :
    ValueRequest → Except Fault (ValueAnswer α × ValueState α)
  | .get c => do
    let v ← s.value.asked
    return (.value (v.get s.space c (compute c)).1, ⟨s.space, (v.get s.space c (compute c)).2⟩)
  | .contains c => do
    let v ← s.value.asked
    return (.contained (v.find? s.space c).isSome, s)
  | .remove c => do
    let v ← s.value.asked
    return (.removed (v.remove c).1, ⟨s.space, (v.remove c).2⟩)
  | .unload c => return (.unloaded, ⟨s.space.markUnloaded c, s.value.classUnloaded c⟩)

/-- A map counts the classes in use that have a value, and slots are not counted. -/
def Counts (s : ValueState α) : Prop :=
  ∀ inUse : List ClassNo, inUse.Nodup →
    s.value.count? s.space inUse = if s.value.backend = .slot then none
      else some (inUse.countP s.contains)

/-- Two class values answer a sequence of requests alike. Step by step both answer, with the same
value, the same presence, and the same removed value if the class is loaded; both have computed the
same number of values, and hold values for the same classes; and their counts are right. -/
def AgreeAlong (compute : ClassNo → Nat → α) :
    List ValueRequest → ValueState α → ValueState α → Prop
  | [], _, _ => True
  | request :: rest, s, t =>
    ∃ a s' b t', s.serve compute request = .ok (a, s') ∧ t.serve compute request = .ok (b, t') ∧
      (request.isSettled s.space → a = b) ∧
      s'.value.computations = t'.value.computations ∧ s'.contains = t'.contains ∧ s'.Counts ∧
      t'.Counts ∧
      AgreeAlong compute rest s' t'

end ValueState

/-! ## What requests do to the view -/

namespace ClassValue

variable {α : Type} {v : ClassValue α} {space : ClassSpace} {c d : ClassNo}

theorem asked_of_ne (h : v.backend ≠ .map 0) : v.asked = .ok v := if_neg h

theorem find?_computed (v : ClassValue α) (space : ClassSpace) (d : ClassNo) (n : Nat) :
    { v with computations := n }.find? space d = v.find? space d := rfl

/-- Nothing is stored for an unloaded class. -/
theorem store_of_unloaded (h : space.isLoaded c = false) (x : α) :
    v.store space c x = { v with computations := v.computations + 1 } := by
  simp [store, h]

/-- A value is computed if there is none. -/
theorem get_fst (v : ClassValue α) (space : ClassSpace) (c : ClassNo) (compute : Nat → α) :
    (v.get space c compute).1 = (v.find? space c).getD (compute v.computations) := by
  unfold get
  cases v.find? space c <;> rfl

/-- After a request the value of the class is there, and the others are as they were. -/
theorem find?_get (v : ClassValue α) (space : ClassSpace) (c d : ClassNo) (compute : Nat → α) :
    (v.get space c compute).2.find? space d =
      (v.find? space d).or
        (if d = c ∧ space.isLoaded c then some (compute v.computations) else none) := by
  unfold get
  cases hfound : v.find? space c with
  | some x =>
    -- a value that is there stays, and no other changes
    by_cases hd : d = c
    · rw [hd, hfound]
      rfl
    · simp [hd]
  | none =>
    dsimp only
    cases hloaded : space.isLoaded c with
    | true => rw [find?_store hloaded]; simp
    | false => rw [store_of_unloaded hloaded, find?_computed]; simp

/-- A computation is counted if one was needed. -/
theorem computations_get (v : ClassValue α) (space : ClassSpace) (c : ClassNo) (compute : Nat → α) :
    (v.get space c compute).2.computations =
      if (v.find? space c).isSome then v.computations else v.computations + 1 := by
  unfold get
  cases v.find? space c <;> rfl

theorem backend_get (v : ClassValue α) (space : ClassSpace) (c : ClassNo) (compute : Nat → α) :
    (v.get space c compute).2.backend = v.backend := by
  unfold get
  cases v.find? space c <;> rfl

theorem backend_classUnloaded (v : ClassValue α) (c : ClassNo) :
    (v.classUnloaded c).backend = v.backend := by
  unfold classUnloaded
  split <;> rfl

theorem remove_fst (h : space.isLoaded c = true) : (v.remove c).1 = v.find? space c :=
  (find?_of_loaded h).symm

theorem computations_classUnloaded (v : ClassValue α) (c : ClassNo) :
    (v.classUnloaded c).computations = v.computations := by
  unfold classUnloaded
  split <;> rfl

/-! ## Keys -/

/-- No class has two entries. -/
def KeysDistinct (v : ClassValue α) : Prop := (v.entries.map (·.1)).Nodup

theorem KeysDistinct.of_filter (h : v.KeysDistinct) (keep : ClassNo × α → Bool) :
    ((v.entries.filter keep).map (·.1)).Nodup :=
  List.Sublist.nodup (List.filter_sublist.map _) h

/-- A request stores no class twice. -/
theorem KeysDistinct.get (h : v.KeysDistinct) (space : ClassSpace) (c : ClassNo)
    (compute : Nat → α) : (v.get space c compute).2.KeysDistinct := by
  unfold ClassValue.get
  cases hfound : v.find? space c with
  | some x => exact h
  | none =>
    unfold KeysDistinct store
    dsimp only
    split
    · rename_i hloaded
      have hnew : ∀ p ∈ v.entries, p.1 ≠ c := by
        rw [find?_of_loaded hloaded, List.lookup_eq_none_iff] at hfound
        intro p hp hpc
        simpa [hpc] using hfound p hp
      -- whether stale entries are swept or not, the new key was not there
      have happend : ∀ kept : List (ClassNo × α), kept.Sublist v.entries →
          ((kept ++ [(c, compute v.computations)]).map (·.1)).Nodup := by
        intro kept hkept
        rw [List.map_append, List.nodup_append]
        refine ⟨List.Sublist.nodup (hkept.map _) h, by simp, ?_⟩
        intro a ha b hb
        obtain ⟨p, hp, rfl⟩ := List.mem_map.mp ha
        rw [List.map_singleton, List.mem_singleton] at hb
        rw [hb]
        exact hnew p (hkept.subset hp)
      split
      · exact happend _ (List.Sublist.refl _)
      · exact happend _ List.filter_sublist
    · exact h

theorem KeysDistinct.classUnloaded (h : v.KeysDistinct) (c : ClassNo) :
    (v.classUnloaded c).KeysDistinct := by
  unfold ClassValue.classUnloaded
  split
  · exact h.of_filter _
  · exact h

/-- With one entry for each class a map counts the classes that it finds. -/
theorem KeysDistinct.count? (h : v.KeysDistinct) {inUse : List ClassNo} (hinUse : inUse.Nodup) :
    v.count? space inUse =
      if v.backend = .slot then none
        else some (inUse.countP fun c => (v.find? space c).isSome) := by
  unfold ClassValue.count?
  cases v.backend with
  | slot => rfl
  | map segments =>
    rw [if_neg (by rintro ⟨⟩), List.countP_eq_length_filter]
    refine congrArg some ?_
    -- both lists hold the same classes, each once
    have hperm :
      ((v.entries.filter fun p => space.isLoaded p.1 && inUse.contains p.1).map (·.1)).Perm
        (inUse.filter fun c => (v.find? space c).isSome) := by
      refine (List.perm_ext_iff_of_nodup (h.of_filter _) (hinUse.filter _)).mpr ?_
      intro c
      rw [List.mem_map, List.mem_filter]
      constructor
      · rintro ⟨p, hp, rfl⟩
        obtain ⟨hp, huse⟩ := List.mem_filter.mp hp
        obtain ⟨hloaded, hmem⟩ := Bool.and_eq_true_iff.mp huse
        refine ⟨List.contains_iff_mem.mp hmem, ?_⟩
        rw [find?_of_loaded hloaded, Option.isSome_iff_ne_none, Ne, List.lookup_eq_none_iff]
        intro hnone
        simpa using hnone p hp
      · rintro ⟨hmem, hsome⟩
        obtain ⟨x, hx⟩ := Option.isSome_iff_exists.mp hsome
        refine ⟨(c, x), List.mem_filter.mpr ⟨mem_of_find? hx, ?_⟩, rfl⟩
        simp [isLoaded_of_find? hx, hmem]
    rw [← hperm.length_eq, List.length_map]

end ClassValue

/-! ## Agreement -/

namespace ValueState

variable {α : Type} {s t : ValueState α}

/-- A class value that can be asked, with one entry for each class. -/
structure Usable (s : ValueState α) : Prop where
  asked : s.value.backend ≠ .map 0
  keys : s.value.KeysDistinct

/-- Two class values look the same. -/
structure Twins (s t : ValueState α) : Prop where
  left : s.Usable
  right : t.Usable
  space : s.space = t.space
  found : s.value.find? s.space = t.value.find? t.space
  computations : s.value.computations = t.value.computations

theorem Usable.counts (h : s.Usable) : s.Counts := fun _ hinUse => h.keys.count? hinUse

theorem Twins.contains (h : s.Twins t) : s.contains = t.contains := by
  funext c
  unfold ValueState.contains
  rw [h.found]

/-- What one request does: both answer, alike where the answer is settled, and look the same
afterwards. -/
theorem Twins.serve (h : s.Twins t) (compute : ClassNo → Nat → α) (request : ValueRequest) :
    ∃ a s' b t', s.serve compute request = .ok (a, s') ∧ t.serve compute request = .ok (b, t') ∧
      (request.isSettled s.space → a = b) ∧ s'.Twins t' := by
  obtain ⟨space, v⟩ := s
  obtain ⟨space', w⟩ := t
  obtain ⟨⟨hv, hvkeys⟩, ⟨hw, hwkeys⟩, hspace, hfound, hcomputations⟩ := h
  dsimp only at hv hvkeys hw hwkeys hspace hfound hcomputations
  subst hspace
  -- for each request: what either value answers is a function of what it finds and of its count,
  -- and both agree on these before and after
  cases request with
  | get c =>
    refine ⟨_, _, _, _, by rw [ValueState.serve, ClassValue.asked_of_ne hv]; rfl,
      by rw [ValueState.serve, ClassValue.asked_of_ne hw]; rfl, ?_, ?_⟩
    · intro _
      rw [ClassValue.get_fst, ClassValue.get_fst, hfound, hcomputations]
    · refine ⟨⟨?_, hvkeys.get space c _⟩, ⟨?_, hwkeys.get space c _⟩, rfl, ?_, ?_⟩
      · rw [ClassValue.backend_get]
        exact hv
      · rw [ClassValue.backend_get]
        exact hw
      · funext d
        rw [ClassValue.find?_get, ClassValue.find?_get, hfound, hcomputations]
      · rw [ClassValue.computations_get, ClassValue.computations_get, hfound, hcomputations]
  | contains c =>
    refine ⟨_, _, _, _, by rw [ValueState.serve, ClassValue.asked_of_ne hv]; rfl,
      by rw [ValueState.serve, ClassValue.asked_of_ne hw]; rfl, ?_, ?_⟩
    · intro _
      rw [hfound]
    · exact ⟨⟨hv, hvkeys⟩, ⟨hw, hwkeys⟩, rfl, hfound, hcomputations⟩
  | remove c =>
    refine ⟨_, _, _, _, by rw [ValueState.serve, ClassValue.asked_of_ne hv]; rfl,
      by rw [ValueState.serve, ClassValue.asked_of_ne hw]; rfl, ?_, ?_⟩
    · intro hloaded
      rw [ClassValue.remove_fst hloaded, ClassValue.remove_fst hloaded, hfound]
    · refine ⟨⟨hv, hvkeys.of_filter _⟩, ⟨hw, hwkeys.of_filter _⟩, rfl, ?_, hcomputations⟩
      funext d
      rw [ClassValue.find?_remove, ClassValue.find?_remove, hfound]
  | unload c =>
    refine ⟨_, _, _, _, rfl, rfl, fun _ => rfl, ⟨?_, hvkeys.classUnloaded c⟩,
      ⟨?_, hwkeys.classUnloaded c⟩, rfl, ?_, ?_⟩
    · rw [ClassValue.backend_classUnloaded]
      exact hv
    · rw [ClassValue.backend_classUnloaded]
      exact hw
    · funext d
      rw [ClassValue.find?_unload, ClassValue.find?_unload, hfound]
    · rw [ClassValue.computations_classUnloaded, ClassValue.computations_classUnloaded,
        hcomputations]

/-- Twins agree along all requests. -/
theorem Twins.agreeAlong (h : s.Twins t) (compute : ClassNo → Nat → α)
    (requests : List ValueRequest) : AgreeAlong compute requests s t := by
  induction requests generalizing s t with
  | nil => trivial
  | cons request rest ih =>
    obtain ⟨a, s', b, t', hs, ht, hanswer, htwins⟩ := h.serve compute request
    exact ⟨a, s', b, t', hs, ht, hanswer, htwins.computations, htwins.contains, htwins.left.counts,
      htwins.right.counts, ih htwins⟩

/-- Values with different backends start as twins. -/
theorem new_twins (space : ClassSpace) {backend backend' : ValueBackend} (h : backend ≠ .map 0)
    (h' : backend' ≠ .map 0) : (new space backend : ValueState α).Twins (new space backend') :=
  ⟨⟨h, List.nodup_nil⟩, ⟨h', List.nodup_nil⟩, rfl, rfl, rfl⟩

end ValueState

/-! ## Numbers of segments -/

namespace ValueBackend

/-- The largest number of segments that a map can have. A segment takes 40 bytes, and less than 2^63
bytes can be had. -/
def segmentLimit : Nat := Nat.pow 2 57

theorem powerOfTwoFrom_of_le {n : Nat} (h : n ≤ segmentLimit) :
    0 < powerOfTwoFrom n ∧ powerOfTwoFrom n ≤ segmentLimit := by
  unfold powerOfTwoFrom
  split
  · decide
  · rename_i hn
    have hpred : n - 1 < segmentLimit := Nat.sub_one_lt_of_le (by omega) h
    have hlog : (n - 1).log2 < 57 := (Nat.log2_lt (by omega)).mpr hpred
    have hpow : Nat.pow 2 ((n - 1).log2 + 1) ≤ segmentLimit := Nat.pow_le_pow_right (by omega) hlog
    have hpos : 0 < Nat.pow 2 ((n - 1).log2 + 1) := Nat.two_pow_pos _
    have hword : segmentLimit < UInt64.size := by decide
    rw [Nat.mod_eq_of_lt (Nat.lt_of_le_of_lt hpow hword)]
    exact ⟨hpos, hpow⟩

/-- Beyond the limit the power of two is too large for the memory, or for a word. -/
theorem powerOfTwoFrom_of_lt {n : Nat} (h : segmentLimit < n) :
    powerOfTwoFrom n = 0 ∨ Nat.pow 2 58 ≤ powerOfTwoFrom n := by
  have hpos : 0 < segmentLimit := by decide
  have hpred : segmentLimit ≤ n - 1 := Nat.le_sub_one_of_lt h
  have hlog : 57 ≤ (n - 1).log2 := (Nat.le_log2 (by omega)).mpr hpred
  unfold powerOfTwoFrom
  rw [if_neg (by omega)]
  by_cases hword : (n - 1).log2 + 1 < 64
  · right
    have hlt : Nat.pow 2 ((n - 1).log2 + 1) < UInt64.size := Nat.pow_lt_pow_right (by omega) hword
    rw [Nat.mod_eq_of_lt hlt]
    exact Nat.pow_le_pow_right (by omega) (by omega)
  · left
    have hexp : 64 ≤ (n - 1).log2 + 1 := by omega
    have hdvd : UInt64.size ∣ Nat.pow 2 ((n - 1).log2 + 1) := Nat.pow_dvd_pow 2 hexp
    exact Nat.mod_eq_zero_of_dvd hdvd

/-- Up to the limit a map is made, and it has segments. -/
theorem of_map_of_le {n : Nat} (h : n ≤ segmentLimit) :
    ∃ count, 0 < count ∧ of .map n = .ok (map count) := by
  obtain ⟨hpos, hle⟩ := powerOfTwoFrom_of_le h
  refine ⟨powerOfTwoFrom n, hpos, ?_⟩
  have hroom : powerOfTwoFrom n * segmentSize < Nat.pow 2 63 :=
    Nat.lt_of_le_of_lt (Nat.mul_le_mul_right _ hle) (by decide)
  show (if powerOfTwoFrom n * segmentSize < Nat.pow 2 63 then _ else _) = _
  rw [if_pos hroom]
  rfl

/-- Beyond the limit no map is made, or one without segments. -/
theorem of_map_of_lt {n : Nat} (h : segmentLimit < n) {backend : ValueBackend}
    (hof : of .map n = .ok backend) : backend = map 0 := by
  have hof' :
    (if powerOfTwoFrom n * segmentSize < Nat.pow 2 63 then Except.ok (map (powerOfTwoFrom n))
      else .error (Fault.tooManySegments (powerOfTwoFrom n))) = Except.ok backend := hof
  rcases powerOfTwoFrom_of_lt h with hzero | hlarge
  · rw [hzero] at hof'
    exact (Except.ok.inj hof').symm
  · have hroom : ¬ powerOfTwoFrom n * segmentSize < Nat.pow 2 63 := by
      have hfull : Nat.pow 2 63 ≤ Nat.pow 2 58 * segmentSize := by decide
      exact Nat.not_lt.mpr (Nat.le_trans hfull (Nat.mul_le_mul_right _ hlarge))
    rw [if_neg hroom] at hof'
    cases hof'

/-- A map without segments has no answer to the first question. -/
theorem not_agreeAlong_map_zero :
    ¬ ValueState.AgreeAlong
      (fun _ n => n) [.get 1] (ValueState.new {} slot) (ValueState.new {} (map 0)) := by
  rintro ⟨_, _, _, _, -, hfault, -⟩
  cases hfault

/-- Up to the limit, and no further, there is a map that agrees with slots: for every way to compute
values, whatever classes are unloaded at the start, and along every sequence of requests. -/
theorem map_agrees_iff (n : Nat) :
    (∃ backend, of .map n = .ok backend ∧
      ∀ (α : Type) (compute : ClassNo → Nat → α) (space : ClassSpace)
        (requests : List ValueRequest),
        ValueState.AgreeAlong compute requests (.new space slot) (.new space backend)) ↔
          n ≤ segmentLimit := by
  constructor
  · rintro ⟨backend, hof, hagree⟩
    by_contra hlt
    rw [of_map_of_lt (Nat.lt_of_not_le hlt) hof] at hagree
    exact not_agreeAlong_map_zero (hagree Nat (fun _ n => n) {} [.get 1])
  · intro hn
    obtain ⟨count, hpos, hof⟩ := of_map_of_le hn
    refine ⟨map count, hof, ?_⟩
    intro α compute space requests
    have hcount : map count ≠ map 0 := by
      rintro ⟨⟩
      omega
    have hslot : slot ≠ map 0 := by
      rintro ⟨⟩
    exact (ValueState.new_twins space hslot hcount).agreeAlong compute requests

/-- One segment more than the largest power of two in a word: a map is made that has no segment at
all. It takes no request, where slots answer. -/
theorem map_disagrees_beyond_words :
    of .map 9223372036854775809 = .ok (map 0) ∧
      ¬ ValueState.AgreeAlong (fun _ n => n) [.get 1] (.new {} slot) (.new {} (map 0)) :=
  ⟨by decide, not_agreeAlong_map_zero⟩

end ValueBackend

end Metaobject
