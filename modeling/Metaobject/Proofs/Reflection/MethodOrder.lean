import Metaobject.Proofs.Reflection.Lineage

/-!
# The order of methods

The methods of a class are sorted once, and a name is then searched by halving. Both orders, the
natural one and the one by name alone, keep methods of one name together, so halving finds all of
them.

* `partitionPoint_append`: halving finds the place where a condition ends.
* `MethodHandle.nameRange_eq_filter`: in a list that is sorted by name, the methods of a name are
  found as if the whole list was gone through.
* `LoadedClass.find_methodTable`, `LoadedClass.findProtocol_methodTable`: the two tables of a class
  are such lists.
-/

namespace Metaobject

/-! ## Halving -/

section Halving

variable {α : Type} {p : α → Bool} {front back : List α} (hfront : ∀ a ∈ front, p a = true)
  (hback : ∀ a ∈ back, p a = false)

include hfront hback

theorem any_getElem?_append (i : Nat) : (front ++ back)[i]?.any p = decide (i < front.length) := by
  by_cases hi : i < front.length
  · rw [List.getElem?_append_left hi, List.getElem?_eq_getElem hi, Option.any_some,
      hfront _ (List.getElem_mem hi), decide_eq_true hi]
  · rw [List.getElem?_append_right (Nat.le_of_not_lt hi), decide_eq_false hi]
    cases hx : back[i - front.length]? with
    | none => rfl
    | some x => exact hback x (List.mem_of_getElem? hx)

/-- Halving finds the place where a condition ends. -/
theorem partitionPoint_append : partitionPoint p (front ++ back) = front.length := by
  generalize hl : front ++ back = l
  fun_induction partitionPoint p l generalizing front back with
  | case1 l hshort =>
    have hback' : ∀ a ∈ back, ¬ p a = true := fun a ha => Bool.eq_false_iff.mp (hback a ha)
    rw [← hl, List.countP_append, List.countP_eq_length.mpr hfront, List.countP_eq_zero.mpr hback',
      Nat.add_zero]
  | case2 l hlong hp ih =>
    subst hl
    generalize (front ++ back).length / 2 = half at hp ih ⊢
    -- the element in the middle belongs to the front
    rw [any_getElem?_append hfront hback, decide_eq_true_eq] at hp
    have hdrop : front.drop half ++ back = (front ++ back).drop half :=
      (List.drop_append_of_le_length (Nat.le_of_lt hp)).symm
    rw [ih (fun x hx => hfront x (List.mem_of_mem_drop hx)) hback hdrop, List.length_drop]
    omega
  | case3 l hlong hp ih =>
    subst hl
    rw [any_getElem?_append hfront hback, decide_eq_true_eq] at hp
    generalize hn : (front ++ back).length - (front ++ back).length / 2 = n at ih ⊢
    have htake : (front ++ back).take n = front ++ back.take (n - front.length) := by
      rw [List.take_append, List.take_of_length_le (by omega)]
    exact ih hfront (fun x hx => hback x (List.mem_of_mem_take hx)) htake.symm

end Halving

section Monotone

variable {α : Type} {p : α → Bool} {l : List α} (hl : l.Pairwise fun a b => p b = true → p a = true)

include hl

/-- Where a condition never starts to hold again, it holds of a front part and of nothing else. -/
theorem filter_append_filter_not : l.filter p ++ l.filter (!p ·) = l := by
  induction l with
  | nil => rfl
  | cons a l ih =>
    obtain ⟨ha, hl⟩ := List.pairwise_cons.mp hl
    cases hpa : p a with
    | true => simp [hpa, ih hl]
    | false =>
      have hnone : ∀ b ∈ l, p b = false := fun b hb => Bool.eq_false_iff.mpr fun hpb =>
        by simp [ha b hb hpb] at hpa
      have hfront : l.filter p = [] := List.filter_eq_nil_iff.mpr fun b hb => by simp [hnone b hb]
      have hback : l.filter (!p ·) = l := List.filter_eq_self.mpr fun b hb => by simp [hnone b hb]
      rw [List.filter_cons_of_neg (by simp [hpa]), List.filter_cons_of_pos (by simp [hpa]), hfront,
        hback]
      rfl

/-- The partition point counts what comes before it. -/
theorem partitionPoint_eq : partitionPoint p l = (l.filter p).length := by
  have hpoint : partitionPoint p (l.filter p ++ l.filter (!p ·)) = (l.filter p).length := by
    refine partitionPoint_append (fun a ha => (List.mem_filter.mp ha).2) fun a ha => ?_
    simpa using (List.mem_filter.mp ha).2
  rwa [filter_append_filter_not hl] at hpoint

/-- What comes before the partition point is what has the property. -/
theorem take_partitionPoint : l.take (partitionPoint p l) = l.filter p :=
  calc l.take (partitionPoint p l)
    _ = (l.filter p ++ l.filter (!p ·)).take (l.filter p).length := by
      rw [partitionPoint_eq hl, filter_append_filter_not hl]
    _ = l.filter p := List.take_left

/-- What comes after it is what has not. -/
theorem drop_partitionPoint : l.drop (partitionPoint p l) = l.filter (!p ·) :=
  calc l.drop (partitionPoint p l)
    _ = (l.filter p ++ l.filter (!p ·)).drop (l.filter p).length := by
      rw [partitionPoint_eq hl, filter_append_filter_not hl]
    _ = l.filter (!p ·) := List.drop_left

end Monotone

namespace MethodHandle

variable {a b c : MethodHandle} {l : List MethodHandle}

/-! ## Sorted by name -/

/-- In a list that is sorted by name, halving finds the methods of a name. -/
theorem nameRange_eq_filter (hl : l.Pairwise fun a b => a.name ≤ b.name) (name : String) :
    nameRange l name = l.filter (·.name == name) := by
  have hbelow : l.Pairwise fun a b => decide (b.name < name) = true →
    decide (a.name < name) = true := by
    refine hl.imp fun hab hb => ?_
    rw [decide_eq_true_eq] at hb ⊢
    exact Std.lt_of_le_of_lt hab hb
  have hequal : (l.filter fun a => !decide (a.name < name)).Pairwise fun a b =>
      (b.name == name) = true → (a.name == name) = true := by
    refine (hl.filter _).imp_of_mem ?_
    intro a b ha _ hab hb
    rw [beq_iff_eq] at hb ⊢
    have hge : ¬ a.name < name := by simpa using (List.mem_filter.mp ha).2
    exact String.le_antisymm (hb ▸ hab) (String.not_lt.mp hge)
  rw [nameRange, drop_partitionPoint hbelow, take_partitionPoint hequal, List.filter_filter]
  refine List.filter_congr fun a _ => ?_
  by_cases ha : a.name = name
  · simp [ha]
  · simp [ha]

theorem nameLe_iff : a.nameLe b = true ↔ a.name ≤ b.name := by
  rw [nameLe, Bool.not_eq_true', decide_eq_false_iff_not, String.not_lt]

/-- By name, then by number of parameters, then by their types. -/
theorem naturalLe_iff : a.naturalLe b = true ↔ a.name < b.name ∨ a.name = b.name ∧
    (a.arity < b.arity ∨ a.arity = b.arity ∧ ¬ b.signature.params < a.signature.params) := by
  rw [naturalLe]
  by_cases hname : a.name = b.name
  · by_cases harity : a.arity = b.arity
    · simp [hname, harity]
    · simp [hname, harity]
  · simp [hname]

/-- The natural order goes by names first. -/
theorem name_le_of_naturalLe (h : a.naturalLe b = true) : a.name ≤ b.name := by
  rcases naturalLe_iff.mp h with hlt | ⟨heq, -⟩
  · exact Std.le_of_lt hlt
  · exact Std.le_of_eq heq

theorem naturalLe_trans (a b c : MethodHandle) (hab : a.naturalLe b = true)
    (hbc : b.naturalLe c = true) : a.naturalLe c = true := by
  rw [naturalLe_iff] at *
  rcases hab with hab | ⟨hname, hab⟩
  · rcases hbc with hbc | ⟨hname', -⟩
    · exact .inl (String.lt_trans hab hbc)
    · exact .inl (hname' ▸ hab)
  · rcases hbc with hbc | ⟨hname', hbc⟩
    · exact .inl (hname ▸ hbc)
    · refine .inr ⟨hname.trans hname', ?_⟩
      rcases hab with hab | ⟨harity, hab⟩
      · exact .inl (hbc.elim (Nat.lt_trans hab) fun hbc => hbc.1 ▸ hab)
      · refine hbc.imp (harity ▸ ·) fun hbc => ⟨harity.trans hbc.1, ?_⟩
        exact List.not_lt.mpr (List.le_trans (List.not_lt.mp hab) (List.not_lt.mp hbc.2))

theorem naturalLe_total (a b : MethodHandle) : (a.naturalLe b || b.naturalLe a) = true := by
  rw [Bool.or_eq_true, naturalLe_iff, naturalLe_iff]
  by_cases hname : a.name = b.name
  · rcases Nat.lt_trichotomy a.arity b.arity with hlt | heq | hgt
    · exact .inl (.inr ⟨hname, .inl hlt⟩)
    · rcases List.le_total a.signature.params b.signature.params with hle | hle
      · exact .inl (.inr ⟨hname, .inr ⟨heq, List.not_lt.mpr hle⟩⟩)
      · exact .inr (.inr ⟨hname.symm, .inr ⟨heq.symm, List.not_lt.mpr hle⟩⟩)
    · exact .inr (.inr ⟨hname.symm, .inl hgt⟩)
  · rcases String.le_total a.name b.name with hle | hle
    · exact .inl (.inl (Std.lt_of_le_of_ne hle hname))
    · exact .inr (.inl (Std.lt_of_le_of_ne hle (Ne.symm hname)))

theorem nameLe_trans (a b c : MethodHandle) (hab : a.nameLe b = true) (hbc : b.nameLe c = true) :
    a.nameLe c = true := by
  rw [nameLe_iff] at *
  exact String.le_trans hab hbc

theorem nameLe_total (a b : MethodHandle) : (a.nameLe b || b.nameLe a) = true := by
  rw [Bool.or_eq_true, nameLe_iff, nameLe_iff]
  exact String.le_total _ _

end MethodHandle

/-! ## The tables of a class -/

namespace LoadedClass

variable (c : LoadedClass) (name : String)

/-- The methods of a name are next to each other, and the table finds all of them. -/
theorem find_methodTable :
    c.methodTable.find name = c.methodTable.normal.filter (·.name == name) := by
  obtain ⟨_, _, _, _, _, _, _, _⟩ := c
  refine MethodHandle.nameRange_eq_filter ?_ name
  exact (List.pairwise_mergeSort MethodHandle.naturalLe_trans MethodHandle.naturalLe_total _).imp
    MethodHandle.name_le_of_naturalLe

theorem findProtocol_methodTable :
    c.methodTable.findProtocol name = c.methodTable.protocol.filter (·.name == name) := by
  obtain ⟨_, _, _, _, _, _, _, _⟩ := c
  refine MethodHandle.nameRange_eq_filter ?_ name
  exact (List.pairwise_mergeSort MethodHandle.nameLe_trans MethodHandle.nameLe_total _).imp
    MethodHandle.nameLe_iff.mp

end LoadedClass

end Metaobject
