import Metaobject.Proofs.Reflection.Coherence
import Metaobject.Proofs.Worklist

/-!
# Records in use

The records in use are found by following links, with a bound on the number of steps. The bound is
enough: the records that are found contain those to start with and all that they link to
(`ReflectionCache.mem_inUse_of_link`), and none is found twice. So memory pressure takes parts back
of each of them once, and of no other record (`ReflectionCache.getElem?_reclaim`).
-/

namespace Metaobject.ReflectionCache

variable {k : ReflectionCache} {fuel : Nat} {pending seen held : List RecordNo} {r q : RecordNo}

/-! ## Following links -/

/-- The records entered so far link only to records that were entered or are pending. -/
def Expanded (k : ReflectionCache) (pending seen : List RecordNo) : Prop :=
  ∀ r ∈ seen, ∀ q ∈ (k.record r).links, q ∈ seen ∨ q ∈ pending

/-- A record that has been entered need not stay pending. -/
theorem Expanded.drop (h : k.Expanded (r :: pending) seen) (hr : r ∈ seen) :
    k.Expanded pending seen := by
  intro r' hr' q hq
  rcases h r' hr' q hq with hseen | hpending
  · exact .inl hseen
  · rcases List.mem_cons.mp hpending with rfl | hpending
    · exact .inl hr
    · exact .inr hpending

/-- A record is entered by making its links pending. -/
theorem Expanded.enter (h : k.Expanded (r :: pending) seen) :
    k.Expanded ((k.record r).links ++ pending) (r :: seen) := by
  intro r' hr' q hq
  rcases List.mem_cons.mp hr' with rfl | hr'
  · exact .inr (List.mem_append_left _ hq)
  · rcases h r' hr' q hq with hseen | hpending
    · exact .inl (List.mem_cons_of_mem r hseen)
    · rcases List.mem_cons.mp hpending with rfl | hpending
      · exact .inl List.mem_cons_self
      · exact .inr (List.mem_append_right _ hpending)

/-- The number of links from records that were not entered yet. -/
def linksBeyond (k : ReflectionCache) (seen : List RecordNo) : Nat :=
  Worklist.linksBeyond (fun r => (k.record r).links) k.records.length seen

/-- Entering a record uses up its links. -/
theorem linksBeyond_cons (hr : r ∉ seen) :
    (k.record r).links.length + k.linksBeyond (r :: seen) = k.linksBeyond seen := by
  refine Worklist.linksBeyond_cons (fun r => (k.record r).links) hr fun hbeyond => ?_
  rw [record, List.getElem?_eq_none hbeyond]
  rfl

theorem linksBeyond_nil (k : ReflectionCache) :
    k.linksBeyond [] = (k.records.flatMap (·.links)).length := by
  refine Worklist.linksBeyond_nil k.records (·.links) fun r => ?_
  rw [record]
  cases k.records[r]? <;> rfl

/-- Nothing that was entered or is pending gets lost, and in the end all links lead to records that
were entered. -/
theorem follow_closed (hexpanded : k.Expanded pending seen)
    (hfuel : pending.length + k.linksBeyond seen ≤ fuel) :
    (∀ r ∈ seen, r ∈ k.follow fuel pending seen) ∧ (∀ r ∈ pending, r ∈ k.follow fuel pending seen) ∧
      k.Expanded [] (k.follow fuel pending seen) := by
  -- entering a record moves its links from those left to the pending ones, so the sum falls by one
  -- in each round
  induction fuel generalizing pending seen with
  | zero =>
    have hnil : pending = [] := List.length_eq_zero_iff.mp (by omega)
    subst hnil
    exact ⟨fun _ h => h, by simp, hexpanded⟩
  | succ fuel ih =>
    cases pending with
    | nil => exact ⟨fun _ h => h, by simp, hexpanded⟩
    | cons r pending =>
      rw [List.length_cons] at hfuel
      rw [follow]
      split
      · rename_i hr
        obtain ⟨hseen, hpending, hclosed⟩ := ih (hexpanded.drop hr) (by omega)
        refine ⟨hseen, ?_, hclosed⟩
        intro q hq
        rcases List.mem_cons.mp hq with rfl | hq
        · exact hseen q hr
        · exact hpending q hq
      · rename_i hr
        have hlinks := linksBeyond_cons (k := k) hr
        obtain ⟨hseen, hpending, hclosed⟩ := ih hexpanded.enter (by rw [List.length_append]; omega)
        refine ⟨fun q hq => hseen q (List.mem_cons_of_mem r hq), ?_, hclosed⟩
        intro q hq
        rcases List.mem_cons.mp hq with rfl | hq
        · exact hseen q List.mem_cons_self
        · exact hpending q (List.mem_append_right _ hq)

/-- No record is entered twice. -/
theorem nodup_follow (hseen : seen.Nodup) : (k.follow fuel pending seen).Nodup := by
  induction fuel generalizing pending seen with
  | zero => exact hseen
  | succ fuel ih =>
    cases pending with
    | nil => exact hseen
    | cons r pending =>
      rw [follow]
      split
      · exact ih hseen
      · rename_i hr
        exact ih (List.nodup_cons.mpr ⟨hr, hseen⟩)

/-! ## The records in use -/

/-- What is held or current is in use, and so is all that it links to. -/
theorem inUse_closed (k : ReflectionCache) (held : List RecordNo) :
    (∀ r ∈ held ++ k.current, r ∈ k.inUse held) ∧ k.Expanded [] (k.inUse held) := by
  have hstart : k.Expanded (held ++ k.current) [] := by
    intro r hr
    cases hr
  have hfuel : (held ++ k.current).length + k.linksBeyond []
      ≤ (held ++ k.current).length + (k.records.flatMap (·.links)).length + 1 := by
    rw [linksBeyond_nil]
    omega
  exact (follow_closed hstart hfuel).2

theorem mem_inUse_of_link (hr : r ∈ k.inUse held) (hq : q ∈ (k.record r).links) :
    q ∈ k.inUse held :=
  ((k.inUse_closed held).2 r hr q hq).resolve_right List.not_mem_nil

/-- The record that a class has is in use. -/
theorem mem_inUse_of_find? {space : ClassSpace} {no : ClassNo}
    (h : k.infos.find? space no = some r) : r ∈ k.inUse held :=
  (k.inUse_closed held).1 r
    (List.mem_append_right _ (List.mem_map.mpr ⟨_, ClassValue.mem_of_find? h, rfl⟩))

theorem nodup_inUse (k : ReflectionCache) (held : List RecordNo) : (k.inUse held).Nodup :=
  nodup_follow List.nodup_nil

/-! ## Memory pressure -/

/-- A pass over different records updates each of them once. -/
theorem getElem?_foldl_update {f : ClassRecord → ClassRecord} {rs : List RecordNo} (hrs : rs.Nodup)
    (k : ReflectionCache) (q : RecordNo) : (rs.foldl (fun k r => k.update r f) k).records[q]? =
      if q ∈ rs then (k.records[q]?).map f else k.records[q]? := by
  induction rs generalizing k with
  | nil => simp
  | cons r rs ih =>
    obtain ⟨hr, hrs⟩ := List.nodup_cons.mp hrs
    rw [List.foldl_cons, ih hrs, getElem?_update]
    by_cases hqr : q = r
    · subst hqr
      simp [hr]
    · simp [hqr]

theorem infos_foldl_update {f : ClassRecord → ClassRecord} (rs : List RecordNo)
    (k : ReflectionCache) : (rs.foldl (fun k r => k.update r f) k).infos = k.infos := by
  induction rs generalizing k with
  | nil => rfl
  | cons r rs ih => exact ih (k.update r f)

/-- Reclaiming changes the records in use, and no others. -/
theorem getElem?_reclaim (k : ReflectionCache) (held : List RecordNo) (p : Pressure)
    (r : RecordNo) :
    (k.reclaim held p).1.records[r]? =
      if r ∈ k.inUse held then (k.records[r]?).map (·.reclaim p) else k.records[r]? :=
  getElem?_foldl_update (k.nodup_inUse held) k r

theorem infos_reclaim (k : ReflectionCache) (held : List RecordNo) (p : Pressure) :
    (k.reclaim held p).1.infos = k.infos :=
  infos_foldl_update (k.inUse held) k

end Metaobject.ReflectionCache
