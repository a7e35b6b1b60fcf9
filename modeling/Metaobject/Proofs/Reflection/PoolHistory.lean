import Mathlib.Data.List.Nodup
import Metaobject.Proofs.AssociationList
import Metaobject.Reflection.Lazy

/-!
# The books of a pool

A pool counts what happens to its lazy values in three places: every value counts how often it was
computed and how often it was emptied, the pool lists the values that were ever computed, and it
counts the values that it has taken back. A history follows a pool from its creation, through
computations that succeed and fail, and through values that are emptied, taken back and given up. A
computation may itself do all of this to the pool while it runs.

* `LazyPool.takenBack_takeBack`: what taking back some values does, by induction along their
  numbers.
* `PoolHistory.Sound`: how the books of a pool agree with its history; `PoolHistory.Sound.step`
  carries it through every action, along with the actions inside.
* `PoolHistory.books_agree`: what the books say after any history.
-/

namespace Metaobject

/-! ## Lazy values -/

namespace Lazy

variable {α : Type} {l : Lazy α}

/-- A value that is held was computed once more than it was emptied, and any other as often. -/
def Balanced (l : Lazy α) : Prop :=
  l.computations = if l.isComputed then l.generation + 1 else l.generation

/-- Whether memory this short takes something away. -/
def isTaken (pressure : Pressure) (l : Lazy α) : Bool :=
  l.isComputed && pressure.reclaims l.strength

@[simp]
theorem computations_clear (l : Lazy α) : l.clear.computations = l.computations := by
  unfold clear
  split <;> rfl

/-- Filling an empty value keeps its counts balanced. -/
theorem Balanced.fill (h : l.Balanced) (hempty : l.value = none) (v : α) : (l.fill v).Balanced := by
  have hcount : l.computations = l.generation := by simpa [Balanced, isComputed, hempty] using h
  simp [Balanced, Lazy.fill, isComputed, hcount]

/-- Clearing a value keeps its counts balanced. -/
theorem Balanced.clear (h : l.Balanced) : l.clear.Balanced := by
  unfold Balanced at h
  unfold Lazy.clear
  split
  · rename_i hheld
    rw [if_pos hheld] at h
    simpa [Balanced, isComputed] using h
  · exact h

/-- What is held was computed. -/
theorem Balanced.computations_pos (h : l.Balanced) (hheld : l.isComputed = true) :
    0 < l.computations := by
  unfold Balanced at h
  rw [if_pos hheld] at h
  omega

theorem clear_eq_self (h : ¬ l.isComputed = true) : l.clear = l := if_neg h

end Lazy

/-! ## Operations of pools -/

namespace LazyPool

variable {α : Type}

/-- The numbers of the values in use. -/
def numbers (p : LazyPool α) : List Nat := p.members.map (·.1)

variable (p : LazyPool α) (n k : Nat)

theorem mem_numbers_iff : k ∈ p.numbers ↔ (p.get? k).isSome := by
  unfold numbers get?
  rw [List.mem_map, List.lookup_isSome_iff]
  exact exists_congr fun m => and_congr_right fun _ => eq_comm.trans beq_iff_eq.symm

/-- Putting a value changes the entry of its number, if there is one. -/
theorem get?_put (l : Lazy α) :
    (p.put n l).get? k = if k = n then (p.get? k).map fun _ => l else p.get? k := by
  refine List.lookup_replace (fun m => ?_) p.members
  obtain ⟨i, old⟩ := m
  show (if i = n then (i, l) else (i, old)) = (i, if i = n then l else old)
  split <;> rfl

theorem numbers_put (l : Lazy α) : (p.put n l).numbers = p.numbers := by
  unfold numbers put
  rw [List.map_map]
  refine List.map_congr_left fun m _ => ?_
  obtain ⟨i, old⟩ := m
  show (if i = n then (i, l) else (i, old)).1 = i
  split <;> rfl

/-- Filling gives a value something to hold and leaves all others. -/
theorem get?_fill {l : Lazy α} (hl : p.get? n = some l) (v : α) :
    (p.fill n v).get? k = if k = n then some (l.fill v) else p.get? k := by
  have hput : (p.fill n v).get? k = (p.put n (l.fill v)).get? k := by
    unfold fill
    rw [hl]
    dsimp only
    split <;> rfl
  rw [hput, get?_put]
  split
  · rename_i hk
    rw [hk, hl, Option.map_some]
  · rfl

theorem numbers_fill (v : α) : (p.fill n v).numbers = p.numbers := by
  unfold fill
  split
  · rfl
  · rename_i l _
    rw [← numbers_put p n (l.fill v)]
    split <;> rfl

/-- A value is registered when it is filled for the first time. -/
theorem registered_fill {l : Lazy α} (hl : p.get? n = some l) (v : α) :
    (p.fill n v).registered = if l.isRegistered then p.registered else p.registered ++ [n] := by
  unfold fill
  rw [hl]
  dsimp only
  split <;> rfl

/-- Filling changes neither the counts of the pool nor what is being computed. -/
theorem fill_counts (v : α) :
    (p.fill n v).next = p.next ∧ (p.fill n v).reclaimed = p.reclaimed ∧
      (p.fill n v).computing = p.computing := by
  unfold fill
  split
  · exact ⟨rfl, rfl, rfl⟩
  · split <;> exact ⟨rfl, rfl, rfl⟩

/-- What was not being computed is not being computed afterwards. -/
theorem leave_enter (h : n ∉ p.computing) : (p.enter n).leave n = p := by
  have hothers : (n :: p.computing).filter (· != n) = p.computing := by
    rw [List.filter_cons_of_neg (by simp), List.filter_eq_self]
    intro k hk
    rw [bne_iff_ne]
    rintro rfl
    exact h hk
  show { p with computing := (n :: p.computing).filter (· != n) } = p
  rw [hothers]

/-- A new value has the next number and is empty. -/
theorem get?_create (s : Strength) :
    (p.create s).get? k = if k = p.next then some { strength := s } else p.get? k := by
  unfold get? create
  rw [List.lookup_cons_eq_ite]

theorem get?_drop : (p.drop n).get? k = if k = n then none else p.get? k := by
  unfold get? drop
  rw [List.lookup_filter_bne]

/-- Clearing a value changes its entry only. -/
theorem get?_clear :
    (p.clear n).1.get? k = if k = n then (p.get? k).map Lazy.clear else p.get? k := by
  unfold clear
  split
  · rename_i hn
    split
    · rename_i hk
      rw [hk, hn]
      rfl
    · rfl
  · rename_i l hn
    rw [get?_put]
    split
    · rename_i hk
      rw [hk, hn]
      rfl
    · rfl

/-- Clearing a value tells whether there was one. -/
theorem clear_snd : (p.clear n).2 = (p.get? n).any Lazy.isComputed := by
  unfold clear
  cases p.get? n <;> rfl

section Requests

variable {σ ε : Type} {p : LazyPool α} {n : Nat} {l : Lazy α}
  {compute : StateT (LazyPool α) (StateM σ) (Except ε α)}

/-- There is no answer for a value that is not in use. -/
theorem run_getOrTryFill_absent (hl : p.get? n = none) (w : σ) :
    ((getOrTryFill n compute).run p).run w = ((none, p), w) := by
  simp only [getOrTryFill, StateT.run, hl]
  rfl

/-- A value that is held is not computed again. -/
theorem run_getOrTryFill_held {v : α} (hl : p.get? n = some l) (hv : l.value = some v) (w : σ) :
    ((getOrTryFill n compute).run p).run w = ((some (.ok v), p), w) := by
  simp only [getOrTryFill, StateT.run, hl, hv]
  rfl

/-- There is no answer for a value that is being computed. -/
theorem run_getOrTryFill_busy (hl : p.get? n = some l) (hempty : l.value = none)
    (hbusy : n ∈ p.computing) (w : σ) :
    ((getOrTryFill n compute).run p).run w = ((none, p), w) := by
  simp only [getOrTryFill, StateT.run, hl, hempty, if_pos hbusy]
  rfl

variable (hl : p.get? n = some l) (hempty : l.value = none) (hfree : n ∉ p.computing)
  {q : LazyPool α} {w w' : σ}

include hl hempty hfree

/-- A computation that fails leaves the pool as it made it. -/
theorem run_getOrTryFill_failed {e : ε}
    (hfail : (compute.run (p.enter n)).run w = ((.error e, q), w')) :
    ((getOrTryFill n compute).run p).run w = ((some (.error e), q.leave n), w') := by
  simp only [getOrTryFill, StateT.run, hl, hempty, if_neg hfree]
  refine (StateT.run_bind (compute (p.enter n)) _ w).trans ?_
  rw [show StateT.run (compute (p.enter n)) w = _ from hfail]
  rfl

/-- A computation that completes fills the value. -/
theorem run_getOrTryFill_completed {v : α}
    (hdone : (compute.run (p.enter n)).run w = ((.ok v, q), w')) :
    ((getOrTryFill n compute).run p).run w = ((some (.ok v), (q.fill n v).leave n), w') := by
  simp only [getOrTryFill, StateT.run, hl, hempty, if_neg hfree]
  refine (StateT.run_bind (compute (p.enter n)) _ w).trans ?_
  rw [show StateT.run (compute (p.enter n)) w = _ from hdone]
  rfl

end Requests

/-- Two pools that differ at most in what their values hold. -/
structure SameBooks (p q : LazyPool α) : Prop where
  numbers : q.numbers = p.numbers
  next : q.next = p.next
  registered : q.registered = p.registered
  reclaimed : q.reclaimed = p.reclaimed
  computing : q.computing = p.computing

theorem SameBooks.trans {p q r : LazyPool α} (hpq : p.SameBooks q) (hqr : q.SameBooks r) :
    p.SameBooks r where
  numbers := hqr.numbers.trans hpq.numbers
  next := hqr.next.trans hpq.next
  registered := hqr.registered.trans hpq.registered
  reclaimed := hqr.reclaimed.trans hpq.reclaimed
  computing := hqr.computing.trans hpq.computing

/-- Clearing a value leaves the books. -/
theorem sameBooks_clear : p.SameBooks (p.clear n).1 := by
  unfold clear
  split
  · exact ⟨rfl, rfl, rfl, rfl, rfl⟩
  · exact ⟨numbers_put p n _, rfl, rfl, rfl, rfl⟩

/-! ## Taking back -/

variable (pressure : Pressure) {ns : List Nat}

/-- Whether the value with this number is in use, and memory this short takes something away from
it. -/
def takes : Bool := (p.get? n).any (Lazy.isTaken pressure)

theorem takes_iff :
    p.takes n pressure = true ↔ ∃ l, p.get? n = some l ∧ l.isTaken pressure = true := by
  unfold takes
  cases p.get? n <;> simp

/-- A value is taken back if it is there and the pressure reclaims its strength. -/
theorem takes_eq :
    p.takes n pressure = ((p.get? n).any Lazy.isComputed &&
      (p.get? n).any (pressure.reclaims ·.strength)) := by
  unfold takes
  cases p.get? n <;> rfl

theorem takeBack_cons (ns : List Nat) :
    takeBack pressure (n :: ns) p =
      if (p.get? n).any (pressure.reclaims ·.strength) then
        ((takeBack pressure ns (p.clear n).1).1,
          if (p.clear n).2 then (takeBack pressure ns (p.clear n).1).2 + 1 else
            (takeBack pressure ns (p.clear n).1).2)
      else takeBack pressure ns p := rfl

/-- The values with these numbers are emptied if memory is that short, and the others stay. -/
structure TakenBack (ns : List Nat) (p q : LazyPool α) : Prop extends p.SameBooks q where
  get? : ∀ k, q.get? k = (p.get? k).map fun l => if k ∈ ns ∧ l.isTaken pressure then l.clear else l

/-- A pass over different numbers takes back what the pressure reclaims, and nothing else. -/
theorem takenBack_takeBack (hns : ns.Nodup) :
    TakenBack pressure ns p (takeBack pressure ns p).1 := by
  induction ns generalizing p with
  | nil => exact ⟨⟨rfl, rfl, rfl, rfl, rfl⟩, fun k => by simp [takeBack]⟩
  | cons n ns ih =>
    obtain ⟨hn, hns⟩ := List.nodup_cons.mp hns
    rw [takeBack_cons]
    split
    · rename_i hreclaims
      have hrest := ih (p.clear n).1 hns
      refine ⟨(sameBooks_clear p n).trans hrest.toSameBooks, fun k => ?_⟩
      rw [hrest.get?, get?_clear]
      -- the numbers differ from one another, so the rest of the pass leaves this value alone
      by_cases hk : k = n
      · subst hk
        cases hl : p.get? k with
        | none => simp
        | some l =>
          have hstrength : pressure.reclaims l.strength = true := by simpa [hl] using hreclaims
          cases hheld : l.isComputed with
          | true => simp [hn, Lazy.isTaken, hheld, hstrength]
          | false => simp [hn, Lazy.isTaken, hheld, Lazy.clear_eq_self]
      · simp [hk]
    · rename_i hreclaims
      have hrest := ih p hns
      refine ⟨hrest.toSameBooks, fun k => ?_⟩
      rw [hrest.get?]
      by_cases hk : k = n
      · subst hk
        cases hl : p.get? k with
        | none => rfl
        | some l =>
          have hstrength : pressure.reclaims l.strength = false := by simpa [hl] using hreclaims
          simp [Lazy.isTaken, hstrength]
      · simp [hk]

/-- The pass counts what it takes back. -/
theorem takeBack_snd (hns : ns.Nodup) :
    (takeBack pressure ns p).2 = (ns.filter (p.takes · pressure)).length := by
  induction ns generalizing p with
  | nil => rfl
  | cons n ns ih =>
    obtain ⟨hn, hns⟩ := List.nodup_cons.mp hns
    rw [takeBack_cons, List.filter_cons]
    split
    · rename_i hreclaims
      -- the numbers that follow are others, and clearing this one changes nothing there
      have hothers : ns.filter ((p.clear n).1.takes · pressure) =
        ns.filter (p.takes · pressure) := by
        refine List.filter_congr fun k hk => ?_
        have hkn : k ≠ n := fun h => hn (h ▸ hk)
        simp only [takes, get?_clear, if_neg hkn]
      rw [ih _ hns, hothers, takes_eq, hreclaims, Bool.and_true, ← clear_snd]
      cases (p.clear n).2 <;> rfl
    · rename_i hreclaims
      rw [ih _ hns, takes_eq, eq_false_of_ne_true hreclaims, Bool.and_false]
      rfl

end LazyPool

/-! ## Histories -/

/-- Something that happens to the values of a pool. -/
inductive PoolAction (α ε : Type) where
  | create (s : Strength)
  /-- Ask for a value, with what its computation does to the pool and what it gives in the end. -/
  | get (n : Nat) (inner : List (PoolAction α ε)) (outcome : Except ε α)
  | clear (n : Nat)
  | reclaim (pressure : Pressure)
  | drop (n : Nat)

/-- What is noted of a history. -/
structure PoolLog where
  /-- The values whose computation completed, once for every time. -/
  completed : List Nat := []
  /-- What every call for memory answered. -/
  answers : List Nat := []

/-- A pool and what has happened to it. -/
structure PoolHistory (α : Type) extends PoolLog where
  pool : LazyPool α := {}

namespace PoolHistory

variable {α ε : Type}

/-- A computation that does something to the pool, and leaves its mark when it completes. -/
def computation (n : Nat) (inner : PoolHistory α → PoolHistory α) (outcome : Except ε α) :
    StateT (LazyPool α) (StateM PoolLog) (Except ε α) := fun p log =>
  let h := inner ⟨log, p⟩
  ((outcome, h.pool),
    if outcome.isOk then { h.toPoolLog with completed := h.completed ++ [n] } else h.toPoolLog)

mutual

/-- The history after one more action. A value stays in use while it is being computed. -/
def step : PoolAction α ε → PoolHistory α → PoolHistory α
  | .create s, h => { h with pool := h.pool.create s }
  | .get n inner outcome, h =>
    let request := LazyPool.getOrTryFill n (computation n (fun h => steps inner h) outcome)
    let r := (request.run h.pool).run h.toPoolLog
    ⟨r.2, r.1.2⟩
  | .clear n, h => { h with pool := (h.pool.clear n).1 }
  | .reclaim pressure, h =>
    let r := h.pool.reclaim pressure
    { h with pool := r.1, answers := h.answers ++ [r.2] }
  | .drop n, h => if n ∈ h.pool.computing then h else { h with pool := h.pool.drop n }

/-- The history after several more actions. -/
def steps : List (PoolAction α ε) → PoolHistory α → PoolHistory α
  | [], h => h
  | a :: rest, h => steps rest (step a h)

end

/-- All that happens to a new pool. -/
def run (actions : List (PoolAction α ε)) : PoolHistory α := steps actions {}

/-- A request is answered with what is held, or there is a computation, which fails or fills the
value in the end. -/
theorem step_get (n : Nat) (inner : List (PoolAction α ε)) (outcome : Except ε α)
    (h : PoolHistory α) :
    step (.get n inner outcome) h = h ∨
      ∃ l, h.pool.get? n = some l ∧ l.value = none ∧ n ∉ h.pool.computing ∧ ∃ h',
        h' = steps inner { h with pool := h.pool.enter n } ∧
        (step (.get n inner outcome) h = { h' with pool := h'.pool.leave n } ∨
          ∃ v, step (.get n inner outcome) h =
            { h' with pool := (h'.pool.fill n v).leave n, completed := h'.completed ++ [n] }) := by
  rw [step]
  cases hl : h.pool.get? n with
  | none =>
    rw [LazyPool.run_getOrTryFill_absent hl]
    exact .inl rfl
  | some l =>
    cases hvalue : l.value with
    | some v =>
      rw [LazyPool.run_getOrTryFill_held hl hvalue]
      exact .inl rfl
    | none =>
      by_cases hbusy : n ∈ h.pool.computing
      · rw [LazyPool.run_getOrTryFill_busy hl hvalue hbusy]
        exact .inl rfl
      · refine .inr ⟨l, rfl, hvalue, hbusy, _, rfl, ?_⟩
        cases outcome with
        | error e =>
          rw [LazyPool.run_getOrTryFill_failed hl hvalue hbusy rfl]
          exact .inl rfl
        | ok v =>
          rw [LazyPool.run_getOrTryFill_completed hl hvalue hbusy rfl]
          exact .inr ⟨v, rfl⟩

/-- How the books of a pool agree with its history. -/
structure Sound (h : PoolHistory α) : Prop where
  distinct : h.pool.numbers.Nodup
  balanced : ∀ n l, h.pool.get? n = some l → l.Balanced
  counted : ∀ n l, h.pool.get? n = some l → l.computations = h.completed.count n
  once : h.pool.registered.Nodup
  registered : ∀ n ∈ h.pool.numbers, (n ∈ h.pool.registered ↔ n ∈ h.completed)
  /-- A number that was not given away yet occurs nowhere. -/
  fresh : ∀ n, n ∈ h.pool.numbers ∨ n ∈ h.pool.registered ∨ n ∈ h.completed → n < h.pool.next
  summed : h.pool.reclaimed = h.answers.foldl (· + ·) 0
  /-- What is being computed is in use, and holds nothing yet. -/
  waiting : ∀ n ∈ h.pool.computing, ∃ l, h.pool.get? n = some l ∧ l.value = none

namespace Sound

variable {h : PoolHistory α}

theorem mem_numbers {n : Nat} {l : Lazy α} (hl : h.pool.get? n = some l) : n ∈ h.pool.numbers := by
  rw [LazyPool.mem_numbers_iff, hl]
  rfl

/-- A value is marked as registered exactly if its number is in the register. -/
theorem isRegistered_iff (hs : h.Sound) {n : Nat} {l : Lazy α} (hl : h.pool.get? n = some l) :
    l.isRegistered = true ↔ n ∈ h.pool.registered := by
  rw [hs.registered n (mem_numbers hl), Lazy.isRegistered, decide_eq_true_iff, hs.counted n l hl,
    List.count_pos_iff]

/-- Of the values in use, those are registered that were ever computed. -/
theorem mem_live_iff (hs : h.Sound) (n : Nat) :
    n ∈ h.pool.live ↔ n ∈ h.pool.numbers ∧ n ∈ h.completed := by
  unfold LazyPool.live
  rw [List.mem_filter, ← LazyPool.mem_numbers_iff, and_comm]
  exact and_congr_right fun hn => hs.registered n hn

theorem nodup_live (hs : h.Sound) : h.pool.live.Nodup := hs.once.filter _

/-- What can be taken back is registered. -/
theorem mem_live_of_takes (hs : h.Sound) {pressure : Pressure} {n : Nat}
    (htakes : h.pool.takes n pressure = true) : n ∈ h.pool.live := by
  obtain ⟨l, hl, htaken⟩ := (LazyPool.takes_iff ..).mp htakes
  have hheld : l.isComputed = true := (Bool.and_eq_true_iff.mp htaken).1
  have hpos := (hs.balanced n l hl).computations_pos hheld
  rw [hs.counted n l hl, List.count_pos_iff] at hpos
  exact (hs.mem_live_iff n).mpr ⟨mem_numbers hl, hpos⟩

/-! ### Values that come and go -/

/-- Creating a value keeps the history sound. -/
theorem create (hs : h.Sound) (s : Strength) : Sound { h with pool := h.pool.create s } := by
  -- the number of the new value occurs nowhere yet
  have hnew : ∀ {n}, n ∈ h.pool.numbers ∨ n ∈ h.pool.registered ∨ n ∈ h.completed →
      n ≠ h.pool.next := fun {n} hn => Nat.ne_of_lt (hs.fresh n hn)
  have hcases : ∀ n l, (h.pool.create s).get? n = some l →
      (n = h.pool.next ∧ l = { strength := s }) ∨ h.pool.get? n = some l := by
    intro n l hl
    rw [LazyPool.get?_create] at hl
    split at hl
    · cases hl
      exact .inl ⟨‹_›, rfl⟩
    · exact .inr hl
  refine ⟨?_, ?_, ?_, hs.once, ?_, ?_, hs.summed, ?_⟩
  · exact List.nodup_cons.mpr ⟨fun hmem => hnew (.inl hmem) rfl, hs.distinct⟩
  · intro n l hl
    rcases hcases n l hl with ⟨-, rfl⟩ | hl
    · rfl
    · exact hs.balanced n l hl
  · intro n l hl
    rcases hcases n l hl with ⟨rfl, rfl⟩ | hl
    · exact (List.count_eq_zero.mpr fun hmem => hnew (.inr (.inr hmem)) rfl).symm
    · exact hs.counted n l hl
  · intro n hn
    rcases List.mem_cons.mp hn with rfl | hn
    · exact iff_of_false (fun hmem => hnew (.inr (.inl hmem)) rfl)
        (fun hmem => hnew (.inr (.inr hmem)) rfl)
    · exact hs.registered n hn
  · rintro n (hn | hn)
    · rcases List.mem_cons.mp hn with rfl | hn
      · exact Nat.lt_succ_self _
      · exact Nat.lt_succ_of_lt (hs.fresh n (.inl hn))
    · exact Nat.lt_succ_of_lt (hs.fresh n (.inr hn))
  · intro n hn
    obtain ⟨l, hl, hempty⟩ := hs.waiting n hn
    refine ⟨l, ?_, hempty⟩
    rw [LazyPool.get?_create, if_neg (hnew (.inl (mem_numbers hl))), hl]

/-- A value that is not being computed can be given up. -/
theorem drop (hs : h.Sound) {n : Nat} (hfree : n ∉ h.pool.computing) :
    Sound { h with pool := h.pool.drop n } := by
  have hget : ∀ k l, (h.pool.drop n).get? k = some l → h.pool.get? k = some l := by
    intro k l hl
    rw [LazyPool.get?_drop] at hl
    split at hl
    · cases hl
    · exact hl
  have hnumbers : (h.pool.drop n).numbers.Sublist h.pool.numbers := List.filter_sublist.map _
  refine {
    distinct := hs.distinct.sublist hnumbers
    balanced := fun k l hl => hs.balanced k l (hget k l hl)
    counted := fun k l hl => hs.counted k l (hget k l hl)
    once := hs.once
    registered := fun k hk => hs.registered k (hnumbers.subset hk)
    fresh := fun k hk => hs.fresh k (hk.imp_left fun hk => hnumbers.subset hk)
    summed := hs.summed
    waiting := ?_ }
  intro k hk
  obtain ⟨l, hl, hempty⟩ := hs.waiting k hk
  have hne : k ≠ n := fun heq => hfree (heq ▸ hk)
  exact ⟨l, by rw [LazyPool.get?_drop, if_neg hne, hl], hempty⟩

/-! ### Computations -/

/-- A computation can begin for a value that holds nothing. -/
theorem enter (hs : h.Sound) {n : Nat} {l : Lazy α} (hl : h.pool.get? n = some l)
    (hempty : l.value = none) : Sound { h with pool := h.pool.enter n } := by
  refine { hs with waiting := ?_ }
  intro k hk
  rcases List.mem_cons.mp hk with rfl | hk
  · exact ⟨l, hl, hempty⟩
  · exact hs.waiting k hk

/-- A computation that has failed is over. -/
theorem leave (hs : h.Sound) (n : Nat) : Sound { h with pool := h.pool.leave n } :=
  { hs with waiting := fun k hk => hs.waiting k (List.mem_of_mem_filter hk) }

/-- A value that is registered already keeps its one entry. -/
theorem mem_registered_fill (hs : h.Sound) {n : Nat} {l : Lazy α} (hl : h.pool.get? n = some l)
    (v : α) (k : Nat) :
    k ∈ (h.pool.fill n v).registered ↔ k ∈ h.pool.registered ∨ k = n := by
  rw [LazyPool.registered_fill h.pool n hl]
  split
  · rename_i hknown
    have hin := (hs.isRegistered_iff hl).mp hknown
    exact ⟨.inl, fun hk => hk.elim id fun hk => hk ▸ hin⟩
  · rw [List.mem_append, List.mem_singleton]

/-- Filling a value registers no number twice. -/
theorem nodup_registered_fill (hs : h.Sound) {n : Nat} {l : Lazy α} (hl : h.pool.get? n = some l)
    (v : α) : (h.pool.fill n v).registered.Nodup := by
  rw [LazyPool.registered_fill h.pool n hl]
  split
  · exact hs.once
  · rename_i hnew
    have hout : n ∉ h.pool.registered := fun hin => hnew ((hs.isRegistered_iff hl).mpr hin)
    refine List.nodup_append.mpr ⟨hs.once, List.nodup_singleton n, ?_⟩
    rintro a ha b hb rfl
    exact hout (List.mem_singleton.mp hb ▸ ha)

/-- A computation that has completed fills its value, and is over. -/
theorem fill (hs : h.Sound) {n : Nat} {l : Lazy α} (hl : h.pool.get? n = some l)
    (hempty : l.value = none) (v : α) :
    Sound { h with
      pool := (h.pool.fill n v).leave n, completed := h.completed ++ [n] } := by
  have hnumbers := LazyPool.numbers_fill h.pool n v
  obtain ⟨hnext, hreclaimed, hcomputing⟩ := LazyPool.fill_counts h.pool n v
  have hget := fun k => LazyPool.get?_fill h.pool n k hl v
  have hcases : ∀ k l', (h.pool.fill n v).get? k = some l' →
      (k = n ∧ l' = l.fill v) ∨ (k ≠ n ∧ h.pool.get? k = some l') := by
    intro k l' hl'
    rw [hget] at hl'
    split at hl'
    · cases hl'
      exact .inl ⟨‹_›, rfl⟩
    · exact .inr ⟨‹_›, hl'⟩
  refine ⟨hnumbers ▸ hs.distinct, ?_, ?_, hs.nodup_registered_fill hl v, ?_, ?_,
    hreclaimed.trans hs.summed, ?_⟩
  · intro k l' hl'
    rcases hcases k l' hl' with ⟨rfl, rfl⟩ | ⟨-, hk⟩
    · exact (hs.balanced k l hl).fill hempty v
    · exact hs.balanced k l' hk
  · intro k l' hl'
    -- the one computation that has completed counts for its own value only
    rcases hcases k l' hl' with ⟨rfl, rfl⟩ | ⟨hne, hk⟩
    · show l.computations + 1 = _
      rw [List.count_append, List.count_singleton_self, hs.counted k l hl]
    · rw [List.count_append, List.count_singleton, hs.counted k l' hk]
      simp [Ne.symm hne]
  · intro k hk
    show k ∈ (h.pool.fill n v).registered ↔ _
    rw [hs.mem_registered_fill hl, List.mem_append, List.mem_singleton,
      hs.registered k (hnumbers ▸ hk)]
  · intro k hk
    replace hk : k ∈ (h.pool.fill n v).numbers ∨ k ∈ (h.pool.fill n v).registered ∨
      k ∈ h.completed ++ [n] := hk
    rw [hs.mem_registered_fill hl, hnumbers, List.mem_append, List.mem_singleton] at hk
    show k < (h.pool.fill n v).next
    rw [hnext]
    by_cases hkn : k = n
    · exact hkn ▸ hs.fresh n (.inl (mem_numbers hl))
    · exact hs.fresh k (hk.imp_right (·.imp (·.resolve_right hkn) (·.resolve_right hkn)))
  · intro k hk
    -- what is still being computed are other values
    obtain ⟨hk, hne⟩ := List.mem_filter.mp hk
    rw [hcomputing] at hk
    obtain ⟨l', hl', hempty'⟩ := hs.waiting k hk
    refine ⟨l', ?_, hempty'⟩
    show (h.pool.fill n v).get? k = some l'
    rw [hget, if_neg (bne_iff_ne.mp hne), hl']

/-! ### Values that are emptied -/

/-- Emptying some values, and forgetting registered values that are not in use any more, leaves the
books in order. -/
theorem empty (hs : h.Sound) {q : LazyPool α} {answers : List Nat}
    (hnumbers : q.numbers = h.pool.numbers) (hnext : q.next = h.pool.next)
    (hcomputing : q.computing = h.pool.computing)
    (hregistered : q.registered = h.pool.registered ∨ q.registered = h.pool.live)
    (emptied : Nat → Lazy α → Prop) [∀ n l, Decidable (emptied n l)]
    (hget : ∀ n, q.get? n = (h.pool.get? n).map fun l => if emptied n l then l.clear else l)
    (hsum : q.reclaimed = answers.foldl (· + ·) 0) : Sound { h with pool := q, answers } := by
  have hcases : ∀ n l', q.get? n = some l' →
      ∃ l, h.pool.get? n = some l ∧ (l' = l.clear ∨ l' = l) := by
    intro n l' hl'
    rw [hget] at hl'
    obtain ⟨l, hl, rfl⟩ := Option.map_eq_some_iff.mp hl'
    refine ⟨l, hl, ?_⟩
    split
    · exact .inl rfl
    · exact .inr rfl
  have hsublist : q.registered.Sublist h.pool.registered := by
    rcases hregistered with heq | heq
    · exact heq ▸ List.Sublist.refl _
    · exact heq ▸ List.filter_sublist
  refine ⟨hnumbers ▸ hs.distinct, ?_, ?_, hs.once.sublist hsublist, ?_, ?_, hsum, ?_⟩
  · intro n l' hl'
    obtain ⟨l, hl, rfl | rfl⟩ := hcases n l' hl'
    · exact (hs.balanced n l hl).clear
    · exact hs.balanced n l' hl
  · intro n l' hl'
    obtain ⟨l, hl, rfl | rfl⟩ := hcases n l' hl'
    · exact (Lazy.computations_clear l).trans (hs.counted n l hl)
    · exact hs.counted n l' hl
  · intro n hn
    have hn : n ∈ h.pool.numbers := hnumbers ▸ hn
    show n ∈ q.registered ↔ _
    rcases hregistered with heq | heq
    · rw [heq, hs.registered n hn]
    · rw [heq, hs.mem_live_iff]
      exact and_iff_right hn
  · intro n hn
    show n < q.next
    rw [hnext]
    exact hs.fresh n (hn.imp (hnumbers ▸ ·) (·.imp_left fun hn => hsublist.subset hn))
  · intro n hn
    -- what is being computed holds nothing that could be emptied
    obtain ⟨l, hl, hempty⟩ := hs.waiting n (hcomputing ▸ hn)
    have hclear : l.clear = l := Lazy.clear_eq_self (by simp [Lazy.isComputed, hempty])
    refine ⟨l, ?_, hempty⟩
    show q.get? n = some l
    rw [hget, hl, Option.map_some, hclear, ite_self]

/-- Clearing a value keeps the history sound. -/
theorem clear (hs : h.Sound) (n : Nat) : Sound { h with pool := (h.pool.clear n).1 } := by
  have hbooks := LazyPool.sameBooks_clear h.pool n
  refine hs.empty hbooks.numbers hbooks.next hbooks.computing (.inl hbooks.registered)
    (fun k _ => k = n) ?_ (hbooks.reclaimed.trans hs.summed)
  intro k
  rw [LazyPool.get?_clear]
  split
  · rfl
  · rw [Option.map_id']

/-- What a call for memory does to every value in use. -/
theorem get?_reclaim (hs : h.Sound) (pressure : Pressure) (k : Nat) :
    (h.pool.reclaim pressure).1.get? k =
      (h.pool.get? k).map fun l => if l.isTaken pressure then l.clear else l := by
  have htaken :=
    LazyPool.takenBack_takeBack { h.pool with registered := h.pool.live } pressure hs.nodup_live
  refine (htaken.get? k).trans ?_
  show (h.pool.get? k).map _ = _
  refine Option.map_congr fun l hl => ?_
  -- only the registered values are gone through, but no other value holds anything
  have hin : l.isTaken pressure = true → k ∈ h.pool.live :=
    fun htaken => hs.mem_live_of_takes ((LazyPool.takes_iff ..).mpr ⟨l, hl, htaken⟩)
  exact if_congr ⟨And.right, fun htaken => ⟨hin htaken, htaken⟩⟩ rfl rfl

/-- The answer to a call for memory counts the values in use from which it takes something. -/
theorem reclaim_snd (hs : h.Sound) (pressure : Pressure) :
    (h.pool.reclaim pressure).2 =
      (h.pool.numbers.filter (h.pool.takes · pressure)).length := by
  have hcount :=
    LazyPool.takeBack_snd { h.pool with registered := h.pool.live } pressure hs.nodup_live
  refine hcount.trans (List.Perm.length_eq ?_)
  refine (List.perm_ext_iff_of_nodup (hs.nodup_live.filter _) (hs.distinct.filter _)).mpr ?_
  intro n
  rw [List.mem_filter, List.mem_filter]
  constructor
  · rintro ⟨hn, htakes⟩
    exact ⟨((hs.mem_live_iff n).mp hn).1, htakes⟩
  · rintro ⟨-, htakes⟩
    exact ⟨hs.mem_live_of_takes htakes, htakes⟩

theorem sameBooks_reclaim (hs : h.Sound) (pressure : Pressure) :
    LazyPool.SameBooks { h.pool with registered := h.pool.live }
      (LazyPool.takeBack pressure h.pool.live { h.pool with registered := h.pool.live }).1 :=
  (LazyPool.takenBack_takeBack _ pressure hs.nodup_live).toSameBooks

/-- Reclaiming keeps the history sound. -/
theorem reclaim (hs : h.Sound) (pressure : Pressure) :
    Sound { h with
      pool := (h.pool.reclaim pressure).1,
      answers := h.answers ++ [(h.pool.reclaim pressure).2] } := by
  have hbooks := hs.sameBooks_reclaim pressure
  refine hs.empty hbooks.numbers hbooks.next hbooks.computing (.inr hbooks.registered)
    (fun _ l => l.isTaken pressure = true) (hs.get?_reclaim pressure) ?_
  rw [List.foldl_append, ← hs.summed]
  exact congrArg (· + _) hbooks.reclaimed

/-! ### Whole histories -/

mutual

/-- An action keeps the books in order, and when it is over, what was being computed before still
is. -/
protected theorem step : ∀ (a : PoolAction α ε) {h : PoolHistory α}, h.Sound →
    (step a h).Sound ∧ (step a h).pool.computing = h.pool.computing
  | .create s, _, hs => ⟨hs.create s, rfl⟩
  | .get n inner outcome, h, hs => by
    rcases step_get n inner outcome h with heq | ⟨l, hl, hempty, hfree, h', rfl, hend⟩
    · rw [heq]
      exact ⟨hs, rfl⟩
    · obtain ⟨hs', hcomputing⟩ := Sound.steps inner (hs.enter hl hempty)
      have hleave : ((h.pool.enter n).leave n).computing = h.pool.computing := by
        rw [LazyPool.leave_enter h.pool n hfree]
      rcases hend with heq | ⟨v, heq⟩
      · rw [heq]
        exact ⟨hs'.leave n, (congrArg (List.filter (· != n)) hcomputing).trans hleave⟩
      · -- the value has been waiting all along
        obtain ⟨l', hl', hempty'⟩ := hs'.waiting n (hcomputing ▸ List.mem_cons_self)
        rw [heq]
        refine ⟨hs'.fill hl' hempty' v, ?_⟩
        have hfill :=
          (LazyPool.fill_counts (steps inner { h with pool := h.pool.enter n }).pool n v).2.2
        exact (congrArg (List.filter (· != n)) (hfill.trans hcomputing)).trans hleave
  | .clear n, h, hs => ⟨hs.clear n, (LazyPool.sameBooks_clear h.pool n).computing⟩
  | .reclaim pressure, _, hs => ⟨hs.reclaim pressure, (hs.sameBooks_reclaim pressure).computing⟩
  | .drop n, h, hs => by
    unfold PoolHistory.step
    split
    · exact ⟨hs, rfl⟩
    · rename_i hfree
      exact ⟨hs.drop hfree, rfl⟩

/-- So does a sequence of actions. -/
protected theorem steps : ∀ (actions : List (PoolAction α ε)) {h : PoolHistory α}, h.Sound →
    (steps actions h).Sound ∧ (steps actions h).pool.computing = h.pool.computing
  | [], _, hs => ⟨hs, rfl⟩
  | a :: rest, _, hs => by
    obtain ⟨hs', hcomputing⟩ := Sound.step a hs
    obtain ⟨hs'', hcomputing'⟩ := Sound.steps rest hs'
    exact ⟨hs'', hcomputing'.trans hcomputing⟩

end

theorem nothing : Sound ({} : PoolHistory α) where
  distinct := List.nodup_nil
  balanced := by rintro n l ⟨⟩
  counted := by rintro n l ⟨⟩
  once := List.nodup_nil
  registered := fun n hn => absurd hn List.not_mem_nil
  fresh := by rintro n (hn | hn | hn) <;> exact absurd hn List.not_mem_nil
  summed := rfl
  waiting := fun n hn => absurd hn List.not_mem_nil

/-- The values in use that were ever computed, counted once each. -/
theorem length_live (hs : h.Sound) :
    h.pool.live.length = (h.pool.numbers.filter (h.completed.contains ·)).length := by
  refine List.Perm.length_eq ?_
  refine (List.perm_ext_iff_of_nodup hs.nodup_live (hs.distinct.filter _)).mpr fun n => ?_
  rw [hs.mem_live_iff, List.mem_filter, List.contains_iff_mem]

/-- A number is registered once if its value was ever completed, and never otherwise. -/
theorem count_registered (hs : h.Sound) {n : Nat} (hn : n ∈ h.pool.numbers) :
    h.pool.registered.count n = if n ∈ h.completed then 1 else 0 := by
  rw [hs.once.count]
  exact if_congr (hs.registered n hn) rfl rfl

end Sound

/-- After any history, for every value in use: it was computed as often as its count says, which is
once more than it was emptied if it is held. A held value is not computed again, and a failing
computation that leaves the pool alone changes nothing. The values ever computed are registered, and
once each. A call for memory empties the held values that memory this short takes away, and answers
how many these are; the pool keeps the sum of the answers. -/
theorem books_agree (actions : List (PoolAction α ε)) :
    let h := run actions
    h.pool.numbers.Nodup ∧
    (∀ n l, h.pool.get? n = some l →
      l.computations = h.completed.count n ∧
      l.computations = (if l.isComputed then l.generation + 1 else l.generation)) ∧
    (∀ n l, h.pool.get? n = some l → ∀ (σ : Type) (w : σ),
      (∀ v, l.value = some v → ∀ compute : StateT (LazyPool α) (StateM σ) (Except ε α),
        ((LazyPool.getOrTryFill n compute).run h.pool).run w = ((some (.ok v), h.pool), w)) ∧
      (l.value = none → ∀ (compute : StateM σ (Except ε α)) e w', compute.run w = (.error e, w') →
        ((LazyPool.getOrTryFill n (StateT.lift compute)).run h.pool).run w =
          ((some (.error e), h.pool), w'))) ∧
    h.pool.live.length = (h.pool.numbers.filter (h.completed.contains ·)).length ∧
    (∀ n ∈ h.pool.numbers, h.pool.registered.count n = if n ∈ h.completed then 1 else 0) ∧
    (∀ pressure, (h.pool.reclaim pressure).2 =
        (h.pool.numbers.filter (h.pool.takes · pressure)).length ∧
      ∀ n, (h.pool.reclaim pressure).1.get? n =
        (h.pool.get? n).map fun l => if l.isTaken pressure then l.clear else l) ∧
    h.pool.reclaimed = h.answers.foldl (· + ·) 0 := by
  intro h
  obtain ⟨hs, hcomputing⟩ : h.Sound ∧ h.pool.computing = [] := Sound.steps actions Sound.nothing
  refine ⟨hs.distinct, fun n l hl => ⟨hs.counted n l hl, hs.balanced n l hl⟩,
    fun n l hl σ w => ⟨fun v hv _ => LazyPool.run_getOrTryFill_held hl hv w, ?_⟩,
    hs.length_live, fun n hn => hs.count_registered hn,
    fun pressure => ⟨hs.reclaim_snd pressure, hs.get?_reclaim pressure⟩, hs.summed⟩
  intro hempty compute e w' hfail
  have hfree : n ∉ h.pool.computing := hcomputing ▸ List.not_mem_nil
  have hlift : ((StateT.lift compute).run (h.pool.enter n)).run w =
      ((.error e, h.pool.enter n), w') := by
    refine (StateT.run_bind compute _ w).trans ?_
    rw [hfail]
    rfl
  rw [LazyPool.run_getOrTryFill_failed hl hempty hfree hlift, LazyPool.leave_enter _ _ hfree]

/-- Three values that are computed, asked for again, emptied and taken back, of which one is
computed while another one is, and a fourth that is given up. -/
def usage : List (PoolAction String Unit) := [
  .create .weak, .create .soft, .get 0 [] (.error ()), .get 0 [] (.ok "a"), .get 0 [] (.ok "b"),
  .get 1 [.create .weak, .get 2 [.get 1 [] (.ok "x")] (.ok "y"), .drop 1] (.ok "c"), .reclaim .low,
  .get 0 [] (.ok "d"), .create .weak, .get 3 [] (.ok "e"), .clear 1, .drop 3]

/-- A run with a failing computation, one that uses the pool itself and one that is still going
on. -/
theorem books_agree_usage :
    let h := run usage
    (h.pool.get? 0 = some ⟨.weak, some "d", 1, 2⟩ ∧ 2 = h.completed.count 0 ∧ 2 = 1 + 1) ∧
    (h.pool.get? 1 = some ⟨.soft, none, 1, 1⟩ ∧ 1 = h.completed.count 1 ∧ 1 = 1) ∧
    (h.pool.get? 2 = some ⟨.weak, none, 1, 1⟩ ∧ 1 = h.completed.count 2 ∧ 1 = 1) ∧
    ((LazyPool.getOrTryFill 0 (computation 0 id (.ok "f" : Except Unit String))).run h.pool).run
      {} =
      ((some (.ok "d"), h.pool), {}) ∧
    ((LazyPool.getOrTryFill 1
      (StateT.lift (pure (.error ()) : StateM PoolLog (Except Unit String)))).run
      h.pool).run {} = ((some (.error ()), h.pool), {}) ∧
    h.pool.live.length = 3 ∧ h.pool.registered.count 1 = 1 ∧
    (h.pool.reclaim .low).2 = 1 ∧
    (h.pool.reclaim .low).1.get? 0 = some ⟨.weak, none, 2, 2⟩ ∧
    h.pool.reclaimed = [2].foldl (· + ·) 0 := by
  obtain ⟨-, hcounts, hget, hlive, honce, hreclaim, hsum⟩ := books_agree usage
  exact ⟨⟨rfl, hcounts 0 _ rfl⟩, ⟨rfl, hcounts 1 _ rfl⟩, ⟨rfl, hcounts 2 _ rfl⟩,
    (hget 0 _ rfl _ _).1 _ rfl _, (hget 1 _ rfl _ _).2 rfl _ _ _ rfl, hlive, honce 1 (by decide),
    (hreclaim .low).1, (hreclaim .low).2 0, hsum⟩

end PoolHistory

end Metaobject
