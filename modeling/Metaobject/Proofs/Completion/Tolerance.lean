import Metaobject.Proofs.Completion.Passes
import Metaobject.Proofs.Dispatch.Remarking

/-!
# Completing a unit with a limited log

A limited log records the first problems of the unlimited one. A run that reaches the limit stops
before constructors are completed and calls are marked; a run that does not reach it does what the
unlimited run does.

* `ProblemLog.addAll_limited`: a limited log records the first problems and counts the rest.
* `Preparation.finishes`: the passes that write constructors and markers do not look at the log.
* `complete_cut`: both runs side by side.
-/

namespace Metaobject

/-! ## Limited logs -/

namespace ProblemLog

/-- A log without a limit records everything. -/
theorem addAll_unlimited (ps : List Problem) : ({} : ProblemLog).addAll ps = ⟨ps, 0, 0⟩ :=
  addAll_of_unlimited rfl ps

variable {n : Nat}

/-- The log that has been given the problems `ps`, of which it keeps the first `n`. -/
def limited (n : Nat) (ps : List Problem) : ProblemLog := ⟨ps.take n, n, ps.length - n⟩

/-- A limited log is full once it was given as many problems as it may record. -/
theorem isFull_limited (hn : 1 ≤ n) (ps : List Problem) :
    (limited n ps).isFull ↔ n ≤ ps.length := by
  have hpos : 0 < n := hn
  simp [isFull, limited, size, hpos]

/-- A limited log keeps its form when a problem is added. -/
theorem add_limited (hn : 1 ≤ n) (ps : List Problem) (p : Problem) :
    (limited n ps).add p = limited n (ps ++ [p]) := by
  -- at the limit only the count of dropped problems grows, below it only the list
  by_cases hfull : n ≤ ps.length
  · rw [add, if_pos ((isFull_limited hn ps).mpr hfull), limited, limited,
      List.take_append_of_le_length hfull, List.length_append]
    simp only [List.length_singleton]
    congr 1
    omega
  · rw [add, if_neg fun h => hfull ((isFull_limited hn ps).mp h), limited, limited,
      List.take_of_length_le (by omega), List.take_of_length_le (by simp; omega),
      List.length_append]
    simp only [List.length_singleton]
    congr 1
    omega

/-- A limited log records the first problems and counts the rest. -/
theorem addAll_limited (hn : 1 ≤ n) (ps : List Problem) :
    ({ tolerance := n } : ProblemLog).addAll ps = limited n ps := by
  have hall (ps : List Problem) : ∀ before,
    (limited n before).addAll ps = limited n (before ++ ps) := by
    induction ps with
    | nil => intro before; simp
    | cons p ps ih =>
      intro before
      rw [addAll_cons, add_limited hn, ih, List.append_assoc]
      rfl
  have hempty : limited n [] = { tolerance := n } := by simp [limited]
  rw [← hempty]
  exact hall ps []

end ProblemLog

namespace CompilationUnit

/-! ## The passes that follow -/

/-- After the passes before the constructors, a run ends without a fault, and the log plays no part
in it. -/
theorem Preparation.finishes {settings : CompilerSettings} {t : ClassTable}
    (P : Preparation settings t) (ht : t.WellFormed) :
    ∃ t' sites, ∀ log, (completeConstructors ⟨P.defined, log⟩ t.enumOrder >>= fun u₄ =>
      u₄.markClasses settings.callSiteCaching u₄.table.sourceIds) = .ok (⟨t', log⟩, sites) := by
  have henums := P.isSourceEnum ht.numbered
  obtain ⟨t₄, found, hrun₄, hrel₄, -⟩ :=
    constructorStep_header.foldlM t.enumOrder P.defined trivial henums
  have hrel : t.Related ClassDecl.SameHeader t₄ := (P.related.mono (·.header)).trans .trans hrel₄
  have hpresent : ∀ id ∈ t₄.sourceIds, ∃ c, t₄.get? id = some c := by
    intro id hid
    obtain ⟨c, hget, -⟩ := (ClassTable.mem_sourceIds (hrel.numbered ht.numbered)).mp hid
    exact ⟨c, hget⟩
  obtain ⟨t₅, sites, hmark, -⟩ := markClasses_settles settings.callSiteCaching t₄.sourceIds t₄
    (hrel.finiteChains ht.chains) hpresent
  refine ⟨t₅, sites, fun log => ?_⟩
  rw [hrun₄.completeConstructors]
  exact hmark log

/-! ## Both runs -/

/-- A limited run records the first problems of the unlimited one. If there are fewer problems than
the limit, both runs end alike and nothing is dropped; otherwise no site table is made, no
constructor changes but in its annotations, and every marked call was there before. -/
theorem complete_cut (settings : CompilerSettings) {t : ClassTable} (ht : t.WellFormed) {n : Nat}
    (hn : 1 ≤ n) :
    ∃ full fullSites cut cutSites, complete settings ⟨t, {}⟩ = .ok (full, fullSites) ∧
      complete settings ⟨t, { tolerance := n }⟩ = .ok (cut, cutSites) ∧
      cut.log.recorded = full.log.recorded.take n ∧
      (full.log.recorded.length < n → cut.table = full.table ∧ cutSites = fullSites ∧
        cut.log.dropped = 0) ∧
      (n ≤ full.log.recorded.length → cutSites = [] ∧ ∀ id c', cut.table.get? id = some c' →
        ∃ c, t.get? id = some c ∧
          c'.constructors.map Constructor.bare = c.constructors.map Constructor.bare ∧
          ∀ e d, .node (.expr e) ∈ c'.visits → e.dispatch? = some d →
            .node (.expr e) ∈ c.visits) := by
  obtain ⟨P⟩ := exists_preparation settings ht
  obtain ⟨t', sites, hfinish⟩ := P.finishes ht
  have hfull : complete settings ⟨t, {}⟩ = .ok (⟨t', ⟨P.problems, 0, 0⟩⟩, sites) := by
    rw [P.complete_eq (ProblemLog.isFull_of_unlimited (by simp)), ProblemLog.addAll_unlimited]
    exact hfinish _
  obtain ⟨t'', found, hrelated, hfound, ⟨hstop, hrun⟩ | ⟨hgoes, hrun⟩⟩ :=
    P.complete_cases { tolerance := n }
  · -- stopped: the problems found so far are a prefix of all, and at least `n` of them
    rw [ProblemLog.addAll_limited hn, ProblemLog.isFull_limited hn] at hstop
    rw [ProblemLog.addAll_limited hn] at hrun
    obtain ⟨rest, hrest⟩ := hfound
    refine ⟨_, _, _, _, hfull, hrun, ?_, ?_, ?_⟩
    · show found.take n = P.problems.take n
      rw [← hrest, List.take_append_of_le_length hstop]
    · intro hless
      have hle : found.length ≤ P.problems.length := by rw [← hrest]; simp
      have hlt : P.problems.length < n := hless
      omega
    · refine fun _ => ⟨rfl, fun id c' hget' => ?_⟩
      obtain ⟨c, hget, hprepares⟩ := hrelated.exists_get? hget'
      refine ⟨c, hget, hprepares.bare, fun e d he hd => ?_⟩
      rw [ClassDecl.node_mem_visits] at he ⊢
      exact (hprepares.marks _ he).resolve_left (by simp [Visit.isUnmarked, hd])
  · -- not stopped: all problems are found, and they are fewer than `n`
    rw [ProblemLog.addAll_limited hn, ProblemLog.isFull_limited hn] at hgoes
    rw [hfinish, ProblemLog.addAll_limited hn] at hrun
    refine ⟨_, _, _, _, hfull, hrun, rfl, fun _ => ⟨rfl, rfl, ?_⟩, fun hle => absurd hle hgoes⟩
    show P.problems.length - n = 0
    omega

/-- A class with two usages of classes that are no annotation types. -/
def pointTable : ClassTable := ClassTable.seeded.add
  { ClassDecl.empty "Point" .ordinary with
    annotations := [⟨.resolved 0 "Object", [], false, .synthetic⟩,
      ⟨.resolved 1 "String", [], false, .synthetic⟩] }

/-- Two problems and a limit of one. -/
theorem complete_cut_first :
    ∃ full fullSites cut cutSites, complete {} ⟨pointTable, {}⟩ = .ok (full, fullSites) ∧
      complete {} ⟨pointTable, { tolerance := 1 }⟩ = .ok (cut, cutSites) ∧
      cut.log.recorded = full.log.recorded.take 1 ∧
      (full.log.recorded.length < 1 → cut.table = full.table ∧ cutSites = fullSites ∧
        cut.log.dropped = 0) ∧
      (1 ≤ full.log.recorded.length → cutSites = [] ∧ ∀ id c', cut.table.get? id = some c' →
        ∃ c, pointTable.get? id = some c ∧
          c'.constructors.map Constructor.bare = c.constructors.map Constructor.bare ∧
          ∀ e d, .node (.expr e) ∈ c'.visits → e.dispatch? = some d → .node (.expr e) ∈ c.visits) :=
  complete_cut {} ⟨⟨by decide, by decide⟩, by decide, ClassTable.finiteChains_of_lt (by decide)⟩
    (by decide)

end CompilationUnit

end Metaobject
