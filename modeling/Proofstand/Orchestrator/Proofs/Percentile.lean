/-
The time the report publishes as an agent's p90.

The index is the rank cut off to an integer, less one. Cutting off is one
rank low unless ten divides the number of runs, and then the value is the
90th percentile only where the two ranks share a value: where no run has
exactly the cut-off number of runs no longer than it
(`p90_isP90_iff`). One run is the exception, the index being clamped.

# How it goes

Both the percentile and the published value are order statistics: the
element of some rank in the sorted list. `isP90_iff` and `p90_eq_some_iff`
say so, and comparing them is arithmetic on the two ranks, `⌈9n/10⌉` and
`⌊9n/10⌋`. They are one apart or equal, and where they are one apart the
values agree exactly if the element at the lower rank stands at the next
one too. For one run both are the first, since the index is clamped.

The list of wall times is the task's own (`agentWalls`), with those runs
left out that have no time.
-/
import Proofstand.Lib.OrderStatistic
import Proofstand.Orchestrator.Proofs.Report

namespace Proofstand.Report

open Fallible
open OrderStatistic (countLe IsOrderStatistic)

variable {K : Type} [LinearOrder K]

-- ====================================================== the 90th percentile

/-- At least nine runs in ten take no longer. -/
def CoversNineTenths (walls : List K) (v : K) : Prop :=
  9 * walls.length ≤ 10 * countLe walls v

/-- The least of the wall times that nine runs in ten do not exceed. -/
structure IsP90 (walls : List K) (v : K) : Prop where
  mem : v ∈ walls
  covers : CoversNineTenths walls v
  least : ∀ u ∈ walls, CoversNineTenths walls u → v ≤ u

/-- The rank of the 90th percentile: nine tenths, rounded up. -/
def p90Rank (n : Nat) : Nat := (n * 9 + 9) / 10

/-- Covering nine tenths is reaching the rank, -/
theorem coversNineTenths_iff {walls : List K} {v : K} :
    CoversNineTenths walls v
      ↔ p90Rank walls.length ≤ countLe walls v := by
  unfold CoversNineTenths p90Rank
  omega

/-- so the 90th percentile is an order statistic. -/
theorem isP90_iff {walls : List K} {v : K} :
    IsP90 walls v ↔ IsOrderStatistic walls (p90Rank walls.length) v := by
  constructor
  · intro h
    refine ⟨h.mem, coversNineTenths_iff.1 h.covers, ?_⟩
    intro u hu hcovers
    exact h.least u hu (coversNineTenths_iff.2 hcovers)
  · intro h
    refine ⟨h.mem, coversNineTenths_iff.2 h.covers, ?_⟩
    intro u hu hcovers
    exact h.least u hu (coversNineTenths_iff.1 hcovers)

/-- Nine tenths of the runs are a whole number, or no wall time is one
that exactly that number, cut off, do not exceed. -/
def NothingCutOff (walls : List K) : Prop :=
  10 ∣ walls.length
    ∨ ∀ x ∈ walls, countLe walls x ≠ walls.length * 9 / 10

-- ============================================================ what is taken

/-- `_p90` returns one too, of a rank of its own, -/
theorem p90_eq_some_iff {walls : List K} {v : K} :
    p90 walls = some v
      ↔ IsOrderStatistic walls (walls.length * 9 / 10 - 1 + 1) v :=
  OrderStatistic.getElem?_insertionSort_iff

/-- and returns one of every list that is not empty. -/
theorem p90_total {walls : List K} (h : walls ≠ []) :
    ∃ v, p90 walls = some v := by
  have hlen : (pySorted walls).length = walls.length :=
    List.length_insertionSort _ _
  have hpos : 0 < walls.length := List.length_pos_iff.2 h
  have hlt : walls.length * 9 / 10 - 1 < (pySorted walls).length := by
    rw [hlen]
    omega
  exact ⟨_, List.getElem?_eq_getElem hlt⟩

/-- What is taken is the 90th percentile where nothing is cut off. -/
theorem p90_isP90_iff {walls : List K} {v : K}
    (h : p90 walls = some v) : IsP90 walls v ↔ NothingCutOff walls := by
  rw [p90_eq_some_iff] at h
  rw [isP90_iff, NothingCutOff]
  by_cases hten : 10 ∣ walls.length
  · -- both ranks are nine tenths
    have hpos : 0 < walls.length := List.length_pos_of_mem h.mem
    have hrank : p90Rank walls.length = walls.length * 9 / 10 - 1 + 1 := by
      unfold p90Rank
      omega
    rw [hrank]
    exact iff_of_true h (Or.inl hten)
  · rw [or_iff_right hten]
    have hrank : p90Rank walls.length = walls.length * 9 / 10 + 1 := by
      have hrest : ¬ 10 ∣ walls.length * 9 := fun hdvd =>
        hten ((Nat.Coprime.dvd_mul_right (by decide)).1 hdvd)
      unfold p90Rank
      omega
    rw [hrank]
    by_cases hzero : walls.length * 9 / 10 = 0
    · -- a single run: the clamp makes up for the cut
      rw [hzero] at h ⊢
      refine iff_of_true h ?_
      intro x hx
      exact (OrderStatistic.countLe_pos hx).ne'
    · rw [Nat.sub_add_cancel (Nat.pos_of_ne_zero hzero)] at h
      exact h.succ_iff

-- ================================================================== tasks

variable [Field K]

/-- `agent_walls`. -/
def agentWalls (rows : List (JoinedRow K)) : List K :=
  rows.filterMap fun r => r.agentRun.wallSeconds

theorem taskTime_p90 [FloorRing K] (m : Option (MarketManifest K))
    (rows : List (JoinedRow K)) :
    (taskTime m rows).agentP90Seconds
      = (p90 (agentWalls rows)).map fun x => pyRound x 3 :=
  rfl

theorem taskForGroup_time [FloorRing K] {agentId : String}
    {rows : List (JoinedRow K)} {reg : Registry K} {t : Task K}
    (h : taskForGroup agentId rows reg = .ok t) :
    t.time = taskTime (reg.manifest? agentId) rows := by
  obtain ⟨firstAt, -, h⟩ := bind_eq_ok.1 h
  obtain ⟨lastAt, -, h⟩ := bind_eq_ok.1 h
  obtain ⟨quality, -, h⟩ := bind_eq_ok.1 h
  obtain ⟨maxTier, -, h⟩ := bind_eq_ok.1 h
  cases rows with
  | nil => cases h
  | cons first rest =>
      cases h
      rfl

/-- The task of any agent whose runs were timed is made, and has for its
p90 the rounded 90th percentile exactly where nothing is cut off. -/
theorem agentP90_isP90_iff [FloorRing K] (agentId : String)
    (rows : List (JoinedRow K)) (reg : Registry K)
    (h : agentWalls rows ≠ []) :
    ∃ t v, taskForGroup agentId rows reg = .ok t
      ∧ p90 (agentWalls rows) = some v
      ∧ t.time.agentP90Seconds = some (pyRound v 3)
      ∧ (IsP90 (agentWalls rows) v ↔ NothingCutOff (agentWalls rows)) := by
  have hrows : rows ≠ [] := by
    intro heq
    subst heq
    exact h rfl
  obtain ⟨t, ht⟩ := taskForGroup_total agentId reg hrows
  obtain ⟨v, hv⟩ := p90_total h
  refine ⟨t, v, ht, hv, ?_, p90_isP90_iff hv⟩
  rw [taskForGroup_time ht, taskTime_p90, hv]
  rfl

-- ============================================================ timed runs

/-- Joined rows of the given wall times. -/
def timedRows (walls : List ℚ) : List (JoinedRow ℚ) :=
  walls.map fun w =>
    { receipt := plainReceipt 3 1 2 "findings" "count" 1
      agentRun :=
        { plainRun "bsc-sentry" 1 .agent 0 with wallSeconds := some w }
      baselineRun := plainRun "bsc-sentry" 2 .baseline 0 }

theorem agentWalls_timedRows (walls : List ℚ) :
    agentWalls (timedRows walls) = walls := by
  rw [agentWalls, timedRows, List.filterMap_map]
  exact List.filterMap_some

/-- Of ten runs the ninth shortest is published, and nine in ten are no
longer. -/
theorem agentP90_of_ten :
    ∃ t v, taskForGroup "bsc-sentry"
        (timedRows [1, 2, 3, 4, 5, 6, 7, 8, 9, 10]) [] = .ok t
      ∧ t.time.agentP90Seconds = some (pyRound v 3)
      ∧ IsP90 [1, 2, 3, 4, 5, 6, 7, 8, 9, 10] v := by
  have hne : agentWalls (timedRows [1, 2, 3, 4, 5, 6, 7, 8, 9, 10]) ≠ [] := by
    rw [agentWalls_timedRows]
    exact List.cons_ne_nil _ _
  obtain ⟨t, v, ht, -, hround, hiff⟩ :=
    agentP90_isP90_iff "bsc-sentry" _ [] hne
  rw [agentWalls_timedRows] at hiff
  exact ⟨t, v, ht, hround, hiff.2 (Or.inl (by decide))⟩

/-- Of two runs the shorter is published, and only one is no longer. -/
theorem agentP90_of_two :
    ∃ t, taskForGroup "bsc-sentry" (timedRows [1, 2]) [] = .ok t
      ∧ t.time.agentP90Seconds = some (pyRound 1 3)
      ∧ p90 (agentWalls (timedRows [1, 2])) = some 1
      ∧ ¬ IsP90 (agentWalls (timedRows [1, 2])) 1 := by
  have hp90 : p90 (agentWalls (timedRows [1, 2])) = some 1 := by
    decide +kernel
  have hrows : timedRows [1, 2] ≠ [] := List.cons_ne_nil _ _
  obtain ⟨t, ht⟩ := taskForGroup_total "bsc-sentry" [] hrows
  refine ⟨t, ht, ?_, hp90, ?_⟩
  · rw [taskForGroup_time ht, taskTime_p90, hp90]
    rfl
  · rw [agentWalls_timedRows]
    intro h
    exact absurd h.covers (by unfold CoversNineTenths countLe; decide)

end Proofstand.Report
