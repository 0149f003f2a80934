/-
When the rebalancer's replay returns.

Every part of a step returns on positive closes but one: the loss of a
range that has no width (`ilEstimate_raises`). A range has none where it
was picked of a steady window, so the replay returns exactly when it
starts with a width and never adopts a range without one. Of such a range
the rule makes the same number wherever it meets it (`stillNet`): the
fees at the cap of the concentration, against the gas alone.

A state whose range has no width has no way out: the next decision would
raise, and without one the position is closed at the end (`simStep_dead`).

# Alive and dead

A state is alive while the range it holds has a width. From an alive state
a candle returns whatever it does (`decideAt_total`), and what it leaves
is dead only where it adopts a range that was picked of a steady window,
because that range's fees pay the gas. A dead state raises at its next
decision, or at the end, where the loss of the range held is taken. So a
replay that returned was alive all along (`replay_alive`), and that is the
converse.

# Steadiness

A window is steady when all its log returns are one number: the closes are
in geometric progression, a price that stands still among them. Then their
standard deviation is zero, and with it the width picked.
-/
import Proofstand.Agents.Proofs.Journal
import Proofstand.Agents.Proofs.Ticks

namespace Proofstand.PcsRebalancer

open Fallible Calibrate

-- ========================================================== the economics

theorem concentrationFactor_total (hw : ℝ) :
    ∃ c, concentrationFactor realMath hw = .ok c
      ∧ (hw ≤ 0 → c = maxConcentration) := by
  unfold concentrationFactor
  by_cases hnone : hw ≤ 0
  · rw [if_pos hnone]
    exact ⟨_, rfl, fun _ => rfl⟩
  · have hexp : realMath.exp (-hw / 2) < 1 := by
      show Real.exp (-hw / 2) < 1
      rw [Real.exp_lt_one_iff]
      linarith
    rw [if_neg hnone, pyDiv, if_neg (by linarith)]
    exact ⟨_, rfl, fun h => absurd h hnone⟩

/-- What the rule makes of adopting a range without a width. -/
noncomputable def stillNet (p : SimParams ℝ) (horizonDays : ℝ) : ℝ :=
  p.capitalUsd * p.feeAprBase * maxConcentration * horizonDays / 365
    - (p.gasCloseUsd + p.gasOpenUsd)

/-- The rule has a decision wherever the range held has a width. -/
theorem rebalanceDecision_total (p : SimParams ℝ)
    (newRng : RangeConfig ℝ) {current : RangeConfig ℝ}
    (horizonDays elapsedDays : ℝ) (hcurrent : 0 < current.halfWidthFrac) :
    ∃ dec, rebalanceDecision realMath p newRng current horizonDays
        elapsedDays = .ok dec
      ∧ (newRng.volAnnual = 0 → newRng.halfWidthFrac = 0 →
        dec.netUsd = stillNet p horizonDays) := by
  obtain ⟨c, hc, hcap⟩ := concentrationFactor_total newRng.halfWidthFrac
  have helapsed : 0 ≤ max elapsedDays (1 / 100) :=
    le_max_of_le_right (by norm_num)
  obtain ⟨il, hil, hnone⟩ := ilEstimate_total newRng.volAnnual helapsed
    hcurrent
  unfold rebalanceDecision expectedFeesUsd
  rw [hc, ok_bind, pure_eq_ok, ok_bind, hil, ok_bind]
  refine ⟨_, rfl, ?_⟩
  intro hvol hwidth
  simp only [hnone hvol, hcap hwidth.le, stillNet]
  ring

-- ============================================================ one candle

/-- What the loop reads of the range it starts from. -/
structure Picked (initial : RangeConfig ℝ) (m : ℝ) : Prop where
  risk : riskWidth initial.risk = some m
  spacing : initial.spacing ≠ 0
  horizon : 0 < initial.horizonDays

variable {p : SimParams ℝ} {initial : RangeConfig ℝ} {m : ℝ}
  {closes : List ℝ} {idx : Nat} {r : Candle ℝ} {s s' : SimState ℝ}

/-- A range picked inside the loop has a width unless its window is
steady. -/
theorem pick_total (hpicked : Picked initial m) (hlen : 3 ≤ closes.length)
    (hpos : ∀ c ∈ closes, 0 < c) {price : ℝ} (hprice : 0 < price) :
    ∃ rng, selectRange realMath closes price initial.risk initial.feeTier
        initial.horizonDays initial.spacing = .ok rng
      ∧ (Steady closes → rng.volAnnual = 0 ∧ rng.halfWidthFrac = 0)
      ∧ (¬ Steady closes → 0 < rng.halfWidthFrac) := by
  obtain ⟨vol, hvol, hnonneg, hzero⟩ := realizedVol_total hlen hpos
  have hm := riskWidth_pos hpicked.risk
  have hspacing : spacingOf initial.feeTier initial.spacing
      = some initial.spacing := if_neg hpicked.spacing
  have hhorizon := hpicked.horizon
  refine ⟨_, selectRange_real hpicked.risk hspacing hvol hprice hhorizon.le,
    ?_, ?_⟩
  · intro hsteady
    simp [rangeAt, hzero.2 hsteady]
  · intro hmoves
    have hvolPos : 0 < vol := lt_of_le_of_ne hnonneg fun heq =>
      hmoves (hzero.1 heq.symm)
    have hroot : 0 < Real.sqrt (initial.horizonDays / 365) :=
      Real.sqrt_pos.2 (by positivity)
    simp only [rangeAt]
    positivity

/-- A decision from a range with a width, and the range it leaves. -/
theorem decideAt_total (hpicked : Picked initial m)
    (hlen : 3 ≤ (window closes idx).length)
    (hpos : ∀ c ∈ window closes idx, 0 < c) (hprice : 0 < r.close)
    (hwidth : 0 < s.rng.halfWidthFrac) :
    ∃ s', decideAt realMath p initial closes idx r s = .ok s'
      ∧ (¬ Steady (window closes idx) ∨ stillNet p initial.horizonDays ≤ 0 →
        0 < s'.rng.halfWidthFrac)
      ∧ (Steady (window closes idx) → 0 < stillNet p initial.horizonDays →
        ¬ 0 < s'.rng.halfWidthFrac) := by
  obtain ⟨rng, hrng, hstill, hmoves⟩ := pick_total hpicked hlen hpos hprice
  obtain ⟨dec, hdec, hnet⟩ := rebalanceDecision_total p rng
    initial.horizonDays (((idx : ℝ) - s.openIdx) / 24) hwidth
  have hact := (rebalanceDecision_eq_ok hdec).1
  refine ⟨s.decided p idx r rng dec, ?_, ?_, ?_⟩
  · unfold decideAt SimState.decided
    rw [hrng, ok_bind]
    dsimp only
    rw [hdec, ok_bind]
    split
    · rfl
    · rfl
  · intro hwhy
    unfold SimState.decided
    split
    case isTrue hyes =>
        rcases hwhy with hnot | hcheap
        · exact hmoves hnot
        · by_contra hnone
          have hsteady : Steady (window closes idx) := by
            by_contra hnot
            exact hnone (hmoves hnot)
          obtain ⟨hvol, hhw⟩ := hstill hsteady
          have hpays : 0 < dec.netUsd := by
            rw [hyes] at hact
            exact of_decide_eq_true hact.symm
          rw [hnet hvol hhw] at hpays
          exact absurd hpays (not_lt.2 hcheap)
    case isFalse => exact hwidth
  · intro hsteady hpays
    obtain ⟨hvol, hhw⟩ := hstill hsteady
    have hyes : dec.act = true := by
      rw [hact, hnet hvol hhw, decide_eq_true hpays]
    simp [SimState.decided, hyes, hhw]

theorem accrue_total (p : SimParams ℝ) (price : ℝ) (s : SimState ℝ) :
    ∃ t, accrue realMath p price s = .ok t := by
  obtain ⟨c, hc, -⟩ := concentrationFactor_total s.rng.halfWidthFrac
  unfold accrue
  split
  · rw [hc]
    exact ⟨_, rfl⟩
  · exact ⟨_, rfl⟩

theorem isCheckpoint_total {c : Int} (hc : c ≠ 0) (idx : Nat)
    (inRange : Bool) : ∃ b, isCheckpoint c idx inRange = .ok b := by
  unfold isCheckpoint onTheHour
  split
  · exact ⟨_, rfl⟩
  · exact ⟨_, rfl⟩

/-- A state whose range has no width is left only with the same range. -/
theorem simStep_dead (hnone : ¬ 0 < s.rng.halfWidthFrac)
    (h : simStep realMath p initial closes s (r, idx) = .ok s') :
    ¬ 0 < s'.rng.halfWidthFrac := by
  obtain ⟨t, haccrue, hrule⟩ := simStep_eq_ok h
  have hrng := (accrue_keeps haccrue).1
  rcases hrule with ⟨-, rfl⟩ | ⟨-, hdecide⟩
  · rwa [hrng]
  · obtain ⟨rng, dec, -, hdec, -⟩ := decideAt_eq_ok hdecide
    obtain ⟨-, -, -, -, frac, hfrac, -⟩ := rebalanceDecision_eq_ok hdec
    rw [hrng] at hfrac
    exact absurd hfrac (ilEstimate_raises _ _ hnone frac)

-- ============================================================ the replay

variable {rows : List (Candle ℝ)}

theorem window_total (hpos : ∀ r ∈ rows, 0 < r.close) {i : Nat}
    (hlate : 24 ≤ i) (hi : i < rows.length) :
    3 ≤ (window (rows.map Candle.close) i).length
      ∧ ∀ c ∈ window (rows.map Candle.close) i, 0 < c := by
  constructor
  · simp only [window, List.length_drop, List.length_take, List.length_map]
    omega
  · intro c hc
    have hmem := List.mem_of_mem_take (List.mem_of_mem_drop hc)
    obtain ⟨r, hr, rfl⟩ := List.mem_map.1 hmem
    exact hpos r hr

/-- From a range with a width, and adopting none without, the replay
comes to every candle. -/
theorem replay_total (hpicked : Picked initial m)
    (hpos : ∀ r ∈ rows, 0 < r.close) (hperiod : p.checkpointHours ≠ 0)
    (hwidth : 0 < initial.halfWidthFrac)
    (hkeep : stillNet p initial.horizonDays ≤ 0
      ∨ ∀ i, DueAt realMath p initial rows i →
        ¬ Steady (window (rows.map Candle.close) i))
    {n : Nat} (hn : n ≤ rows.length) :
    ∃ t, (rows.zipIdx.take n).foldlM
        (simStep realMath p initial (rows.map Candle.close))
        (SimState.start p initial) = .ok t ∧ 0 < t.rng.halfWidthFrac := by
  induction n with
  | zero => exact ⟨_, rfl, hwidth⟩
  | succ n ih =>
      obtain ⟨t, ht, halive⟩ := ih (by omega)
      have hr : rows[n]? = some rows[n] := List.getElem?_eq_getElem hn
      have hq : rows.zipIdx[n]? = some (rows[n], n) := by
        simp [List.getElem?_zipIdx, hr]
      have hprice := hpos rows[n] (List.getElem_mem hn)
      obtain ⟨u, hu⟩ := accrue_total p rows[n].close t
      have hrng := (accrue_keeps hu).1
      obtain ⟨b, hb⟩ := isCheckpoint_total hperiod n
        (t.rng.contains rows[n].close)
      have hstep : ∃ t', simStep realMath p initial (rows.map Candle.close) t
          (rows[n], n) = .ok t' ∧ 0 < t'.rng.halfWidthFrac := by
        unfold simStep
        simp only [hu, ok_bind, hb]
        split
        case isTrue => exact ⟨u, rfl, by rwa [hrng]⟩
        case isFalse hgo =>
            simp only [Bool.not_eq_eq_eq_not, Bool.or_eq_true, not_or,
              Bool.not_true, decide_eq_true_eq, Nat.not_lt] at hgo
            obtain ⟨hcheck, hlate⟩ := hgo
            obtain ⟨hlen, hpos'⟩ := window_total hpos hlate hn
            obtain ⟨t', ht', hlives, -⟩ := decideAt_total (p := p) hpicked
              hlen hpos' hprice (by rwa [hrng] : 0 < u.rng.halfWidthFrac)
            refine ⟨t', ht', hlives ?_⟩
            rcases hkeep with hcheap | hmoves
            · exact Or.inr hcheap
            · refine Or.inl (hmoves n ⟨rows[n], t.rng, hr, ?_, hlate, ?_⟩)
              · rw [heldAt, ht]
              · have hbeq := isCheckpoint_eq_ok (by omega) hb
                have hbtrue : b = true := by simpa using hcheck
                rw [hbtrue] at hbeq
                simpa using hbeq.symm
      obtain ⟨t', ht', halive'⟩ := hstep
      refine ⟨t', ?_, halive'⟩
      rw [List.take_add_one, hq, List.foldlM_append, ht, ok_bind]
      simp [ht']

/-- A replay that ends in a range with a width held such a range all
along. -/
theorem replay_alive
    (hs : rows.zipIdx.foldlM
      (simStep realMath p initial (rows.map Candle.close))
      (SimState.start p initial) = .ok s)
    (hwidth : 0 < s.rng.halfWidthFrac) {n : Nat} {t : SimState ℝ}
    (ht : (rows.zipIdx.take n).foldlM
      (simStep realMath p initial (rows.map Candle.close))
      (SimState.start p initial) = .ok t) : 0 < t.rng.halfWidthFrac := by
  rw [← List.take_append_drop n rows.zipIdx, List.foldlM_append, ht,
    ok_bind] at hs
  by_contra hnone
  refine absurd hwidth (foldlM_keeps
    (P := fun t : SimState ℝ => ¬ 0 < t.rng.halfWidthFrac) ?_ hnone hs)
  intro t q t' _ hdead hstep
  obtain ⟨r, i⟩ := q
  exact simStep_dead hdead hstep

/-- A replay that returned ended in a range with a width. -/
theorem simulateRebalancer_alive {res : SimResult ℝ}
    (h : simulateRebalancer realMath rows initial p = .ok res) :
    ∃ s, rows.zipIdx.foldlM
        (simStep realMath p initial (rows.map Candle.close))
        (SimState.start p initial) = .ok s ∧ 0 < s.rng.halfWidthFrac := by
  obtain ⟨s, hs, h⟩ := bind_eq_ok.1 h
  obtain ⟨frac, hfrac, -⟩ := bind_eq_ok.1 h
  refine ⟨s, hs, ?_⟩
  by_contra hnone
  exact ilEstimate_raises _ _ hnone frac hfrac

/-- Candle 1 reads the period. -/
theorem replay_period (hlen : 3 ≤ rows.length)
    (hs : rows.zipIdx.foldlM
      (simStep realMath p initial (rows.map Candle.close))
      (SimState.start p initial) = .ok s) : p.checkpointHours ≠ 0 := by
  have hq : rows.zipIdx[1]? = some (rows[1], 1) := by
    simp [List.getElem?_zipIdx]
  obtain ⟨t, t', -, hstep, -⟩ := foldlM_at hs hq
  obtain ⟨u, -, hstep⟩ := bind_eq_ok.1 hstep
  obtain ⟨b, hb, -⟩ := bind_eq_ok.1 hstep
  exact isCheckpoint_period one_ne_zero hb

/-- Where a range without a width pays its gas, a replay that ends in one
with a width has taken no decision on a steady window. -/
theorem replay_not_steady (hpicked : Picked initial m)
    (hpos : ∀ r ∈ rows, 0 < r.close)
    (hs : rows.zipIdx.foldlM
      (simStep realMath p initial (rows.map Candle.close))
      (SimState.start p initial) = .ok s)
    (hend : 0 < s.rng.halfWidthFrac)
    (hpays : 0 < stillNet p initial.horizonDays) {i : Nat}
    (hdueAt : DueAt realMath p initial rows i) :
    ¬ Steady (window (rows.map Candle.close) i) := by
  intro hsteady
  obtain ⟨r, held, hr, hheld, hdue⟩ := hdueAt
  have hi : i < rows.length := (List.getElem?_eq_some_iff.1 hr).1
  have hq : rows.zipIdx[i]? = some (r, i) := by
    simp [List.getElem?_zipIdx, hr]
  obtain ⟨t, t', ht, hstep, ht', -⟩ := foldlM_at hs hq
  have hheldEq : held = t.rng := by
    rw [heldAt, ht] at hheld
    cases hheld
    rfl
  rw [hheldEq] at hdue
  obtain ⟨u, hu, hrule⟩ := simStep_eq_ok hstep
  rcases hrule with ⟨hskip, -⟩ | ⟨-, hdecide⟩
  · exact hskip hdue
  · have halive : 0 < u.rng.halfWidthFrac := by
      rw [(accrue_keeps hu).1]
      exact replay_alive hs hend ht
    obtain ⟨hwlen, hwpos⟩ := window_total hpos hdue.1 hi
    obtain ⟨t'', ht'', -, hdies⟩ := decideAt_total (p := p) hpicked hwlen
      hwpos (hpos r (List.mem_of_getElem? hr)) halive
    rw [hdecide] at ht''
    cases ht''
    exact hdies hsteady hpays (replay_alive hs hend ht')

/-- From a range with a width, and no decision that would lose it, the
replay returns. -/
theorem simulateRebalancer_returns (hpicked : Picked initial m)
    (hpos : ∀ r ∈ rows, 0 < r.close) (hperiod : p.checkpointHours ≠ 0)
    (hwidth : 0 < initial.halfWidthFrac)
    (hkeep : stillNet p initial.horizonDays ≤ 0
      ∨ ∀ i, DueAt realMath p initial rows i →
        ¬ Steady (window (rows.map Candle.close) i)) :
    ∃ res, simulateRebalancer realMath rows initial p = .ok res := by
  obtain ⟨s, hs, halive⟩ := replay_total hpicked hpos hperiod hwidth hkeep
    (le_refl rows.length)
  rw [← List.length_zipIdx (l := rows), List.take_length] at hs
  unfold simulateRebalancer
  dsimp only
  rw [hs, ok_bind]
  obtain ⟨il, hil, -⟩ := ilEstimate_total s.rng.volAnnual
    (le_max_of_le_right (by norm_num) :
      (0 : ℝ) ≤ max (((rows.length : ℝ) - 1 - s.openIdx) / 24) (1 / 100))
    halive
  rw [hil]
  exact ⟨_, rfl⟩

section

variable {start : List ℝ} {price : ℝ} {risk : String}
  {feeTier spacing : Int} {horizonDays : ℝ}

/-- An initial range that `select_range` returned was picked of some width. -/
theorem picked_of_selectRange (hhorizon : 0 < horizonDays)
    (hinit : selectRange realMath start price risk feeTier horizonDays spacing
      = .ok initial) : ∃ m, Picked initial m := by
  obtain ⟨m, vol, root, hrisk, hspacing, -, -, -, hriskEq, hhorizonEq, -⟩ :=
    selectRange_eq_ok hinit
  refine ⟨m, ?_, spacingOf_ne_zero hspacing, ?_⟩
  · rw [hriskEq]
    exact hrisk
  · rw [hhorizonEq]
    exact hhorizon

/-- A range that was picked has a width unless its window is steady. -/
theorem width_pos_iff (hstart : ∀ c ∈ start, 0 < c)
    (hhorizon : 0 < horizonDays)
    (hinit : selectRange realMath start price risk feeTier horizonDays spacing
      = .ok initial) : 0 < initial.halfWidthFrac ↔ ¬ Steady start := by
  obtain ⟨m, vol, root, hrisk, -, hvol, hroot, hhw, -⟩ :=
    selectRange_eq_ok hinit
  obtain ⟨vol', hvol', hnonneg, hzero⟩ :=
    realizedVol_total (length_of_realizedVol hvol) hstart
  rw [hvol] at hvol'
  cases hvol'
  have hrootPos : 0 < root := by
    rw [mathSqrt_real (by positivity)] at hroot
    cases hroot
    exact Real.sqrt_pos.2 (by positivity)
  have hm := riskWidth_pos hrisk
  rw [hhw, ← hzero]
  constructor
  · intro hprod heq
    subst heq
    simp at hprod
  · intro hne
    have hvolPos : 0 < vol := lt_of_le_of_ne hnonneg (Ne.symm hne)
    positivity

end

/-- The replay returns exactly when the checkpoint period is not zero, the
range it starts from was picked of a window that is not steady, and so is
every window it takes a decision on, unless a range without a width does
not pay its gas. -/
theorem simulateRebalancer_total_iff (hlen : 3 ≤ rows.length)
    (hpos : ∀ r ∈ rows, 0 < r.close) {start : List ℝ} {price : ℝ}
    {risk : String} {feeTier spacing : Int} {horizonDays : ℝ}
    (hstart : ∀ c ∈ start, 0 < c) (hhorizon : 0 < horizonDays)
    (hinit : selectRange realMath start price risk feeTier horizonDays spacing
      = .ok initial) (p : SimParams ℝ) :
    (∃ res, simulateRebalancer realMath rows initial p = .ok res)
      ↔ p.checkpointHours ≠ 0 ∧ ¬ Steady start
        ∧ (stillNet p horizonDays ≤ 0
          ∨ ∀ i, DueAt realMath p initial rows i →
            ¬ Steady (window (rows.map Candle.close) i)) := by
  obtain ⟨m, hpicked⟩ := picked_of_selectRange hhorizon hinit
  obtain ⟨-, -, -, -, -, -, -, -, -, hhorizonEq, -⟩ := selectRange_eq_ok hinit
  rw [← width_pos_iff hstart hhorizon hinit, ← hhorizonEq]
  constructor
  · intro h
    obtain ⟨res, h⟩ := h
    obtain ⟨s, hs, hend⟩ := simulateRebalancer_alive h
    refine ⟨replay_period hlen hs, replay_alive (n := 0) hs hend rfl, ?_⟩
    rcases le_or_gt (stillNet p initial.horizonDays) 0 with hcheap | hpays
    · exact Or.inl hcheap
    · exact Or.inr fun i hdue =>
        replay_not_steady hpicked hpos hs hend hpays hdue
  · intro h
    obtain ⟨hperiod, hstarts, hkeep⟩ := h
    exact simulateRebalancer_returns hpicked hpos hperiod hstarts hkeep

-- ========================================================== two replays

/-- Hourly candles at the given closes. -/
def hoursAt (closes : List ℝ) : List (Candle ℝ) :=
  closes.zipIdx.map fun q => ⟨(q.2 : Int) * 3600000, q.1, q.1, q.1, q.1⟩

/-- A thousand dollars at ten percent, a dollar of gas, once a day. -/
noncomputable def dailyParams : SimParams ℝ := ⟨1000, 1 / 10, 3 / 5, 2 / 5, 24⟩

theorem hoursAt_closes (closes : List ℝ) :
    (hoursAt closes).map Candle.close = closes := by
  simp only [hoursAt, List.map_map]
  exact List.zipIdx_map_fst 0 closes

/-- Three hours at one price, and a range picked of them: it has no width,
and no value at the end. -/
theorem simulateRebalancer_raises_still :
    ∃ initial : RangeConfig ℝ,
      selectRange realMath [600, 600, 600] 600 "balanced" 500 7 0
        = .ok initial
      ∧ ¬ ∃ res, simulateRebalancer realMath (hoursAt [600, 600, 600])
        initial dailyParams = .ok res := by
  have hrisk : riskWidth "balanced" = some (5 / 4 : ℝ) := rfl
  have hspacing : spacingOf 500 0 = some 10 := rfl
  obtain ⟨vol, hvol, -, hzero⟩ := realizedVol_total
    (by simp : 3 ≤ ([600, 600, 600] : List ℝ).length) (by norm_num)
  have hsteady : Steady [600, 600, 600] := by
    intro a ha b hb
    simp [lastN, logReturns] at ha hb
    rw [ha, hb]
  refine ⟨_, selectRange_real hrisk hspacing hvol (by norm_num)
    (by norm_num), ?_⟩
  intro h
  obtain ⟨res, hres⟩ := h
  obtain ⟨s, hs, hend⟩ := simulateRebalancer_alive hres
  have hstart := replay_alive (n := 0) hs hend rfl
  simp [SimState.start, rangeAt, hzero.2 hsteady] at hstart

/-- A price that moves: the replay of its range returns. -/
theorem simulateRebalancer_total_swing :
    ∃ (initial : RangeConfig ℝ) (res : SimResult ℝ),
      selectRange realMath [1, 2, 1] 1 "balanced" 500 7 0 = .ok initial
      ∧ simulateRebalancer realMath (hoursAt [1, 2, 1]) initial dailyParams
        = .ok res := by
  have hrisk : riskWidth "balanced" = some (5 / 4 : ℝ) := rfl
  have hspacing : spacingOf 500 0 = some 10 := rfl
  have hstart : ∀ c ∈ ([1, 2, 1] : List ℝ), 0 < c := by norm_num
  obtain ⟨vol, hvol, -⟩ := realizedVol_total
    (by simp : 3 ≤ ([1, 2, 1] : List ℝ).length) hstart
  have hinit := selectRange_real hrisk hspacing hvol one_pos
    (by norm_num : (0 : ℝ) ≤ 7)
  have hmoves : ¬ Steady [1, 2, 1] := by
    intro hsteady
    have hlog := Real.log_pos one_lt_two
    have hsame := hsteady (Real.log 2) (by simp [lastN, logReturns])
      (-Real.log 2) (by simp [lastN, logReturns])
    linarith
  have hpos : ∀ r ∈ hoursAt [1, 2, 1], 0 < r.close := by
    intro r hr
    apply hstart
    rw [← hoursAt_closes [1, 2, 1]]
    exact List.mem_map_of_mem hr
  obtain ⟨res, hres⟩ := (simulateRebalancer_total_iff (by simp [hoursAt]) hpos
    hstart (by norm_num) hinit dailyParams).2
      ⟨by norm_num [dailyParams], hmoves, Or.inr (by
        intro i h
        obtain ⟨r, held, hr, -, hdue⟩ := h
        have hi := (List.getElem?_eq_some_iff.1 hr).1
        have hlate := hdue.1
        simp [hoursAt] at hi
        omega)⟩
  exact ⟨_, res, hinit, hres⟩

end Proofstand.PcsRebalancer
