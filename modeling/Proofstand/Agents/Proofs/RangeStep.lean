/-
What one candle of the rebalancer's replay can do, said once.

A candle accrues an hour's fees or not (`accrue_eq_ok`), and where it is
due (`Due`) the rule is applied and logged: `decideAt_eq_ok` gives the
state it leaves as a function of the decision (`SimState.decided`), and
`rebalanceDecision_eq_ok` the decision's own arithmetic. The range it may
adopt is one that `selectRange_eq_ok` speaks of.

# A decision as a function

`SimState.decided` is the state after a logged decision, as a function of
the range that was picked and of the rule's answer. With it a candle has
two parts, the accrual and then either nothing or `decided`, and every
later invariant is proved for these two. The rule itself is arithmetic
(`rebalanceDecision_eq_ok`); what it says of acting is one comparison of
fees with loss and gas.

`Due` is the test as a proposition. The source writes it as two tests, the
period on the one side and the range on the other, behind one on the
candle's number; `isCheckpoint_eq_ok` is about the first, which divides by
the period and raises where that is zero.
-/
import Proofstand.Agents.PcsRebalancer.Sim
import Proofstand.Lib.Fallible

namespace Proofstand.PcsRebalancer

open Fallible Calibrate

variable {K : Type} [Field K] [LinearOrder K]

-- ============================================================= the range

/-- The spacing asked for, or the fee tier's. -/
def spacingOf (feeTier spacing : Int) : Option Int :=
  if spacing = 0 then feeTierSpacing.lookup feeTier else some spacing

/-- What a picked range says of its picking. -/
theorem selectRange_eq_ok [FloorRing K] {lib : Libm K} {closes : List K}
    {rawPrice : K} {risk : String} {feeTier : Int} {horizonDays : K}
    {spacing : Int} {rng : RangeConfig K}
    (h : selectRange lib closes rawPrice risk feeTier horizonDays spacing
      = .ok rng) :
    ∃ m vol root, riskWidth risk = some m
      ∧ spacingOf feeTier spacing = some rng.spacing
      ∧ realizedVol lib closes 720 = .ok vol
      ∧ lib.mathSqrt (horizonDays / 365) = .ok root
      ∧ rng.halfWidthFrac = m * vol * root ∧ rng.risk = risk
      ∧ rng.horizonDays = horizonDays ∧ rng.volAnnual = vol := by
  unfold selectRange at h
  cases hrisk : (riskWidth risk : Option K) with
  | none => simp [hrisk, raise] at h
  | some m =>
      simp only [hrisk] at h
      split at h
      case h_1 => cases h
      case h_2 sp hsp =>
          obtain ⟨vol, hvol, h⟩ := bind_eq_ok.1 h
          obtain ⟨root, hroot, h⟩ := bind_eq_ok.1 h
          obtain ⟨lo, -, h⟩ := bind_eq_ok.1 h
          obtain ⟨hi, -, h⟩ := bind_eq_ok.1 h
          cases h
          exact ⟨m, vol, root, rfl, hsp, hvol, hroot, rfl, rfl, rfl, rfl⟩

/-- No spacing in use is zero. -/
theorem spacingOf_ne_zero {feeTier spacing sp : Int}
    (h : spacingOf feeTier spacing = some sp) : sp ≠ 0 := by
  unfold spacingOf at h
  split at h
  case isTrue =>
      have hall : ∀ q ∈ feeTierSpacing, q.2 ≠ 0 := by decide
      obtain ⟨l₁, l₂, hl, -⟩ := List.lookup_eq_some_iff.1 h
      apply hall (feeTier, sp)
      rw [hl]
      simp
  case isFalse hne =>
      cases h
      exact hne

-- ============================================================== the fees

/-- An hour's fees at the concentration `c`. -/
def SimState.accrued (p : SimParams K) (c : K) (s : SimState K) :
    SimState K :=
  { s with
    inRangeHours := s.inRangeHours + 1
    accruedFees := s.accruedFees
      + p.capitalUsd * p.feeAprBase * c * (1 / 8760) }

/-- A candle outside the range earns nothing; one inside earns by the range's
concentration. -/
theorem accrue_eq_ok {lib : Libm K} {p : SimParams K} {price : K}
    {s s' : SimState K} (h : accrue lib p price s = .ok s') :
    s.rng.contains price = false ∧ s' = s
      ∨ s.rng.contains price = true
        ∧ ∃ c, concentrationFactor lib s.rng.halfWidthFrac = .ok c
          ∧ s' = s.accrued p c := by
  unfold accrue at h
  split at h
  case isTrue hin =>
      obtain ⟨c, hc, h⟩ := bind_eq_ok.1 h
      cases h
      exact Or.inr ⟨hin, c, hc, rfl⟩
  case isFalse hout =>
      cases h
      exact Or.inl ⟨Bool.eq_false_iff.2 hout, rfl⟩

/-- The fees leave the range and the log alone. -/
theorem accrue_keeps {lib : Libm K} {p : SimParams K} {price : K}
    {s s' : SimState K} (h : accrue lib p price s = .ok s') :
    s'.rng = s.rng ∧ s'.totalGas = s.totalGas ∧ s'.realisedIl = s.realisedIl
      ∧ s'.nReb = s.nReb ∧ s'.nHold = s.nHold ∧ s'.openIdx = s.openIdx
      ∧ s'.decisions = s.decisions := by
  rcases accrue_eq_ok h with ⟨-, rfl⟩ | ⟨-, c, -, rfl⟩
  · exact ⟨rfl, rfl, rfl, rfl, rfl, rfl, rfl⟩
  · exact ⟨rfl, rfl, rfl, rfl, rfl, rfl, rfl⟩

-- ============================================================== the rule

/-- The rule's arithmetic: it acts when the fees pay the loss and the gas. -/
theorem rebalanceDecision_eq_ok {lib : Libm K} {p : SimParams K}
    {newRng current : RangeConfig K} {horizonDays elapsedDays : K}
    {dec : RebalanceDecision K}
    (h : rebalanceDecision lib p newRng current horizonDays elapsedDays
      = .ok dec) :
    dec.act = decide (0 < dec.netUsd)
      ∧ dec.netUsd = dec.expectedFeesUsd - dec.realisedIlUsd - dec.gasCostUsd
      ∧ dec.gasCostUsd = p.gasCloseUsd + p.gasOpenUsd
      ∧ expectedFeesUsd lib p.capitalUsd p.feeAprBase newRng.halfWidthFrac
          horizonDays = .ok dec.expectedFeesUsd
      ∧ ∃ frac, ilEstimate lib newRng.volAnnual (max elapsedDays (1 / 100))
          current.halfWidthFrac = .ok frac
        ∧ dec.realisedIlUsd = frac * p.capitalUsd := by
  obtain ⟨fees, hfees, h⟩ := bind_eq_ok.1 h
  obtain ⟨frac, hfrac, h⟩ := bind_eq_ok.1 h
  cases h
  exact ⟨rfl, rfl, rfl, hfees, frac, hfrac, rfl⟩

/-- The state after a logged decision at candle `idx`. -/
def SimState.decided (p : SimParams K) (idx : Nat) (r : Candle K)
    (newRng : RangeConfig K) (dec : RebalanceDecision K) (s : SimState K) :
    SimState K :=
  let s : SimState K :=
    { s with
      decisions := s.decisions ++
        [⟨idx, r.openTimeMs, r.close, s.rng.contains r.close, dec⟩] }
  if dec.act then
    { s with
      realisedIl := s.realisedIl + dec.realisedIlUsd
      totalGas := s.totalGas + (p.gasCloseUsd + p.gasOpenUsd)
      rng := newRng
      openIdx := idx
      nReb := s.nReb + 1 }
  else { s with nHold := s.nHold + 1 }

/-- A decision picks a range from the window behind the candle, asks the rule
about it, and does what it says. -/
theorem decideAt_eq_ok [FloorRing K] {lib : Libm K} {p : SimParams K}
    {initial : RangeConfig K} {closes : List K} {idx : Nat} {r : Candle K}
    {s s' : SimState K}
    (h : decideAt lib p initial closes idx r s = .ok s') :
    ∃ newRng dec, selectRange lib (window closes idx) r.close initial.risk
        initial.feeTier initial.horizonDays initial.spacing = .ok newRng
      ∧ rebalanceDecision lib p newRng s.rng initial.horizonDays
          (((idx : K) - s.openIdx) / 24) = .ok dec
      ∧ s' = s.decided p idx r newRng dec := by
  obtain ⟨newRng, hrng, h⟩ := bind_eq_ok.1 h
  obtain ⟨dec, hdec, h⟩ := bind_eq_ok.1 h
  refine ⟨newRng, dec, hrng, hdec, ?_⟩
  unfold SimState.decided
  simp only at h ⊢
  split at h
  case isTrue hact =>
      cases h
      rw [if_pos hact]
  case isFalse hact =>
      cases h
      rw [if_neg hact]

/-- A decision moves neither the fees nor the hours in range. -/
theorem SimState.decided_fees (p : SimParams K) (idx : Nat) (r : Candle K)
    (newRng : RangeConfig K) (dec : RebalanceDecision K) (s : SimState K) :
    (s.decided p idx r newRng dec).accruedFees = s.accruedFees
      ∧ (s.decided p idx r newRng dec).inRangeHours = s.inRangeHours := by
  unfold SimState.decided
  split
  · exact ⟨rfl, rfl⟩
  · exact ⟨rfl, rfl⟩

-- =========================================================== the candle

/-- Past the first candle, a checkpoint test that returns says whether
the period divides the hour or the price is out of range. -/
theorem isCheckpoint_eq_ok {c : Int} {idx : Nat} {inRange b : Bool}
    (hidx : idx ≠ 0) (h : isCheckpoint c idx inRange = .ok b) :
    b = (decide (c ∣ (idx : Int)) || !inRange) := by
  unfold isCheckpoint onTheHour at h
  rw [if_neg hidx] at h
  by_cases hc : c = 0
  · rw [if_pos hc] at h
    cases h
  · rw [if_neg hc] at h
    cases h
    rw [decide_eq_decide.2 (Int.dvd_iff_emod_eq_zero (a := c)).symm]

/-- The test on the hours returned, so the period is not zero. -/
theorem isCheckpoint_period {c : Int} {idx : Nat} {inRange b : Bool}
    (hidx : idx ≠ 0) (h : isCheckpoint c idx inRange = .ok b) : c ≠ 0 := by
  intro heq
  subst heq
  rw [isCheckpoint, if_neg hidx] at h
  cases h

/-- The rule is applied at a candle from the 24th on, on the period or
where the price is out of the range. -/
def Due (p : SimParams K) (idx : Nat) (inRange : Bool) : Prop :=
  24 ≤ idx ∧ (p.checkpointHours ∣ (idx : Int) ∨ inRange = false)

/-- A candle earns first, and then decides if a decision is due. -/
theorem simStep_eq_ok [FloorRing K] {lib : Libm K} {p : SimParams K}
    {initial : RangeConfig K} {closes : List K} {r : Candle K} {idx : Nat}
    {s s' : SimState K}
    (h : simStep lib p initial closes s (r, idx) = .ok s') :
    ∃ t, accrue lib p r.close s = .ok t
      ∧ (¬ Due p idx (s.rng.contains r.close) ∧ s' = t
        ∨ Due p idx (s.rng.contains r.close)
          ∧ decideAt lib p initial closes idx r t = .ok s') := by
  obtain ⟨t, ht, h⟩ := bind_eq_ok.1 h
  obtain ⟨b, hb, h⟩ := bind_eq_ok.1 h
  refine ⟨t, ht, ?_⟩
  by_cases hearly : idx < 24
  · simp only [hearly, decide_true, Bool.or_true, if_true] at h
    cases h
    refine Or.inl ⟨?_, rfl⟩
    intro hdue
    exact absurd hdue.1 (Nat.not_le.2 hearly)
  · have hbeq := isCheckpoint_eq_ok (by omega) hb
    simp only [hearly, decide_false, Bool.or_false] at h
    cases b with
    | false =>
        cases h
        refine Or.inl ⟨?_, rfl⟩
        intro hdue
        simp only [Bool.false_eq, Bool.or_eq_false_iff, decide_eq_false_iff_not,
          Bool.not_eq_false'] at hbeq
        rcases hdue.2 with hon | hout
        · exact hbeq.1 hon
        · rw [hbeq.2] at hout
          cases hout
    | true =>
        refine Or.inr ⟨⟨Nat.not_lt.1 hearly, ?_⟩, h⟩
        simpa using hbeq.symm

end Proofstand.PcsRebalancer
