/-
The rebalancer's simulation under two checkpoint periods.

A candle is a checkpoint when the period divides its hour or the price
has left the range, and at a checkpoint the cost-aware rule holds or
moves the range. A hold only adds to the log, so two simulations stay on
one course (`Course`) as long as every candle is a checkpoint of both or
of neither, or one where the rule would hold (`SameChecks`), and then
they end with one number (`netFees_of_sameChecks`).

# Holds do not count

Two periods make different candles checkpoints, and the logs of the two
simulations differ from the first of these on. The course leaves the log
out and keeps what the net fees are made of: the range, its opening, the
fees, the gas and the loss. A hold changes none of the five
(`course_of_holds`), and a decision taken by both is taken alike
(`course_decideAt`), since the rule reads the range and its opening only.

The condition is on the states of one of the two runs, so the rule for two
loops under a condition along the first (`foldlM_rel`) carries it.
-/
import Proofstand.Agents.PcsRebalancer.Agent
import Proofstand.Agents.Proofs.RangeStep

namespace Proofstand.PcsRebalancer

open Fallible

variable {K : Type} [Field K] [LinearOrder K] [FloorRing K]

-- ============================================================= the rule

/-- The cost-aware rule, applied at candle `idx`, would hold. -/
def Holds (lib : Libm K) (p : SimParams K) (initial : RangeConfig K)
    (closes : List K) (idx : Nat) (r : Candle K) (s : SimState K) : Prop :=
  ∀ newRng dec,
    selectRange lib (window closes idx) r.close initial.risk
        initial.feeTier initial.horizonDays initial.spacing = .ok newRng →
    rebalanceDecision lib p newRng s.rng initial.horizonDays
        (((idx : K) - s.openIdx) / 24) = .ok dec →
    dec.act = false

/-- Where the rule is applied at all and the price is in range, the two
periods make the candle a checkpoint alike, or the rule would hold. -/
def SameChecks (lib : Libm K) (p : SimParams K) (c' : Int)
    (initial : RangeConfig K) (closes : List K) (s : SimState K)
    (q : Candle K × Nat) : Prop :=
  24 ≤ q.2 → s.rng.contains q.1.close = true →
    (p.checkpointHours ∣ (q.2 : Int) ↔ c' ∣ (q.2 : Int))
      ∨ Holds lib p initial closes q.2 q.1 s

-- =========================================================== the course

/-- States that differ at most in the holds they logged. -/
structure Course (s t : SimState K) : Prop where
  rng : s.rng = t.rng
  accruedFees : s.accruedFees = t.accruedFees
  totalGas : s.totalGas = t.totalGas
  realisedIl : s.realisedIl = t.realisedIl
  openIdx : s.openIdx = t.openIdx

omit [Field K] [LinearOrder K] [FloorRing K] in
theorem Course.symm {s t : SimState K} (h : Course s t) : Course t s :=
  ⟨h.rng.symm, h.accruedFees.symm, h.totalGas.symm, h.realisedIl.symm,
    h.openIdx.symm⟩

omit [Field K] [LinearOrder K] [FloorRing K] in
theorem Course.trans {s t u : SimState K} (h : Course s t)
    (h' : Course t u) : Course s u :=
  ⟨h.rng.trans h'.rng, h.accruedFees.trans h'.accruedFees,
    h.totalGas.trans h'.totalGas, h.realisedIl.trans h'.realisedIl,
    h.openIdx.trans h'.openIdx⟩

omit [FloorRing K] in
theorem course_accrue {lib : Libm K} {p : SimParams K} {price : K}
    {s t s' t' : SimState K} (h : Course s t)
    (hs : accrue lib p price s = .ok s')
    (ht : accrue lib p price t = .ok t') :
    Course s' t' ∧ s'.rng = s.rng ∧ s'.openIdx = s.openIdx := by
  unfold accrue at hs ht
  rw [← h.rng] at ht
  by_cases hin : s.rng.contains price = true
  · rw [if_pos hin] at hs ht
    obtain ⟨c, hc, hs⟩ := bind_eq_ok.1 hs
    obtain ⟨c', hc', ht⟩ := bind_eq_ok.1 ht
    rw [hc] at hc'
    cases hc'
    cases hs
    cases ht
    refine ⟨⟨rfl, ?_, h.totalGas, h.realisedIl, h.openIdx⟩, rfl, rfl⟩
    show s.accruedFees + _ = t.accruedFees + _
    rw [h.accruedFees]
  · rw [if_neg hin] at hs ht
    cases hs
    cases ht
    exact ⟨h, rfl, rfl⟩

omit [FloorRing K] in
/-- One decision, taken in two states on one course. -/
theorem Course.decided {s t : SimState K} (h : Course s t) (p : SimParams K)
    (idx : Nat) (r : Candle K) (newRng : RangeConfig K)
    (dec : RebalanceDecision K) :
    Course (s.decided p idx r newRng dec) (t.decided p idx r newRng dec) := by
  unfold SimState.decided
  split
  · refine ⟨rfl, h.accruedFees, ?_, ?_, rfl⟩
    · show s.totalGas + _ = t.totalGas + _
      rw [h.totalGas]
    · show s.realisedIl + _ = t.realisedIl + _
      rw [h.realisedIl]
  · exact ⟨h.rng, h.accruedFees, h.totalGas, h.realisedIl, h.openIdx⟩

/-- Applying the rule to states on one course leaves them on one. -/
theorem course_decideAt {lib : Libm K} {p : SimParams K}
    {initial : RangeConfig K} {closes : List K} {idx : Nat} {r : Candle K}
    {s t s' t' : SimState K} (h : Course s t)
    (hs : decideAt lib p initial closes idx r s = .ok s')
    (ht : decideAt lib p initial closes idx r t = .ok t') :
    Course s' t' := by
  obtain ⟨rng, dec, hrng, hdec, rfl⟩ := decideAt_eq_ok hs
  obtain ⟨rng', dec', hrng', hdec', rfl⟩ := decideAt_eq_ok ht
  rw [hrng] at hrng'
  cases hrng'
  rw [← h.rng, ← h.openIdx, hdec] at hdec'
  cases hdec'
  exact h.decided p idx r rng dec

/-- The rule reads the range and its opening, no more of the state. -/
theorem Holds.of_rng {lib : Libm K} {p : SimParams K}
    {initial : RangeConfig K} {closes : List K} {idx : Nat} {r : Candle K}
    {s t : SimState K} (h : Holds lib p initial closes idx r s)
    (hrng : t.rng = s.rng) (hopen : t.openIdx = s.openIdx) :
    Holds lib p initial closes idx r t := by
  unfold Holds
  rw [hrng, hopen]
  exact h

/-- A hold leaves the state on its course. -/
theorem course_of_holds {lib : Libm K} {p : SimParams K}
    {initial : RangeConfig K} {closes : List K} {idx : Nat} {r : Candle K}
    {s s' : SimState K} (hholds : Holds lib p initial closes idx r s)
    (hs : decideAt lib p initial closes idx r s = .ok s') :
    Course s s' := by
  obtain ⟨rng, dec, hrng, hdec, rfl⟩ := decideAt_eq_ok hs
  simp only [SimState.decided, hholds rng dec hrng hdec]
  exact ⟨rfl, rfl, rfl, rfl, rfl⟩

-- ============================================================= a candle

/-- Where the two checkpoints look together, or the rule would say the same,
a candle keeps it. -/
theorem simStep_course {lib : Libm K} {p : SimParams K} {c' : Int}
    {initial : RangeConfig K} {closes : List K} {s t s' t' : SimState K}
    {q : Candle K × Nat} (hcheck : SameChecks lib p c' initial closes s q)
    (h : Course s t) (hs : simStep lib p initial closes s q = .ok s')
    (ht : simStep lib { p with checkpointHours := c' } initial closes t q
      = .ok t') : Course s' t' := by
  obtain ⟨r, idx⟩ := q
  unfold simStep at hs ht
  rw [← h.rng] at ht
  obtain ⟨u, hu, hs⟩ := bind_eq_ok.1 hs
  obtain ⟨v, hv, ht⟩ := bind_eq_ok.1 ht
  have hv' : accrue lib p r.close t = .ok v := hv
  obtain ⟨huv, hrng, hopen⟩ := course_accrue h hu hv'
  obtain ⟨b, hb, hs⟩ := bind_eq_ok.1 hs
  obtain ⟨b', hb', ht⟩ := bind_eq_ok.1 ht
  by_cases hearly : idx < 24
  · simp only [hearly, decide_true, Bool.or_true, if_true] at hs ht
    cases hs
    cases ht
    exact huv
  · -- the rule may be reached: by both, by neither, or where it holds
    have hne : idx ≠ 0 := by omega
    have hbeq := isCheckpoint_eq_ok hne hb
    have hbeq' := isCheckpoint_eq_ok hne hb'
    simp only [hearly, decide_false, Bool.or_false] at hs ht
    have hholds : b ≠ b' → Holds lib p initial closes idx r u := by
      intro hbb
      have hin : s.rng.contains r.close = true := by
        by_contra hout
        have hfalse : s.rng.contains r.close = false :=
          Bool.eq_false_iff.2 hout
        apply hbb
        rw [hbeq, hbeq', hfalse, Bool.not_false, Bool.or_true, Bool.or_true]
      rcases hcheck (not_lt.1 hearly) hin with hiff | hhold
      · refine absurd ?_ hbb
        rw [hbeq, hbeq', decide_eq_decide.2 hiff]
      · exact hhold.of_rng hrng hopen
    cases b with
    | true =>
        have hs' : decideAt lib p initial closes idx r u = .ok s' := hs
        cases b' with
        | true =>
            have ht' : decideAt lib p initial closes idx r v = .ok t' := ht
            exact course_decideAt huv hs' ht'
        | false =>
            cases ht
            have hcourse := course_of_holds (hholds (by decide)) hs'
            exact hcourse.symm.trans huv
    | false =>
        cases b' with
        | true =>
            have ht' : decideAt lib p initial closes idx r v = .ok t' := ht
            have hv := (hholds (by decide)).of_rng huv.rng.symm
              huv.openIdx.symm
            cases hs
            exact huv.trans (course_of_holds hv ht')
        | false =>
            cases hs
            cases ht
            exact huv

/-- A simulation ends with the net fees of its course. -/
theorem netFees_of_sameChecks {lib : Libm K} {rows : List (Candle K)}
    {initial : RangeConfig K} {p : SimParams K} {c' : Int}
    (halong : AlongRun
      (simStep lib p initial (rows.map Candle.close))
      (SameChecks lib p c' initial (rows.map Candle.close))
      (SimState.start p initial) rows.zipIdx) {r r' : SimResult K}
    (hr : simulateRebalancer lib rows initial p = .ok r)
    (hr' : simulateRebalancer lib rows initial
      { p with checkpointHours := c' } = .ok r') :
    r.netFeesUsd = r'.netFeesUsd := by
  unfold simulateRebalancer at hr hr'
  obtain ⟨s, hs, hr⟩ := bind_eq_ok.1 hr
  obtain ⟨s', hs', hr'⟩ := bind_eq_ok.1 hr'
  have hstart : Course (SimState.start p initial)
      (SimState.start { p with checkpointHours := c' } initial) :=
    ⟨rfl, rfl, rfl, rfl, rfl⟩
  have hcourse : Course s s' := by
    refine foldlM_rel (R := Course) ?_ halong hstart hs hs'
    intro s t q s' t' hcheck h hs ht
    exact simStep_course hcheck h hs ht
  rw [← hcourse.rng, ← hcourse.openIdx] at hr'
  obtain ⟨frac, hfrac, hr⟩ := bind_eq_ok.1 hr
  obtain ⟨frac', hfrac', hr'⟩ := bind_eq_ok.1 hr'
  rw [hfrac] at hfrac'
  cases hfrac'
  cases hr
  cases hr'
  show s.accruedFees - s.totalGas - s.realisedIl - _
    = s'.accruedFees - s'.totalGas - s'.realisedIl - _
  rw [hcourse.accruedFees, hcourse.totalGas, hcourse.realisedIl]

end Proofstand.PcsRebalancer
