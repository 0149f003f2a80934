/-
The rebalancer's decision log accounts for its published numbers.

Which candles are due depends on the range held, and that on the earlier
decisions, so the log is compared with the run itself: `heldAt` is the
range the replay comes to a candle with. `Journal` ties the log to the
candles read so far and the six accumulators to the log; a candle that is
not due leaves both (`journal_skip`), a decision adds its entry and moves
them by it (`journal_decided`), and `journal_run` is the induction over
the candles.

# Before and after an entry

An entry is logged with the range held before the decision, and the
decision may replace that range. So the invariant is stated at the number
of candles read: the entries are those of the due candles below it, in
order, each with the decision the rule made there, and the accumulators
are the sums over the rebalances among them. `journal_step` is the one
step lemma, by whether the candle is due.

The published net is the fees less the gas, the realised loss and the loss
of the range held at the end. The gas and the realised loss are those of
the opening and of the logged rebalances; the fees are earned by the hour
and entered nowhere, and the last loss is read off the final state.
-/
import Proofstand.Agents.Proofs.RangeStep

namespace Proofstand.PcsRebalancer

open Fallible Calibrate

variable {K : Type} [Field K] [LinearOrder K] [FloorRing K]

-- ====================================================== what the log owes

/-- The range a replay comes to candle `i` with. -/
def heldAt (lib : Libm K) (p : SimParams K) (initial : RangeConfig K)
    (rows : List (Candle K)) (i : Nat) : Option (RangeConfig K) :=
  match (rows.zipIdx.take i).foldlM
      (simStep lib p initial (rows.map Candle.close))
      (SimState.start p initial) with
  | .ok s => some s.rng
  | .error _ => none

/-- Candle `i` is due for a decision, by the range held there. -/
def DueAt (lib : Libm K) (p : SimParams K) (initial : RangeConfig K)
    (rows : List (Candle K)) (i : Nat) : Prop :=
  ∃ r held, rows[i]? = some r ∧ heldAt lib p initial rows i = some held
    ∧ Due p i (held.contains r.close)

/-- What an entry says of its own decision. -/
structure Entered (p : SimParams K) (e : LogEntry K) : Prop where
  act : e.decision.act = decide (0 < e.decision.netUsd)
  net : e.decision.netUsd = e.decision.expectedFeesUsd
    - e.decision.realisedIlUsd - e.decision.gasCostUsd
  gas : e.decision.gasCostUsd = p.gasCloseUsd + p.gasOpenUsd

/-- The logged rebalances. -/
def rebalances (log : List (LogEntry K)) : List (LogEntry K) :=
  log.filter fun e => e.decision.act

/-- The log after `n` candles, and the accumulators that it accounts
for. -/
structure Journal (lib : Libm K) (p : SimParams K) (initial : RangeConfig K)
    (rows : List (Candle K)) (n : Nat) (s : SimState K) : Prop where
  order : (s.decisions.map LogEntry.idx).Pairwise (· < ·)
  mem : ∀ i, i ∈ s.decisions.map LogEntry.idx
    ↔ i < n ∧ DueAt lib p initial rows i
  entered : ∀ e ∈ s.decisions, Entered p e
  nReb : s.nReb = (rebalances s.decisions).length
  nHold : s.nReb + s.nHold = s.decisions.length
  totalGas : s.totalGas
    = p.gasOpenUsd + s.nReb * (p.gasCloseUsd + p.gasOpenUsd)
  realisedIl : s.realisedIl
    = ((rebalances s.decisions).map fun e => e.decision.realisedIlUsd).sum

variable {lib : Libm K} {p : SimParams K} {initial : RangeConfig K}
  {rows : List (Candle K)}

theorem journal_start (lib : Libm K) (p : SimParams K)
    (initial : RangeConfig K) (rows : List (Candle K)) :
    Journal lib p initial rows 0 (SimState.start p initial) := by
  refine ⟨List.Pairwise.nil, ?_, ?_, rfl, rfl, ?_, rfl⟩
  · intro i
    simp [SimState.start]
  · intro e he
    cases he
  · simp [SimState.start]

-- ============================================================ one candle

variable {n : Nat} {r : Candle K} {s t : SimState K}

/-- The hour's fees are no entry, and move none of the accounts. -/
theorem Journal.of_same (h : Journal lib p initial rows n s)
    (hdecisions : t.decisions = s.decisions) (hreb : t.nReb = s.nReb)
    (hhold : t.nHold = s.nHold) (hgas : t.totalGas = s.totalGas)
    (hil : t.realisedIl = s.realisedIl) :
    Journal lib p initial rows n t := by
  obtain ⟨horder, hmem, hentered, hnReb, hnHold, htotal, hreal⟩ := h
  refine ⟨?_, ?_, ?_, ?_, ?_, ?_, ?_⟩
  · rwa [hdecisions]
  · rwa [hdecisions]
  · rwa [hdecisions]
  · rw [hdecisions, hreb, hnReb]
  · rw [hdecisions, hreb, hhold, hnHold]
  · rw [hgas, hreb, htotal]
  · rw [hdecisions, hil, hreal]

/-- A candle that is not due owes nothing. -/
theorem journal_skip (h : Journal lib p initial rows n s)
    (hdue : ¬ DueAt lib p initial rows n) :
    Journal lib p initial rows (n + 1) s := by
  refine ⟨h.order, ?_, h.entered, h.nReb, h.nHold, h.totalGas, h.realisedIl⟩
  intro i
  rw [h.mem]
  constructor
  · intro h
    obtain ⟨hi, hof⟩ := h
    exact ⟨by omega, hof⟩
  · intro h
    obtain ⟨hi, hof⟩ := h
    have hne : i ≠ n := by
      intro heq
      subst heq
      exact hdue hof
    exact ⟨by omega, hof⟩

/-- The entry of candle `n` comes after those of the log. -/
theorem Journal.order_concat (h : Journal lib p initial rows n s)
    {e : LogEntry K} (he : e.idx = n) :
    ((s.decisions ++ [e]).map LogEntry.idx).Pairwise (· < ·) := by
  rw [List.map_append, List.pairwise_append]
  refine ⟨h.order, List.pairwise_singleton _ _, ?_⟩
  intro i hi j hj
  rw [List.map_singleton, List.mem_singleton] at hj
  rw [hj, he]
  exact ((h.mem i).1 hi).1

/-- With it, the candles entered are the ones due up to `n`. -/
theorem Journal.mem_concat (h : Journal lib p initial rows n s)
    (hdue : DueAt lib p initial rows n) {e : LogEntry K} (he : e.idx = n)
    (i : Nat) : i ∈ (s.decisions ++ [e]).map LogEntry.idx
      ↔ i < n + 1 ∧ DueAt lib p initial rows i := by
  rw [List.map_append, List.mem_append, h.mem, List.map_singleton,
    List.mem_singleton, he]
  constructor
  · intro h
    rcases h with ⟨hi, hof⟩ | rfl
    · exact ⟨by omega, hof⟩
    · exact ⟨by omega, hdue⟩
  · intro h
    obtain ⟨hi, hof⟩ := h
    by_cases hin : i = n
    · exact Or.inr hin
    · exact Or.inl ⟨by omega, hof⟩

omit [Field K] [LinearOrder K] [FloorRing K] in
theorem rebalances_concat (log : List (LogEntry K)) (e : LogEntry K) :
    rebalances (log ++ [e])
      = rebalances log ++ if e.decision.act then [e] else [] := by
  rw [rebalances, List.filter_append, List.filter_singleton, ← rebalances,
    Bool.cond_eq_ite]

/-- A decision at a due candle enters it, and is added to what the log
accounts for. -/
theorem journal_decided {newRng : RangeConfig K} {dec : RebalanceDecision K}
    (h : Journal lib p initial rows n s) (hdue : DueAt lib p initial rows n)
    (hact : dec.act = decide (0 < dec.netUsd))
    (hnet : dec.netUsd
      = dec.expectedFeesUsd - dec.realisedIlUsd - dec.gasCostUsd)
    (hgas : dec.gasCostUsd = p.gasCloseUsd + p.gasOpenUsd) :
    Journal lib p initial rows (n + 1) (s.decided p n r newRng dec) := by
  set e : LogEntry K := ⟨n, r.openTimeMs, r.close, s.rng.contains r.close, dec⟩
    with he
  have hlog : (s.decided p n r newRng dec).decisions
      = s.decisions ++ [e] := by
    unfold SimState.decided
    split
    · rfl
    · rfl
  have hentered : ∀ f ∈ s.decisions ++ [e], Entered p f := by
    intro f hf
    rw [List.mem_append, List.mem_singleton] at hf
    rcases hf with hf | rfl
    · exact h.entered f hf
    · exact ⟨hact, hnet, hgas⟩
  have horder := h.order_concat (e := e) rfl
  have hmem := h.mem_concat (e := e) hdue rfl
  have hreb := rebalances_concat s.decisions e
  have hlength := h.nHold
  rw [← hlog] at horder hmem hentered hreb
  cases hd : dec.act with
  | true =>
      refine ⟨horder, hmem, hentered, ?_, ?_, ?_, ?_⟩
      · rw [hreb]
        simp [SimState.decided, he, hd, h.nReb]
      · rw [hlog]
        simp only [SimState.decided, hd, if_true, List.length_append,
          List.length_singleton]
        omega
      · simp only [SimState.decided, hd, if_true, h.totalGas]
        push_cast
        ring
      · rw [hreb]
        simp [SimState.decided, he, hd, h.realisedIl]
  | false =>
      refine ⟨horder, hmem, hentered, ?_, ?_, ?_, ?_⟩
      · rw [hreb]
        simp [SimState.decided, he, hd, h.nReb]
      · rw [hlog]
        simp only [SimState.decided, hd, Bool.false_eq_true, if_false,
          List.length_append, List.length_singleton]
        omega
      · simp [SimState.decided, hd, h.totalGas]
      · rw [hreb]
        simp [SimState.decided, he, hd, h.realisedIl]

/-- What a candle leaves of the log it found. -/
theorem journal_step {s' : SimState K} (hr : rows[n]? = some r)
    (hs : (rows.zipIdx.take n).foldlM
      (simStep lib p initial (rows.map Candle.close))
      (SimState.start p initial) = .ok s)
    (h : Journal lib p initial rows n s)
    (hstep : simStep lib p initial (rows.map Candle.close) s (r, n)
      = .ok s') : Journal lib p initial rows (n + 1) s' := by
  have hheld : heldAt lib p initial rows n = some s.rng := by
    rw [heldAt, hs]
  obtain ⟨t, haccrue, hrule⟩ := simStep_eq_ok hstep
  obtain ⟨hrng, hgas, hil, hreb, hhold, -, hlog⟩ := accrue_keeps haccrue
  have ht : Journal lib p initial rows n t :=
    h.of_same hlog hreb hhold hgas hil
  rcases hrule with ⟨hnot, rfl⟩ | ⟨hdue, hdecide⟩
  · apply journal_skip ht
    intro h
    obtain ⟨r', held, hr', hheld', hdue⟩ := h
    rw [hr] at hr'
    cases hr'
    rw [hheld] at hheld'
    cases hheld'
    exact hnot hdue
  · obtain ⟨newRng, dec, -, hdec, rfl⟩ := decideAt_eq_ok hdecide
    obtain ⟨hact, hnet, hcost, -⟩ := rebalanceDecision_eq_ok hdec
    exact journal_decided ht ⟨r, s.rng, hr, hheld, hdue⟩ hact hnet hcost

/-- The log after the whole replay. -/
theorem journal_run
    (hs : rows.zipIdx.foldlM (simStep lib p initial (rows.map Candle.close))
      (SimState.start p initial) = .ok s) :
    Journal lib p initial rows rows.length s := by
  rw [← List.take_length (l := rows.zipIdx), List.length_zipIdx] at hs
  apply foldlM_take_keeps (journal_start lib p initial rows) ?_
    (by simp) hs
  intro n q t t' hq ht hjournal hstep
  obtain ⟨r, i⟩ := q
  rw [List.getElem?_zipIdx, Option.map_eq_some_iff] at hq
  obtain ⟨r', hr', hpair⟩ := hq
  cases hpair
  rw [Nat.zero_add] at hstep
  exact journal_step hr' ht hjournal hstep

-- ======================================================== the simulation

/-- Of a simulation that returns: the log has one entry for each candle
from the 24th on that is on the period or outside the range held there,
in order; it rebalanced where the fees paid the loss and the gas and held
elsewhere; and its entries add up to the published numbers. -/
theorem simulateRebalancer_journal {res : SimResult K}
    (h : simulateRebalancer lib rows initial p = .ok res) :
    (res.decisions.map LogEntry.idx).Pairwise (· < ·)
    ∧ (∀ i r, rows[i]? = some r → ∃ held,
        heldAt lib p initial rows i = some held
        ∧ (i ∈ res.decisions.map LogEntry.idx ↔ 24 ≤ i
          ∧ (p.checkpointHours ∣ (i : Int)
            ∨ ¬ (held.pa ≤ r.close ∧ r.close ≤ held.pb))))
    ∧ (∀ e ∈ res.decisions, e.idx < rows.length
        ∧ e.decision.gasCostUsd = p.gasCloseUsd + p.gasOpenUsd
        ∧ (e.decision.act = true → 0 < e.decision.expectedFeesUsd
          - e.decision.realisedIlUsd - e.decision.gasCostUsd)
        ∧ (e.decision.act = false → e.decision.expectedFeesUsd
          - e.decision.realisedIlUsd - e.decision.gasCostUsd ≤ 0))
    ∧ res.nRebalances = (rebalances res.decisions).length
    ∧ res.nHolds = (res.decisions.filter fun e => !e.decision.act).length
    ∧ res.totalGasUsd = p.gasOpenUsd
        + res.nRebalances * (p.gasCloseUsd + p.gasOpenUsd)
    ∧ res.realisedIlUsd = ((rebalances res.decisions).map
        fun e => e.decision.realisedIlUsd).sum
    ∧ res.netFeesUsd = res.accruedFeesUsd - res.totalGasUsd
        - res.realisedIlUsd - res.unrealisedIlUsd := by
  obtain ⟨s, hs, h⟩ := bind_eq_ok.1 h
  obtain ⟨frac, hfrac, h⟩ := bind_eq_ok.1 h
  cases h
  have hjournal : Journal lib p initial rows rows.length s := journal_run hs
  refine ⟨hjournal.order, ?_, ?_, hjournal.nReb, ?_, hjournal.totalGas,
    hjournal.realisedIl, rfl⟩
  · intro i r hr
    have hq : rows.zipIdx[i]? = some (r, i) := by
      simp [List.getElem?_zipIdx, hr]
    obtain ⟨t, -, ht, -, -, -⟩ := foldlM_at hs hq
    have hheld : heldAt lib p initial rows i = some t.rng := by
      rw [heldAt, ht]
    have hi : i < rows.length := (List.getElem?_eq_some_iff.1 hr).1
    refine ⟨t.rng, hheld, (hjournal.mem i).trans ?_⟩
    constructor
    · intro h
      obtain ⟨-, r', held, hr', hheld', hdue⟩ := h
      rw [hr] at hr'
      cases hr'
      rw [hheld] at hheld'
      cases hheld'
      refine ⟨hdue.1, hdue.2.imp_right ?_⟩
      intro hout hin
      simp [RangeConfig.contains, hin] at hout
    · intro h
      obtain ⟨hlate, hwhy⟩ := h
      refine ⟨hi, r, t.rng, hr, hheld, hlate, hwhy.imp_right ?_⟩
      intro hout
      simp only [RangeConfig.contains, decide_eq_false_iff_not]
      exact hout
  · intro e he
    obtain ⟨hact, hnet, hgas⟩ := hjournal.entered e he
    have hidx := ((hjournal.mem e.idx).1 (List.mem_map_of_mem he)).1
    rw [hnet] at hact
    refine ⟨hidx, hgas, ?_, ?_⟩
    · intro hyes
      rw [hact] at hyes
      exact of_decide_eq_true hyes
    · intro hno
      rw [hact] at hno
      exact not_lt.1 (of_decide_eq_false hno)
  · have hparts := List.length_eq_length_filter_add
      (l := s.decisions) fun e => e.decision.act
    have hreb : s.nReb
        = (s.decisions.filter fun e => e.decision.act).length := hjournal.nReb
    have hall := hjournal.nHold
    show s.nHold = (s.decisions.filter fun e => !e.decision.act).length
    omega

-- ========================================================== one replay

/-- Twenty-seven hours at a price of one. -/
def stillHours : List (Candle ℚ) :=
  (List.range 27).map fun (hour : Nat) => ⟨(hour : Int) * 3600000, 1, 1, 1, 1⟩

/-- A range from two to three, out of the money from the start. -/
def aboveRange : RangeConfig ℚ where
  price := 5 / 2
  halfWidthFrac := 24 / 25
  pa := 2
  pb := 3
  tickLower := 6930
  tickUpper := 10990
  spacing := 10
  feeTier := 500
  risk := "balanced"
  horizonDays := 7
  volAnnual := 0

/-- Gas that a week's fees do not pay. -/
def dearParams : SimParams ℚ := ⟨1000, 1 / 10, 600, 400, 24⟩

/-- Out of range at every hour: from the 24th on each is logged, and
held. -/
theorem simulateRebalancer_journal_still :
    ∃ res : SimResult ℚ,
      simulateRebalancer ratMath stillHours aboveRange dearParams = .ok res
      ∧ res.decisions.map LogEntry.idx = [24, 25, 26]
      ∧ res.nHolds = 3 ∧ res.nRebalances = 0 ∧ res.totalGasUsd = 600
      ∧ (∀ i r, stillHours[i]? = some r → ∃ held,
        heldAt ratMath dearParams aboveRange stillHours i = some held
        ∧ (i ∈ res.decisions.map LogEntry.idx ↔ 24 ≤ i
          ∧ (dearParams.checkpointHours ∣ (i : Int)
            ∨ ¬ (held.pa ≤ r.close ∧ r.close ≤ held.pb))))
      ∧ res.netFeesUsd = res.accruedFeesUsd - res.totalGasUsd
        - res.realisedIlUsd - res.unrealisedIlUsd := by
  obtain ⟨res, hres, hfacts⟩ := exists_of_okAnd
    (x := simulateRebalancer ratMath stillHours aboveRange dearParams)
    (p := fun res => decide (res.decisions.map LogEntry.idx = [24, 25, 26]
      ∧ res.nHolds = 3 ∧ res.nRebalances = 0 ∧ res.totalGasUsd = 600))
    (by decide +kernel)
  obtain ⟨hidx, hholds, hreb, hgas⟩ := of_decide_eq_true hfacts
  obtain ⟨-, hdue, -, -, -, -, -, hnet⟩ := simulateRebalancer_journal hres
  exact ⟨res, hres, hidx, hholds, hreb, hgas, hdue, hnet⟩

end Proofstand.PcsRebalancer
