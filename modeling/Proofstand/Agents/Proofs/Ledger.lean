/-
The paper grid's books balance.

`Reconciled` ties the cash, the open slots, the round trips, the fills
and the two accumulators together. A buy moves its cost from cash into a
slot, a sale moves a slot's cost and its net into cash and the round
trips, and a mark moves nothing, so every candle keeps it, a halted
replay's last one included.

Which fill was which slot's is not recorded, and lines may repeat, so the
slots' own histories are read through labels on the fills.

# Histories by labels

A slot buys on its own line and sells on the line above, and two slots can
have equal lines. So a fill does not tell whose it was. The labels are a
list beside the fills that the proof chooses as it goes; `Attributed` says
that under them every slot's fills alternate (`SlotHistory`) and that an
open slot's history ends in its buy. `histories_set` is the step: one
slot's history grows, the others' stay.

# The two identities

Cash plus the cost of what is open is the capital plus the net of what is
closed (`CashBalanced`). Marking the inventory instead of its cost gives
the equity, so the realised and the unrealised profit add up to the net
profit at any price, and the final figures are the case of the last close.
-/
import Proofstand.Agents.Proofs.GridStep
import Proofstand.Lib.Cells

namespace Proofstand.BnbGrid

open Fallible Cells

variable {K : Type} [Field K] [LinearOrder K]

-- ========================================================== the invariant

/-- The fills of slot `i` alternate, from a buy on its own line on, each
sale being of the lot bought before it, on the line above and on a later
candle; `o` is what the slot holds after them. -/
inductive SlotHistory (grid : GridConfig K) (i : Nat) :
    List (Fill K) → Option (Slot K) → Prop
  | unused : SlotHistory grid i [] none
  | buy {fs : List (Fill K)} {f : Fill K} {slot : Slot K}
      (hist : SlotHistory grid i fs none) (hside : f.side = .buy)
      (hline : grid.lines[i]? = some f.line) (hidx : slot.buyIdx = f.idx)
      (hqty : slot.qty = f.qty) :
      SlotHistory grid i (fs ++ [f]) (some slot)
  | sell {fs : List (Fill K)} {f : Fill K} {slot : Slot K}
      (hist : SlotHistory grid i fs (some slot)) (hside : f.side = .sell)
      (hline : grid.lines[i + 1]? = some f.line)
      (hlater : slot.buyIdx < f.idx) (hqty : f.qty = slot.qty) :
      SlotHistory grid i (fs ++ [f]) none

/-- Every fill is one slot's, and every slot's fills are its history. -/
def Attributed (grid : GridConfig K) (fills : List (Fill K))
    (slots : List (Option (Slot K))) : Prop :=
  ∃ labels : List Nat, labels.length = fills.length
    ∧ (∀ i ∈ labels, i < slots.length)
    ∧ ∀ i o, slots[i]? = some o →
        SlotHistory grid i (entriesOf labels fills i) o

/-- Cash and the cost of what is open are the capital and the net of what
is closed. -/
def CashBalanced (grid : GridConfig K) (s : SimState K) : Prop :=
  s.cash + s.sumSlots Slot.costBasis
    = grid.capitalUsd + (s.roundTrips.map RoundTrip.netUsd).sum

structure Reconciled (p : SimParams K) (grid : GridConfig K)
    (s : SimState K) : Prop where
  slots : s.slots.length = grid.lines.length - 1
  cash : CashBalanced grid s
  trades : s.fills.length
    = 2 * s.roundTrips.length + s.slots.reduceOption.length
  gas : s.gasUsd = p.gasUsdPerFill * s.fills.length
  fees : s.feesUsd = (s.fills.map fun f => f.usd * p.fee).sum
  histories : Attributed grid s.fills s.slots

variable {p : SimParams K} {grid : GridConfig K} {idx : Nat} {r : Kline K}
  {s s' : SimState K}

-- ========================================================== what keeps it

omit [LinearOrder K] in
/-- The books balance before the first candle. -/
theorem reconciled_start (p : SimParams K) (grid : GridConfig K) :
    Reconciled p grid (SimState.start grid) := by
  have hempty : ∀ n, (List.replicate n
      (none : Option (Slot K))).reduceOption = [] := by
    intro n
    simp [List.reduceOption]
  refine ⟨by simp [SimState.start], ?_, ?_, ?_, rfl, ?_⟩
  · simp [CashBalanced, SimState.start, SimState.sumSlots, hempty]
  · simp [SimState.start, hempty]
  · simp [SimState.start]
  · refine ⟨[], rfl, by simp, ?_⟩
    intro i o ho
    have hmem : o ∈ List.replicate (grid.lines.length - 1) none :=
      List.mem_of_getElem? ho
    rw [List.eq_of_mem_replicate hmem]
    exact SlotHistory.unused

omit [LinearOrder K] in
/-- A buy moves its cost from cash into the slot. -/
theorem reconciled_bought {i : Nat} {line qty : K} (hs : Reconciled p grid s)
    (hslot : s.slots[i]? = some none) (hline : grid.lines[i]? = some line) :
    Reconciled p grid (s.bought p grid idx r i line qty) := by
  obtain ⟨hlen, hcash, htrades, hgas, hfees, labels, hll, hlt, hhist⟩ := hs
  refine ⟨?_, ?_, ?_, ?_, ?_, labels ++ [i], ?_, ?_, ?_⟩
  · simp [SimState.bought, hlen]
  · unfold CashBalanced SimState.sumSlots at hcash ⊢
    simp only [SimState.bought, sum_fill Slot.costBasis hslot]
    rw [← hcash]
    ring
  · simp only [SimState.bought, List.length_append, List.length_singleton,
      length_fill hslot]
    omega
  · simp only [SimState.bought, List.length_append, List.length_singleton,
      hgas]
    push_cast
    ring
  · simp [SimState.bought, hfees]
  · simp [SimState.bought, hll]
  · intro j hj
    rw [List.mem_append, List.mem_singleton] at hj
    simp only [SimState.bought, List.length_set]
    rcases hj with hj | rfl
    · exact hlt j hj
    · exact (List.getElem?_eq_some_iff.1 hslot).1
  · apply histories_set hll hhist
    exact SlotHistory.buy (hhist i none hslot) rfl hline rfl rfl

/-- A sale moves the slot's cost and its net into cash. -/
theorem reconciled_sold {i : Nat} {line : K} {slot : Slot K}
    (hs : Reconciled p grid s) (hslot : s.slots[i]? = some (some slot))
    (hline : grid.lines[i + 1]? = some line) (hlater : slot.buyIdx < idx) :
    Reconciled p grid (s.sold p idx r i line slot) := by
  obtain ⟨hlen, hcash, htrades, hgas, hfees, labels, hll, hlt, hhist⟩ := hs
  refine ⟨?_, ?_, ?_, ?_, ?_, labels ++ [i], ?_, ?_, ?_⟩
  · simp [SimState.sold, hlen]
  · unfold CashBalanced SimState.sumSlots at hcash ⊢
    rw [sum_drain Slot.costBasis hslot] at hcash
    simp only [SimState.sold, List.map_append, List.sum_append,
      List.map_cons, List.map_nil, List.sum_cons, List.sum_nil]
    rw [← add_assoc, ← hcash]
    ring
  · have hopen := length_drain hslot
    simp only [SimState.sold, List.length_append, List.length_singleton]
    omega
  · simp only [SimState.sold, List.length_append, List.length_singleton,
      hgas]
    push_cast
    ring
  · simp [SimState.sold, hfees]
  · simp [SimState.sold, hll]
  · intro j hj
    rw [List.mem_append, List.mem_singleton] at hj
    simp only [SimState.sold, List.length_set]
    rcases hj with hj | rfl
    · exact hlt j hj
    · exact (List.getElem?_eq_some_iff.1 hslot).1
  · apply histories_set hll hhist
    exact SlotHistory.sell (hhist i (some slot) hslot) rfl hline hlater rfl

/-- A candle's trades keep them balanced. -/
theorem reconciled_trades (hs : Reconciled p grid s)
    (h : trades p grid idx r s = .ok s') : Reconciled p grid s' := by
  apply trades_keeps ?_ ?_ hs h
  · intro t i t' hi ht hstep
    have hlt : i < t.slots.length := by
      rw [ht.slots]
      exact hi
    rcases buyAt_cases hlt hstep with rfl | ⟨line, qty, hslot, hline, rfl⟩
    · exact ht
    · exact reconciled_bought ht hslot hline
  · intro t i hi ht
    have hlt : i < t.slots.length := by
      rw [ht.slots]
      exact hi
    rcases sellAt_cases p grid idx r t hlt
      with heq | ⟨line, slot, hslot, hline, hlater, heq⟩
    · rw [heq]
      exact ht
    · rw [heq]
      exact reconciled_sold ht hslot hline hlater

/-- The mark moves neither cash nor slots. -/
theorem reconciled_candle (hs : Reconciled p grid s)
    (h : candle p grid idx r s = .ok s') : Reconciled p grid s' := by
  obtain ⟨t, htrades, hmark⟩ := candle_eq_ok h
  have ht : Reconciled p grid t := reconciled_trades hs htrades
  obtain ⟨-, rfl⟩ := mark_eq_ok hmark
  exact ⟨ht.slots, ht.cash, ht.trades, ht.gas, ht.fees, ht.histories⟩

/-- So does a run of candles. -/
theorem reconciled_run {rows : List (Kline K)}
    (h : simLoop p grid 0 (SimState.start grid) rows = .ok s) :
    Reconciled p grid s := by
  have hkeep : ∀ idx r t t', Reconciled p grid t →
      candle p grid idx r t = .ok t' → Reconciled p grid t' := by
    intro idx r t t' ht hstep
    exact reconciled_candle ht hstep
  obtain ⟨-, -, hs⟩ := simLoop_keeps (P := fun _ => Reconciled p grid) hkeep
    (reconciled_start p grid) h
  exact hs

-- ========================================================== the simulation

/-- The books of a simulation, halted or not: profit is realized and
unrealized, cash balances at every candle, every trade is half of a
round trip or an open slot, gas and fees are those of the fills, and
every slot's fills alternate. -/
theorem simulate_reconciles {rows : List (Kline K)} {grid : GridConfig K}
    {p : SimParams K} {r : SimResult K}
    (h : simulate rows grid p = .ok r) :
    r.netPnlUsd = r.realizedPnlUsd + r.unrealizedPnlUsd
      ∧ (∀ n, ∃ s, simLoop p grid 0 (SimState.start grid) (rows.take n)
          = .ok s ∧ CashBalanced grid s)
      ∧ r.gasUsd = p.gasUsdPerFill * r.nTrades
      ∧ r.feesUsd = (r.fills.map fun f => f.usd * p.fee).sum
      ∧ ∃ s, simLoop p grid 0 (SimState.start grid) rows = .ok s
        ∧ r.nTrades = 2 * r.nRoundTrips + s.slots.reduceOption.length
        ∧ Attributed grid r.fills s.slots := by
  obtain ⟨s, hs, rfl⟩ := simulate_eq_ok.1 h
  have hrec : Reconciled p grid s := reconciled_run hs
  refine ⟨?_, ?_, hrec.gas, hrec.fees, s, hs, hrec.trades, hrec.histories⟩
  · have hcash : s.cash + s.sumSlots Slot.costBasis
        = grid.capitalUsd + (s.roundTrips.map RoundTrip.netUsd).sum :=
      hrec.cash
    simp only [resultAt, SimState.equity]
    linear_combination hcash
  · intro n
    obtain ⟨t, ht⟩ := simLoop_take rfl hs n
    exact ⟨t, ht, (reconciled_run ht).cash⟩

-- ============================================================ one replay

/-- A grid of two slots, between 600 and 640. -/
def bandGrid : GridConfig ℚ where
  lower := 600
  upper := 640
  levels := 3
  lines := [600, 620, 640]
  sizeUsdPerLevel := 300
  spacingFrac := 1 / 20
  atr := 30
  midPrice := 620
  risk := "balanced"
  capitalUsd := 900

def bandParams : SimParams ℚ := ⟨1 / 10, 25, 10, 5⟩

/-- A candle with one price at its open and its close. -/
def flatCandle (hour : Int) (low high close : ℚ) : Kline ℚ :=
  { openTimeMs := hour * 3600000, openPrice := close, high, low, close,
    volume := 1 }

/-- A dip through two lines, a rise through two, a dip through one. -/
def zigzag : List (Kline ℚ) :=
  [flatCandle 0 598 625 620, flatCandle 1 615 645 640,
   flatCandle 2 595 602 600]

/-- Two round trips in one candle, and what is open at the end. -/
theorem simulate_reconciles_zigzag :
    ∃ (r : SimResult ℚ) (s : SimState ℚ),
      simulate zigzag bandGrid bandParams = .ok r
      ∧ r.nTrades = 6 ∧ r.nRoundTrips = 2
      ∧ r.netPnlUsd = r.realizedPnlUsd + r.unrealizedPnlUsd
      ∧ r.gasUsd = bandParams.gasUsdPerFill * r.nTrades
      ∧ r.nTrades = 2 * r.nRoundTrips + s.slots.reduceOption.length
      ∧ Attributed bandGrid r.fills s.slots := by
  obtain ⟨r, hr, hcounts⟩ := exists_of_okAnd
    (x := simulate zigzag bandGrid bandParams)
    (p := fun r => decide (r.nTrades = 6 ∧ r.nRoundTrips = 2))
    (by decide +kernel)
  obtain ⟨htrades, htrips⟩ := of_decide_eq_true hcounts
  obtain ⟨hnet, -, hgas, -, s, -, hopen, hhist⟩ := simulate_reconciles hr
  exact ⟨r, s, hr, htrades, htrips, hnet, hgas, hopen, hhist⟩

end Proofstand.BnbGrid
