/-
Where a paper grid and its baseline are marked to market.

The simulation marks what is open at the last candle it replayed, hodl
at the last candle there is, and `window_days` runs to the last candle
there is. The three are one candle exactly when no candle before the last
trips the circuit breaker (`sameMark_iff`).

# How it goes

The replay's loop either goes on to the next candle or stops at the
breaker, so its mark is found by induction over the candles, for every
state of the ledger it may be in (`simLoop_marks`): `UnbrokenFrom` follows
the same ledger and says that no candle with a successor trips. A breaker
at the very last candle stops a replay that has ended anyhow, and is
therefore not asked about.

The breaker is the code's own test, of the unrealised loss and of how far
the close is outside the band; nothing else stops the loop.
-/
import Proofstand.Agents.Proofs.Ledger
import Proofstand.Orchestrator.Proofs.Baselines

namespace Proofstand.BnbGrid

open Fallible

variable {K : Type} [Field K] [LinearOrder K]

-- ============================================================ the candles

/-- The number of the candle a simulation's open slots are marked at. -/
def SimResult.markIdx (r : SimResult K) : Nat := r.equityCurve.length - 1

/-- The simulation's mark is the last candle, where hodl's is, and the
reported window runs from the first candle to it. -/
structure SameMark (klines : List (Kline K)) (r : SimResult K) : Prop where
  mark : r.markIdx = klines.length - 1
  window : ∀ first marked, klines.head? = some first →
    klines[r.markIdx]? = some marked →
    r.windowDays
      = ((marked.openTimeMs - first.openTimeMs : Int) : K) / 86400000

/-- From candle `idx` on, no candle that another follows trips the
breaker on the ledger it leaves. -/
def UnbrokenFrom (p : SimParams K) (grid : GridConfig K) :
    Nat → SimState K → List (Kline K) → Prop
  | _, _, [] => True
  | idx, s, r :: rs => rs ≠ [] → ∀ t, candle p grid idx r s = .ok t →
      breaker p grid r t = none ∧ UnbrokenFrom p grid (idx + 1) t rs

/-- No candle before the last trips the breaker. -/
def Unbroken (p : SimParams K) (grid : GridConfig K)
    (klines : List (Kline K)) : Prop :=
  UnbrokenFrom p grid 0 (SimState.start grid) klines

variable {p : SimParams K} {grid : GridConfig K} {idx : Nat} {r : Kline K}
  {s s' : SimState K}

-- ============================================================= the replay

/-- A replay marks every candle unless one before the last trips the
breaker. -/
theorem simLoop_marks {rows : List (Kline K)}
    (h : simLoop p grid idx s rows = .ok s') :
    (rows ≠ [] → s.equityCurve.length < s'.equityCurve.length)
      ∧ s'.equityCurve.length ≤ s.equityCurve.length + rows.length
      ∧ (s'.equityCurve.length = s.equityCurve.length + rows.length
          ↔ UnbrokenFrom p grid idx s rows) := by
  induction rows generalizing idx s with
  | nil =>
      cases h
      simp [UnbrokenFrom]
  | cons r rows ih =>
      obtain ⟨s₁, hstep, hrest⟩ := bind_eq_ok.1 h
      obtain ⟨hlen, hhalt, -⟩ := candle_adds hstep
      have hone : UnbrokenFrom p grid idx s (r :: rows)
          ↔ (rows ≠ [] → breaker p grid r s₁ = none
              ∧ UnbrokenFrom p grid (idx + 1) s₁ rows) := by
        simp [UnbrokenFrom, hstep]
      rw [hone, ← hhalt, List.length_cons]
      cases hs₁ : s₁.halted with
      | some reason =>
          rw [hs₁] at hrest
          cases hrest
          refine ⟨fun _ => by omega, by omega, ?_⟩
          by_cases hnil : rows = []
          · simp [hnil, hlen]
          · have hpos : 0 < rows.length := List.length_pos_iff.2 hnil
            simp only [ne_eq, hnil, not_false_eq_true, reduceCtorEq,
              false_and, imp_false, not_true_eq_false, iff_false]
            omega
      | none =>
          rw [hs₁] at hrest
          obtain ⟨hpos, hle, hiff⟩ := ih hrest
          by_cases hnil : rows = []
          · subst hnil
            cases hrest
            simp [hlen, UnbrokenFrom]
          · have hmore := hpos hnil
            refine ⟨fun _ => by omega, by omega, ?_⟩
            rw [show s.equityCurve.length + (rows.length + 1)
                = s₁.equityCurve.length + rows.length by omega, hiff]
            simp [hnil]

-- ================================================================== hodl

/-- hodl's gross on an observation marks the last candle of its window. -/
theorem hodlGross_klines {d : Data K} {g : K}
    (h : Baselines.hodlGross d.toVal = .ok g) :
    ∃ capital first last, d.simKlines.head? = some first
      ∧ d.simKlines[d.simKlines.length - 1]? = some last
      ∧ g = capital / first.openPrice * last.close - capital := by
  have hdata : d.toVal.item "klines"
      = .ok (.list (d.simKlines.map Kline.toVal)) := rfl
  generalize d.simKlines = klines at hdata ⊢
  unfold Baselines.hodlGross at h
  obtain ⟨-, -, h⟩ := bind_eq_ok.1 h
  rw [hdata, ok_bind] at h
  obtain ⟨inputs, -, h⟩ := bind_eq_ok.1 h
  obtain ⟨capital, -, h⟩ := bind_eq_ok.1 h
  obtain ⟨firstVal, hfirst, h⟩ := bind_eq_ok.1 h
  obtain ⟨p0, hp0, h⟩ := bind_eq_ok.1 h
  obtain ⟨lastVal, hlast, h⟩ := bind_eq_ok.1 h
  obtain ⟨p1, hp1, h⟩ := bind_eq_ok.1 h
  obtain ⟨qty, hqty, h⟩ := bind_eq_ok.1 h
  cases h
  cases klines with
  | nil => cases hfirst
  | cons first rest =>
      cases hfirst
      have hend : (first :: rest).getLast? = some ((first :: rest).getLast
          (List.cons_ne_nil _ _)) := List.getLast?_eq_some_getLast _
      refine ⟨capital, first, (first :: rest).getLast (List.cons_ne_nil _ _),
        rfl, ?_, ?_⟩
      · rw [← List.getLast?_eq_getElem?, hend]
      · simp only [PyVal.last, List.getLast?_map, hend] at hlast
        cases hlast
        cases hp0
        cases hp1
        unfold pyDiv at hqty
        split at hqty
        · cases hqty
        · cases hqty
          rfl

-- ================================================================ one mark

/-- A simulation is marked at a candle of its own, hodl at the last one;
they and the window's end are one candle exactly when no candle before
the last trips the breaker. -/
theorem sameMark_iff {klines : List (Kline K)} {sim : SimResult K}
    (hlen : 2 ≤ klines.length) (hsim : simulate klines grid p = .ok sim) :
    (∃ t marked, simLoop p grid 0 (SimState.start grid) klines = .ok t
        ∧ klines[sim.markIdx]? = some marked
        ∧ sim.finalEquityUsd = t.equity marked.close)
      ∧ (∀ d : Data K, d.simKlines = klines → ∀ g,
        Baselines.hodlGross d.toVal = .ok g →
        ∃ capital first last, klines.head? = some first
          ∧ klines[klines.length - 1]? = some last
          ∧ g = capital / first.openPrice * last.close - capital)
      ∧ (SameMark klines sim ↔ Unbroken p grid klines) := by
  obtain ⟨t, ht, hresult⟩ := simulate_eq_ok.1 hsim
  obtain ⟨hpos, hle, hiff⟩ := simLoop_marks ht
  have hne : klines ≠ [] := List.length_pos_iff.1 (by omega)
  have hstart : (SimState.start grid).equityCurve.length = 0 := rfl
  have hidx : sim.markIdx = t.equityCurve.length - 1 := by
    rw [hresult]
    rfl
  have hgrew := hpos hne
  have hlt : sim.markIdx < klines.length := by omega
  refine ⟨⟨t, klines[sim.markIdx], ht, List.getElem?_eq_getElem hlt, ?_⟩,
    ?_, ?_⟩
  · have hmarked : t.equityCurve.length = sim.markIdx + 1 := by omega
    have hclose : lastClose klines t = klines[sim.markIdx].close := by
      rw [lastClose_eq hmarked, List.getElem?_eq_getElem hlt]
      rfl
    rw [← hclose]
    exact congrArg SimResult.finalEquityUsd hresult
  · intro d heq
    subst heq
    intro g hg
    exact hodlGross_klines hg
  · rw [Unbroken, ← hiff]
    constructor
    · intro hsame
      have := hsame.mark
      omega
    · intro hall
      have hlast : sim.markIdx = klines.length - 1 := by omega
      refine ⟨hlast, ?_⟩
      intro first marked hfirst hmarked
      rw [hlast, ← List.getLast?_eq_getElem?] at hmarked
      have hwindow : sim.windowDays = windowDays (klines.map Kline.toCandle) :=
        congrArg SimResult.windowDays hresult
      rw [hwindow, windowDays, List.head?_map, List.getLast?_map, hfirst,
        hmarked]
      rfl

/-- A dip that fills the slots, a close below the band, a recovery. -/
def dipAndRecovery : List (Kline ℚ) :=
  [flatCandle 0 598 625 620, flatCandle 1 520 620 530,
   flatCandle 2 530 625 620]

/-- The breaker fires on the second of three candles: the slots are marked
there, and the window runs to the third. -/
theorem halted_marks_apart :
    ∃ sim, simulate dipAndRecovery bandGrid bandParams = .ok sim
      ∧ ¬ SameMark dipAndRecovery sim ∧ sim.markIdx = 1
      ∧ sim.windowDays = 2 / 24 ∧ sim.halted.isSome := by
  obtain ⟨sim, hsim, hfacts⟩ := exists_of_okAnd
    (x := simulate dipAndRecovery bandGrid bandParams)
    (p := fun sim => decide (sim.markIdx = 1 ∧ sim.windowDays = 2 / 24
      ∧ sim.halted.isSome))
    (by decide +kernel)
  obtain ⟨hmark, hwindow, hhalted⟩ := of_decide_eq_true hfacts
  refine ⟨sim, hsim, ?_, hmark, hwindow, hhalted⟩
  intro hsame
  have hlast : sim.markIdx = 2 := hsame.mark
  omega

/-- A replay that ends inside the band is marked where hodl is. -/
theorem sameMark_zigzag :
    ∃ sim, simulate zigzag bandGrid bandParams = .ok sim
      ∧ (SameMark zigzag sim ↔ Unbroken bandParams bandGrid zigzag) := by
  obtain ⟨sim, hsim, -⟩ := exists_of_okAnd
    (x := simulate zigzag bandGrid bandParams) (p := fun _ => true)
    (by decide +kernel)
  exact ⟨sim, hsim, (sameMark_iff (by decide) hsim).2.2⟩

end Proofstand.BnbGrid
