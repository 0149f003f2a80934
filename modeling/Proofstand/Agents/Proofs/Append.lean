/-
The paper ledger is recomputed from its first candle at every cycle, and
does not rewrite what it recorded.

Every turn of a slot and every mark only adds to the three records
(`Extends`), so a replay over more candles extends the replay over fewer
(`simLoop_extends`). Once a candle halts the replay, later candles are
not read: the loop's state is that of the shorter run
(`simLoop_halted`), and the price it is marked at is the one at the halt.

# A cycle's two replays

A cycle replays the whole history again, and the history has grown by some
candles. A replay of two lists in a row is the replay of the first and
then, unless that halted, of the second from where it stands
(`simLoop_append`). So the longer replay passes through the ledger the
shorter one ends in, and from there only appends (`simLoop_prefix`). Where
a candle of the first list halts, both stop there.

The last close needs its own lemma (`lastClose_append`): the source takes
it by the number of points on the curve and not by the list's length.
-/
import Proofstand.Agents.Proofs.Ledger

namespace Proofstand.BnbGrid

open Fallible

variable {K : Type} [Field K] [LinearOrder K]

-- ============================================================ the records

/-- The records of `t` go on from those of `s`. -/
structure SimState.Extends (s t : SimState K) : Prop where
  fills : s.fills <+: t.fills
  roundTrips : s.roundTrips <+: t.roundTrips
  equityCurve : s.equityCurve <+: t.equityCurve

omit [Field K] [LinearOrder K] in
theorem SimState.Extends.refl (s : SimState K) : s.Extends s :=
  ⟨List.prefix_rfl, List.prefix_rfl, List.prefix_rfl⟩

omit [Field K] [LinearOrder K] in
theorem SimState.Extends.trans {s t u : SimState K} (hst : s.Extends t)
    (htu : t.Extends u) : s.Extends u :=
  ⟨hst.fills.trans htu.fills, hst.roundTrips.trans htu.roundTrips,
    hst.equityCurve.trans htu.equityCurve⟩

variable {p : SimParams K} {grid : GridConfig K} {idx : Nat} {r : Kline K}
  {s s' : SimState K}

/-- A level's buy goes on from the state before it, -/
theorem buyAt_extends {i : Nat} (h : buyAt p grid idx r s i = .ok s') :
    s.Extends s' := by
  rcases buyAt_shape h with rfl | ⟨line, qty, -, -, rfl⟩
  · exact SimState.Extends.refl s'
  · exact ⟨List.prefix_append _ _, List.prefix_rfl, List.prefix_rfl⟩

/-- and so does its sell, -/
theorem sellAt_extends (p : SimParams K) (grid : GridConfig K) (idx : Nat)
    (r : Kline K) (s : SimState K) (i : Nat) :
    s.Extends (sellAt p grid idx r s i) := by
  rcases sellAt_shape p grid idx r s i with heq | ⟨line, slot, -, -, -, heq⟩
  · rw [heq]
    exact SimState.Extends.refl s
  · rw [heq]
    exact ⟨List.prefix_append _ _, List.prefix_append _ _, List.prefix_rfl⟩

/-- a candle, -/
theorem candle_extends (h : candle p grid idx r s = .ok s') :
    s.Extends s' := by
  obtain ⟨t, htrades, hmark⟩ := candle_eq_ok h
  have ht : s.Extends t := by
    apply trades_keeps (P := fun t => s.Extends t) ?_ ?_
      (SimState.Extends.refl s) htrades
    · intro t i t' _ hst hstep
      exact hst.trans (buyAt_extends hstep)
    · intro t i _ hst
      exact hst.trans (sellAt_extends p grid idx r t i)
  obtain ⟨-, rfl⟩ := mark_eq_ok hmark
  exact ht.trans ⟨List.prefix_rfl, List.prefix_rfl, List.prefix_append _ _⟩

/-- and a run of them. -/
theorem simLoop_extends {rows : List (Kline K)}
    (h : simLoop p grid idx s rows = .ok s') : s.Extends s' := by
  obtain ⟨-, -, hext⟩ := simLoop_keeps (P := fun _ t => s.Extends t)
    (fun _ _ _ _ hst hstep => hst.trans (candle_extends hstep))
    (SimState.Extends.refl s) h
  exact hext

/-- One point of the curve for each candle read. -/
theorem simLoop_curve_le {rows : List (Kline K)}
    (h : simLoop p grid 0 (SimState.start grid) rows = .ok s) :
    s.equityCurve.length ≤ rows.length := by
  have hkeep : ∀ idx r t t', t.equityCurve.length = idx →
      candle p grid idx r t = .ok t' → t'.equityCurve.length = idx + 1 := by
    intro idx r t t' ht hstep
    rw [(candle_adds hstep).1, ht]
  have hstart : (SimState.start grid).equityCurve.length = 0 := rfl
  obtain ⟨n, hn, hlen⟩ := simLoop_keeps
    (P := fun idx t => t.equityCurve.length = idx) hkeep hstart h
  omega

-- ============================================================ two replays

/-- Where the longer replay returns, the shorter one does, and the longer
one's records go on from it. -/
theorem simLoop_prefix {rows more : List (Kline K)}
    (hs : s.halted = none)
    (h : simLoop p grid idx s (rows ++ more) = .ok s') :
    ∃ t, simLoop p grid idx s rows = .ok t ∧ t.Extends s' := by
  rw [simLoop_append _ _ hs] at h
  obtain ⟨t, ht, hrest⟩ := bind_eq_ok.1 h
  refine ⟨t, ht, ?_⟩
  split at hrest
  · cases hrest
    exact SimState.Extends.refl s'
  · exact simLoop_extends hrest

/-- A halted replay does not read what comes after. -/
theorem simLoop_halted {rows : List (Kline K)} (more : List (Kline K))
    (hs : s.halted = none) (h : simLoop p grid idx s rows = .ok s')
    (hhalt : s'.halted.isSome) :
    simLoop p grid idx s (rows ++ more) = .ok s' := by
  rw [simLoop_append _ _ hs, h, ok_bind, if_pos hhalt]

omit [LinearOrder K] in
/-- The last candle read is one of the first. -/
theorem lastClose_append {rows more : List (Kline K)}
    (h : s.equityCurve.length ≤ rows.length) :
    lastClose (rows ++ more) s = lastClose rows s := by
  cases hcurve : s.equityCurve.length with
  | zero => rw [lastClose, lastClose, hcurve]
  | succ n =>
      rw [lastClose_eq hcurve, lastClose_eq hcurve,
        List.getElem?_append_left (by omega)]

/-- Further candles extend the fills, the round trips and the curve, and
after a halt change nothing of them, of the reason or of the final
equity. -/
theorem simulate_append (grid : GridConfig K) (p : SimParams K)
    (rows more : List (Kline K)) :
    (∀ r', simulate (rows ++ more) grid p = .ok r' →
      ∃ r, simulate rows grid p = .ok r ∧ r.fills <+: r'.fills
        ∧ r.roundTrips <+: r'.roundTrips
        ∧ r.equityCurve <+: r'.equityCurve)
    ∧ ∀ r, simulate rows grid p = .ok r → r.halted.isSome →
      ∃ r', simulate (rows ++ more) grid p = .ok r' ∧ r'.fills = r.fills
        ∧ r'.roundTrips = r.roundTrips ∧ r'.equityCurve = r.equityCurve
        ∧ r'.halted = r.halted ∧ r'.finalEquityUsd = r.finalEquityUsd := by
  constructor
  · intro r' h
    obtain ⟨s', hs', rfl⟩ := simulate_eq_ok.1 h
    obtain ⟨s, hs, hext⟩ := simLoop_prefix rfl hs'
    exact ⟨_, simulate_eq_ok.2 ⟨s, hs, rfl⟩, hext.fills, hext.roundTrips,
      hext.equityCurve⟩
  · intro r h hhalt
    obtain ⟨s, hs, rfl⟩ := simulate_eq_ok.1 h
    have hsame := simLoop_halted more rfl hs hhalt
    refine ⟨_, simulate_eq_ok.2 ⟨s, hsame, rfl⟩, rfl, rfl, rfl, rfl, ?_⟩
    show s.equity (lastClose (rows ++ more) s) = s.equity (lastClose rows s)
    rw [lastClose_append (simLoop_curve_le hs)]

/-- A replay that its breaker halts at the second candle. -/
def crash : List (Kline ℚ) :=
  [flatCandle 0 598 625 620, flatCandle 1 500 615 510]

/-- The halt stands whatever the market does next, and what was traded
before it is what a run of the first candle alone traded. -/
theorem simulate_append_crash :
    ∃ r r' r₁ : SimResult ℚ,
      simulate crash bandGrid bandParams = .ok r
      ∧ r.halted = some .unrealisedLoss ∧ r.nTrades = 2
      ∧ simulate (crash ++ zigzag) bandGrid bandParams = .ok r'
      ∧ r'.fills = r.fills ∧ r'.halted = r.halted
      ∧ r'.finalEquityUsd = r.finalEquityUsd
      ∧ simulate (crash.take 1) bandGrid bandParams = .ok r₁
      ∧ r₁.fills <+: r.fills := by
  obtain ⟨r, hr, hfacts⟩ := exists_of_okAnd
    (x := simulate crash bandGrid bandParams)
    (p := fun r => decide (r.halted = some .unrealisedLoss ∧ r.nTrades = 2))
    (by decide +kernel)
  obtain ⟨hhalt, htrades⟩ := of_decide_eq_true hfacts
  obtain ⟨r', hr', hfills, -, -, hsame, hfinal⟩ :=
    (simulate_append bandGrid bandParams crash zigzag).2 r hr (by simp [hhalt])
  obtain ⟨r₁, hr₁, hprefix, -, -⟩ :=
    (simulate_append bandGrid bandParams (crash.take 1) (crash.drop 1)).1 r hr
  exact ⟨r, r', r₁, hr, hhalt, htrades, hr', hfills, hsame, hfinal, hr₁,
    hprefix⟩

end Proofstand.BnbGrid
