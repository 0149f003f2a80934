/-
What the paper grid's fills may depend on.

The replay itself looks back only: what it records up to a moment is what
the candles up to it leave (`simulate_upto`). The grid it replays is
calibrated on the whole history, the sim window included, so a later
candle reaches an earlier fill through the band and the spacing, and
through nothing else (`fills_upto_same`).

# The band is the one leak

A hire calibrates on the whole history, so its fills depend on candles
after them in one way, the grid. `SameBand` names what that way carries:
the lower and the upper end and the spacing, and nothing of the ATR or the
price they were made from. On two grids of one band a replay takes the
same turns (`simLoop_same_grid`), and up to a moment it has read only the
candles up to it (`simulate_upto`).

# The sim window

Which candles are replayed is a matter of counting from the end, with a
window too short filled up to two rows. Two histories of one length that
agree up to a moment are cut at the same place (`simWindow_drop`), so
their windows agree up to it as well. That needs the moment to be inside
the window.
-/
import Proofstand.Agents.Proofs.Calibration
import Proofstand.Agents.Proofs.Ledger
import Proofstand.Agents.Proofs.Observe
import Proofstand.Lib.Timeline

namespace Proofstand.BnbGrid

open Fallible Timeline Calibrate

variable {K : Type} [Field K] [LinearOrder K]

-- ==================================================== the replay looks back

/-- The records of a replay up to a moment. -/
def SimResult.fillsUpto (r : SimResult K) (t : Int) : List (Fill K) :=
  r.fills.filter fun f => f.ts ≤ t

/-- A replay adds fills at the times of its own candles. -/
theorem simLoop_fills {p : SimParams K} {grid : GridConfig K} {idx : Nat}
    {s s' : SimState K} {rows : List (Kline K)}
    (h : simLoop p grid idx s rows = .ok s') :
    ∃ fs, s'.fills = s.fills ++ fs
      ∧ ∀ f ∈ fs, ∃ r ∈ rows, f.ts = r.openTimeMs := by
  induction rows generalizing idx s with
  | nil =>
      cases h
      exact ⟨[], by simp, by simp⟩
  | cons r rows ih =>
      obtain ⟨s₁, hstep, hrest⟩ := bind_eq_ok.1 h
      obtain ⟨-, -, fs, hfs, hof⟩ := candle_adds hstep
      split at hrest
      · cases hrest
        refine ⟨fs, hfs, ?_⟩
        intro f hf
        exact ⟨r, List.mem_cons_self, (hof f hf).2⟩
      · obtain ⟨gs, hgs, hmore⟩ := ih hrest
        refine ⟨fs ++ gs, by rw [hgs, hfs, List.append_assoc], ?_⟩
        intro f hf
        rcases List.mem_append.1 hf with hf | hf
        · exact ⟨r, List.mem_cons_self, (hof f hf).2⟩
        · obtain ⟨c, hc, hts⟩ := hmore f hf
          exact ⟨c, List.mem_cons_of_mem r hc, hts⟩

/-- What is recorded up to a moment is what the candles up to it leave. -/
theorem simulate_upto {p : SimParams K} {grid : GridConfig K}
    {rows : List (Kline K)} {r : SimResult K} {t : Int}
    (hrows : Ordered (fun k : Kline K => k.openTimeMs) rows)
    (h : simulate rows grid p = .ok r) :
    ∃ s, simLoop p grid 0 (SimState.start grid)
        (upto (fun k => k.openTimeMs) t rows) = .ok s
      ∧ r.fillsUpto t = s.fills := by
  obtain ⟨s', hrun, rfl⟩ := simulate_eq_ok.1 h
  rw [← upto_append hrows t, simLoop_append _ _ rfl] at hrun
  obtain ⟨s, hs, hrest⟩ := bind_eq_ok.1 hrun
  refine ⟨s, hs, ?_⟩
  have hkept : s.fills.filter (fun f => f.ts ≤ t) = s.fills := by
    obtain ⟨fs, hfs, hof⟩ := simLoop_fills hs
    rw [List.filter_eq_self]
    intro f hf
    rw [hfs] at hf
    obtain ⟨c, hc, hts⟩ := hof f (by simpa [SimState.start] using hf)
    simpa [hts] using (mem_upto.1 hc).2
  show s'.fills.filter (fun f => f.ts ≤ t) = s.fills
  split at hrest
  · cases hrest
    exact hkept
  · obtain ⟨fs, hfs, hof⟩ := simLoop_fills hrest
    have hlater : fs.filter (fun f => f.ts ≤ t) = [] := by
      rw [List.filter_eq_nil_iff]
      intro f hf
      obtain ⟨c, hc, hts⟩ := hof f hf
      have hct : t < c.openTimeMs := by
        simpa using (List.mem_filter.1 hc).2
      simp [hts, hct]
    rw [hfs, List.filter_append, hkept, hlater, List.append_nil]

-- =================================================== what the grid carries

/-- What a replay reads of a calibrated grid that is not fixed by the
hire's inputs. -/
structure SameBand (g g' : GridConfig K) : Prop where
  lower : g.lower = g'.lower
  upper : g.upper = g'.upper
  spacingFrac : g.spacingFrac = g'.spacingFrac

/-- One run of candles on two grids that a replay cannot tell apart. -/
theorem simLoop_same_grid {p : SimParams K} {g g' : GridConfig K}
    (hband : SameBand g g') (hlines : g.lines = g'.lines)
    (hsize : g.sizeUsdPerLevel = g'.sizeUsdPerLevel)
    (hcapital : g.capitalUsd = g'.capitalUsd) (idx : Nat) (s : SimState K)
    (rows : List (Kline K)) :
    simLoop p g idx s rows = simLoop p g' idx s rows := by
  have hcandle : candle p g = candle p g' := by
    obtain ⟨hlower, hupper, hspacing⟩ := hband
    cases g
    cases g'
    cases hlower
    cases hupper
    cases hspacing
    cases hlines
    cases hsize
    cases hcapital
    rfl
  induction rows generalizing idx s with
  | nil => rfl
  | cons r rows ih =>
      rw [simLoop, simLoop, hcandle]
      apply bind_congr
      intro t
      split
      · rfl
      · exact ih (idx + 1) t

-- ======================================================= the sim window

namespace BnbGridAgent

omit [Field K] [LinearOrder K] in
/-- The last rows of two histories of one length are cut at one place. -/
theorem tailRows_drop {xs ys : List (Kline K)} (hlen : xs.length = ys.length)
    (n : Int) : ∃ m, tailRows n xs = xs.drop m ∧ tailRows n ys = ys.drop m := by
  unfold tailRows
  rw [hlen]
  split
  · exact ⟨_, rfl, rfl⟩
  · exact ⟨_, rfl, rfl⟩

omit [Field K] [LinearOrder K] in
/-- And so is a window of them that is filled up to two rows. -/
theorem atLeastTwo_drop {xs ys us vs : List (Kline K)}
    (hlen : xs.length = ys.length) {n : Nat} (hus : us = xs.drop n)
    (hvs : vs = ys.drop n) :
    ∃ m, (if us.length < 2 then tailRows 2 xs else us) = xs.drop m
      ∧ (if vs.length < 2 then tailRows 2 ys else vs) = ys.drop m := by
  rw [hus, hvs, List.length_drop, List.length_drop, hlen]
  split
  · exact tailRows_drop hlen 2
  · exact ⟨n, rfl, rfl⟩

omit [Field K] [LinearOrder K] in
/-- Where one of the last two candles opened by `t`, fewer than two opened
after it, in either history. -/
theorem few_after {xs ys : List (Kline K)} {t cutoff : Int}
    (hxs : Ordered (fun k : Kline K => k.openTimeMs) xs)
    (hys : Ordered (fun k : Kline K => k.openTimeMs) ys)
    (hlen : xs.length = ys.length)
    (hagree : upto (fun k => k.openTimeMs) t xs
      = upto (fun k => k.openTimeMs) t ys) {c : Kline K}
    (hc : c ∈ tailRows 2 xs) (hct : c.openTimeMs ≤ t) (hcut : t < cutoff) :
    (ys.filter fun k => cutoff ≤ k.openTimeMs).length < 2 := by
  have hsub : (ys.filter fun k => cutoff ≤ k.openTimeMs).length
      ≤ (ys.filter fun k => t < k.openTimeMs).length := by
    rw [← List.countP_eq_length_filter, ← List.countP_eq_length_filter]
    apply List.countP_mono_left
    intro k _ hk
    have hk' : cutoff ≤ k.openTimeMs := by simpa using hk
    simp only [decide_eq_true_eq]
    omega
  have hsplit := congrArg List.length (upto_append hys t)
  rw [List.length_append, ← hagree, ← hlen] at hsplit
  have hend : tailRows 2 xs = xs.drop (xs.length - 2) := rfl
  have hmem : c ∈ (upto (fun k => k.openTimeMs) t xs).drop
      (xs.length - 2) := by
    rw [← drop_upto hxs, mem_upto, ← hend]
    exact ⟨hc, hct⟩
  have hpos := List.length_pos_of_mem hmem
  rw [List.length_drop] at hpos
  omega

omit [Field K] [LinearOrder K] in
/-- The window is a suffix, and one that candles after a moment inside it
do not move. -/
theorem simWindow_drop (a : BnbGridAgent K) {xs ys : List (Kline K)}
    {t : Int} (hxs : Ordered (fun k : Kline K => k.openTimeMs) xs)
    (hys : Ordered (fun k : Kline K => k.openTimeMs) ys)
    (hlen : xs.length = ys.length)
    (hagree : upto (fun k => k.openTimeMs) t xs
      = upto (fun k => k.openTimeMs) t ys)
    (hinside : ∃ c ∈ a.simWindow xs, c.openTimeMs ≤ t) :
    ∃ n, a.simWindow xs = xs.drop n ∧ a.simWindow ys = ys.drop n := by
  unfold simWindow at hinside ⊢
  cases hsince : a.sinceMs with
  | none =>
      obtain ⟨n, hn, hn'⟩ := tailRows_drop hlen (a.defaultWindowDays * 24)
      exact atLeastTwo_drop hlen hn hn'
  | some cutoff =>
      rw [hsince] at hinside
      simp only at hinside ⊢
      rcases le_or_gt cutoff t with hcut | hcut
      · have hsame := before_length_of_agree hcut hagree
        have hx := filter_from hxs cutoff
        have hy := filter_from hys cutoff
        rw [← hsame] at hy
        exact atLeastTwo_drop hlen hx hy
      · -- the window is the last two candles, of either history
        obtain ⟨c, hc, hct⟩ := hinside
        split at hc
        case isFalse =>
          have hlate : cutoff ≤ c.openTimeMs := by
            simpa using (List.mem_filter.1 hc).2
          omega
        case isTrue hshort =>
          rw [if_pos hshort, if_pos (few_after hxs hys hlen hagree hc hct hcut)]
          exact tailRows_drop hlen 2

-- =================================================== a hire's own path

/-- `observe()`, `decide()` and `act()` in turn: the observation, the grid
and the replay. -/
def paper [FloorRing K] (a : BnbGridAgent K) (inputs : Dict K)
    (w : World K) : Py (Data K × GridConfig K × Option (SimResult K)) := do
  let (d, s) ← a.observe a.agent.init inputs w
  let dec ← decide d
  let (_, s) ← a.act s dec
  pure (d, dec.params, s.sim)

/-- What `decide()` reads of the inputs: capital, levels, risk. -/
def askedFor [FloorRing K] (inputs : Dict K) : Py (K × Int × String) := do
  let capitalVal ← (PyVal.dict inputs).item "capital_usd"
  let capital ← capitalVal.number
  let levels ← ((inputs.lookup "grid_levels").getD (.int 12)).pyInt
  let risk := ((inputs.lookup "risk").getD (.str "balanced")).asText?
  pure (capital, levels, risk.getD "")

/-- What `decide()` did to return. -/
theorem decide_eq_ok [FloorRing K] {d : Data K}
    {dec : Decision (GridConfig K)} (h : decide d = .ok dec) :
    ∃ capital levels risk, askedFor d.inputs = .ok (capital, levels, risk)
      ∧ calibrateGrid d.calibKlines capital levels risk = .ok dec.params := by
  unfold decide at h
  split at h
  · cases h
  · obtain ⟨capitalVal, hval, h⟩ := bind_eq_ok.1 h
    obtain ⟨capital, hcapital, h⟩ := bind_eq_ok.1 h
    obtain ⟨levels, hlevels, h⟩ := bind_eq_ok.1 h
    obtain ⟨grid, hgrid, h⟩ := bind_eq_ok.1 h
    cases h
    refine ⟨capital, levels, _, ?_, hgrid⟩
    unfold askedFor
    rw [hval, ok_bind, hcapital, ok_bind, hlevels, ok_bind]
    rfl

/-- The parts of a hire's own path. -/
theorem paper_eq_ok [FloorRing K] {a : BnbGridAgent K} {inputs : Dict K}
    {w : World K} {d : Data K} {grid : GridConfig K} {sim : SimResult K}
    (h : a.paper inputs w = .ok (d, grid, some sim)) :
    d.simKlines = a.simWindow d.calibKlines
      ∧ (∃ capital levels risk, askedFor inputs = .ok (capital, levels, risk)
        ∧ calibrateGrid d.calibKlines capital levels risk = .ok grid)
      ∧ simulate d.simKlines grid
          ⟨d.gasUsdPerFill, a.feeBps, a.slippageBps, 5⟩ = .ok sim := by
  obtain ⟨⟨d', s⟩, hobs, h⟩ := bind_eq_ok.1 h
  obtain ⟨dec, hdec, h⟩ := bind_eq_ok.1 h
  obtain ⟨⟨actions, s'⟩, hact, h⟩ := bind_eq_ok.1 h
  obtain ⟨pair, -, hobs⟩ := bind_eq_ok.1 hobs
  obtain ⟨calib, -, hobs⟩ := bind_eq_ok.1 hobs
  obtain ⟨gas, -, hobs⟩ := bind_eq_ok.1 hobs
  cases hobs
  obtain ⟨r, hr, hact⟩ := bind_eq_ok.1 hact
  cases hact
  cases h
  exact ⟨rfl, decide_eq_ok hdec, hr⟩

end BnbGridAgent

-- ========================================================= no look-ahead

/-- Two histories of one length that agree up to a moment inside the sim
window, and on which calibration gives one band and one spacing, leave the
same fills up to that moment. -/
theorem fills_upto_same [FloorRing K] {a : BnbGridAgent K} {inputs : Dict K}
    {w w' : World K} {d d' : Data K} {grid grid' : GridConfig K}
    {sim sim' : SimResult K} {t : Int}
    (h : a.paper inputs w = .ok (d, grid, some sim))
    (h' : a.paper inputs w' = .ok (d', grid', some sim'))
    (hgas : d.gasUsdPerFill = d'.gasUsdPerFill)
    (hx : Ordered (fun k : Kline K => k.openTimeMs) d.calibKlines)
    (hy : Ordered (fun k : Kline K => k.openTimeMs) d'.calibKlines)
    (hlen : d.calibKlines.length = d'.calibKlines.length)
    (hagree : upto (fun k => k.openTimeMs) t d.calibKlines
      = upto (fun k => k.openTimeMs) t d'.calibKlines)
    (hinside : ∃ c ∈ d.simKlines, c.openTimeMs ≤ t)
    (hband : SameBand grid grid') : sim.fillsUpto t = sim'.fillsUpto t := by
  obtain ⟨hwindow, ⟨capital, levels, risk, hasked, hgrid⟩, hsim⟩ :=
    BnbGridAgent.paper_eq_ok h
  obtain ⟨hwindow', ⟨capital', levels', risk', hasked', hgrid'⟩, hsim'⟩ :=
    BnbGridAgent.paper_eq_ok h'
  rw [hasked] at hasked'
  cases hasked'
  rw [hwindow] at hinside hsim
  rw [hwindow'] at hsim'
  obtain ⟨n, hn, hn'⟩ := a.simWindow_drop hx hy hlen hagree hinside
  rw [hn] at hsim
  rw [hn', ← hgas] at hsim'
  obtain ⟨s, hs, hfills⟩ := simulate_upto (t := t) (hx.drop n) hsim
  obtain ⟨s', hs', hfills'⟩ := simulate_upto (t := t) (hy.drop n) hsim'
  have hrows : upto (fun k => k.openTimeMs) t (d.calibKlines.drop n)
      = upto (fun k => k.openTimeMs) t (d'.calibKlines.drop n) := by
    rw [drop_upto hx, drop_upto hy, hagree]
  obtain ⟨hlower, hupper, hspacing⟩ := hband
  obtain ⟨factor, mid, atrV, -, -, -, -, -, rfl⟩ :=
    calibrateGrid_eq_ok_iff.1 hgrid
  obtain ⟨factor', mid', atrV', -, -, -, -, -, rfl⟩ :=
    calibrateGrid_eq_ok_iff.1 hgrid'
  have hlines : (gridFrom (d.calibKlines.map (·.close)) mid atrV factor
        capital levels risk).lines
      = (gridFrom (d'.calibKlines.map (·.close)) mid' atrV' factor'
        capital levels risk).lines :=
    congrArg₂ (fun lo hi => linspace lo hi (clampLevels levels)) hlower hupper
  have hstart : SimState.start (gridFrom (d.calibKlines.map (·.close)) mid
        atrV factor capital levels risk)
      = SimState.start (gridFrom (d'.calibKlines.map (·.close)) mid' atrV'
        factor' capital levels risk) := by
    rw [SimState.start, SimState.start, hlines]
    rfl
  rw [hrows, simLoop_same_grid ⟨hlower, hupper, hspacing⟩ hlines rfl rfl,
    hstart, hs'] at hs
  cases hs
  rw [hfills, hfills']

-- ==================================================== two histories, run

/-- A day of candles: around 600 until two in the afternoon, around `late`
from then on. -/
def afternoon (late lastOpen : ℚ) : List (Kline ℚ) :=
  (List.range 24).map fun (h : Nat) =>
    let close := if h < 14 then (if h % 2 = 0 then 599 else 601) else late
    { openTimeMs := (h : Int) * 3600000
      openPrice := if h = 23 then lastOpen else 600
      high := close + 2, low := close - 2, close := close, volume := 1 }

def afternoonWorld (late lastOpen : ℚ) : World ℚ :=
  { World.offline with
    gasPriceWei := .ok 1000000000
    spotPrice := fun _ => .ok 600
    readKlines := fun _ _ => .ok (afternoon late lastOpen) }

def pairInputs : Dict ℚ :=
  [("pair", .str "BNB-USDT"), ("capital_usd", .int 1000)]

def defaultAgent : BnbGridAgent ℚ := ⟨none, 30, 7, 25, 10⟩

theorem afternoon_ordered (late lastOpen : ℚ) :
    Ordered (fun k : Kline ℚ => k.openTimeMs) (afternoon late lastOpen) := by
  unfold Ordered afternoon
  rw [List.pairwise_map]
  apply List.Pairwise.imp ?_ List.pairwise_lt_range
  intro i j hij
  show (i : Int) * 3600000 ≤ (j : Int) * 3600000
  omega

/-- Two days with one morning: the fills of the morning are on other lines
when the afternoon is at 700. -/
theorem fills_move_with_later_candles :
    ∃ d d' grid grid' sim sim',
      defaultAgent.paper pairInputs (afternoonWorld 600 600)
          = .ok (d, grid, some sim)
      ∧ defaultAgent.paper pairInputs (afternoonWorld 700 700)
          = .ok (d', grid', some sim')
      ∧ d.gasUsdPerFill = d'.gasUsdPerFill
      ∧ d.calibKlines = afternoon 600 600
      ∧ d'.calibKlines = afternoon 700 700
      ∧ d.calibKlines.length = d'.calibKlines.length
      ∧ upto (fun k => k.openTimeMs) (13 * 3600000) d.calibKlines
        = upto (fun k => k.openTimeMs) (13 * 3600000) d'.calibKlines
      ∧ (∃ c ∈ d.simKlines, c.openTimeMs ≤ 13 * 3600000)
      ∧ sim.fillsUpto (13 * 3600000) ≠ sim'.fillsUpto (13 * 3600000) := by
  obtain ⟨⟨d, grid, o⟩, hrun, hrest⟩ := exists_of_okAnd
    (x := defaultAgent.paper pairInputs (afternoonWorld 600 600))
    (p := fun out => okAnd
      (defaultAgent.paper pairInputs (afternoonWorld 700 700)) fun out' =>
        out.2.2.any fun sim : SimResult ℚ =>
          out'.2.2.any fun sim' : SimResult ℚ => decide
            (out.1.gasUsdPerFill = out'.1.gasUsdPerFill
              ∧ out.1.calibKlines = afternoon 600 600
              ∧ out'.1.calibKlines = afternoon 700 700
              ∧ out.1.simKlines = afternoon 600 600
              ∧ (sim.fillsUpto (13 * 3600000)).map Fill.line
                ≠ (sim'.fillsUpto (13 * 3600000)).map Fill.line))
    (by decide +kernel)
  obtain ⟨⟨d', grid', o'⟩, hrun', hfacts⟩ := exists_of_okAnd hrest
  cases o with
  | none => cases hfacts
  | some sim =>
      cases o' with
      | none => cases hfacts
      | some sim' =>
          obtain ⟨hgas, hcalib, hcalib', hwindow, hlines⟩ :=
            of_decide_eq_true hfacts
          refine ⟨d, d', grid, grid', sim, sim', hrun, hrun', hgas, hcalib,
            hcalib', ?_, ?_, ?_, ?_⟩
          · rw [hcalib, hcalib']
            rfl
          · rw [hcalib, hcalib']
            decide +kernel
          · rw [hwindow]
            exact ⟨_, List.mem_cons_self, by decide⟩
          · intro hsame
            exact hlines (congrArg (List.map Fill.line) hsame)

/-- Two days that differ in the opening price of the last hour. -/
theorem fills_upto_same_morning :
    ∃ d d' grid grid' sim sim',
      defaultAgent.paper pairInputs (afternoonWorld 600 600)
          = .ok (d, grid, some sim)
      ∧ defaultAgent.paper pairInputs (afternoonWorld 600 650)
          = .ok (d', grid', some sim')
      ∧ sim.fillsUpto (13 * 3600000) = sim'.fillsUpto (13 * 3600000) := by
  obtain ⟨⟨d, grid, o⟩, hrun, hrest⟩ := exists_of_okAnd
    (x := defaultAgent.paper pairInputs (afternoonWorld 600 600))
    (p := fun out => okAnd
      (defaultAgent.paper pairInputs (afternoonWorld 600 650)) fun out' =>
        out.2.2.isSome && out'.2.2.isSome && decide
          (out.1.gasUsdPerFill = out'.1.gasUsdPerFill
            ∧ out.1.calibKlines = afternoon 600 600
            ∧ out'.1.calibKlines = afternoon 600 650
            ∧ out.1.simKlines = afternoon 600 600
            ∧ out.2.1.lower = out'.2.1.lower
            ∧ out.2.1.upper = out'.2.1.upper
            ∧ out.2.1.spacingFrac = out'.2.1.spacingFrac))
    (by decide +kernel)
  obtain ⟨⟨d', grid', o'⟩, hrun', hfacts⟩ := exists_of_okAnd hrest
  simp only [Bool.and_eq_true, Option.isSome_iff_exists,
    decide_eq_true_eq] at hfacts
  obtain ⟨⟨⟨sim, rfl⟩, sim', rfl⟩, hgas, hcalib, hcalib', hwindow, hlower,
    hupper, hspacing⟩ := hfacts
  refine ⟨d, d', grid, grid', sim, sim', hrun, hrun', ?_⟩
  apply fills_upto_same hrun hrun' hgas
  · rw [hcalib]
    exact afternoon_ordered 600 600
  · rw [hcalib']
    exact afternoon_ordered 600 650
  · rw [hcalib, hcalib']
    rfl
  · rw [hcalib, hcalib']
    decide +kernel
  · rw [hwindow]
    exact ⟨_, List.mem_cons_self, by decide⟩
  · exact ⟨hlower, hupper, hspacing⟩

end Proofstand.BnbGrid
