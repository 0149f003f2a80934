/-
Whose prices a Venus account is stressed with.

The market is looked up for the largest supply of all, and what has no
market is given BNB's. Stables have none (`stable_unmapped`), so an
account whose largest supply is a stable is stressed with BNB's prices
whatever else it holds, and so is one whose largest supply is volatile
but not in the table. The prices are the account's own exactly when its
largest volatile collateral is vBNB, or is in the table and no stable
supply comes before it (`observe_own_asset_iff`).

# First of the greatest

`observe()` keeps the market with the largest supply by a fold that a
later, equal supply does not displace, so the dominant market is the
first of the greatest (`dominantCollateral_firstBest`), and the largest
volatile one is the first of the greatest among those that are no stables.
The two are one market wherever the dominant one is volatile.

# Both directions

Where the table has the dominant market, its own prices are replayed. All
else is given BNB's, and BNB's prices are an account's own only if vBNB is
the collateral in question. The table has no stable and one market with
BNB's pair, and the two facts (`stable_unmapped`, `vbnb_of_lookup`) are
decided over it.
-/
import Proofstand.Agents.Proofs.Observe
import Proofstand.Lib.Ranking

namespace Proofstand.VenusGuard

open Calibrate Fallible Ranking

variable {K : Type} [Field K] [LinearOrder K]

-- ================================================ statement vocabulary

/-- The markets the account supplies to. -/
def supplied (h : AccountHealth K) : List (MarketPosition K) :=
  h.markets.filter fun m => 0 < m.supplyUsd

/-- Those that are no stables. -/
def volatile (h : AccountHealth K) : List (MarketPosition K) :=
  (supplied h).filter fun m => !stableVsymbols.contains m.symbol

/-- The largest volatile collateral by USD supply, of equals the first. -/
def LargestVolatile (h : AccountHealth K) (v : MarketPosition K) : Prop :=
  FirstBest (fun m => m.supplyUsd) v (volatile h)

/-- The prices observed, replayed and measured are those of a market. -/
def Replays [FloorRing K] (a : VenusGuardAgent K) (lib : Libm K)
    (w : World K) (d : Data K) (pair : String) : Prop :=
  d.stressPair = pair
    ∧ ∃ kl, w.getKlines pair (a.stressDays * 24)
        (PyVal.truncate ((w.now - a.stressDays * 86400) * 1000)) = .ok kl
      ∧ realizedVol lib (kl.map (·.close)) 720 = .ok d.volAnnual
      ∧ worstDrawdownPath (kl.map (·.close))
        = .ok (d.ratioPath, d.stressDdStartIdx, d.stressWorstDrawdown)

/-- The account is stressed with the prices of its largest volatile
collateral, which has a market. -/
def StressesOwn [FloorRing K] (a : VenusGuardAgent K) (lib : Libm K)
    (w : World K) (h : AccountHealth K) (d : Data K) : Prop :=
  ∃ v pair, LargestVolatile h v
    ∧ vsymbolToBinance.lookup v.symbol = some pair ∧ Replays a lib w d pair

-- ============================================== which market is looked up

omit [Field K] in
/-- From a first market on, the dominant collateral is one that only a
larger supply replaces. -/
theorem dominant_foldl (best : MarketPosition K)
    (ms : List (MarketPosition K)) :
    ms.foldl (fun best m =>
        match best with
        | none => some m
        | some b => if b.supplyUsd < m.supplyUsd then some m else some b)
      (some best)
      = some (ms.foldl (fun best m =>
        if best.supplyUsd < m.supplyUsd then m else best) best) := by
  induction ms generalizing best with
  | nil => rfl
  | cons m ms ih =>
      rw [List.foldl_cons, List.foldl_cons]
      dsimp only
      split
      · exact ih m
      · exact ih best

/-- The dominant collateral is the first of the largest supplies. -/
theorem dominantCollateral_firstBest {h : AccountHealth K}
    {dom : MarketPosition K} (hdom : h.dominantCollateral = some dom) :
    FirstBest (fun m => m.supplyUsd) dom (supplied h) := by
  unfold AccountHealth.dominantCollateral at hdom
  change (supplied h).foldl _ none = some dom at hdom
  cases hms : supplied h with
  | nil =>
      rw [hms] at hdom
      cases hdom
  | cons m ms =>
      rw [hms, List.foldl_cons] at hdom
      cases (dominant_foldl m ms).symm.trans hdom
      exact foldl_firstBest m ms

theorem stable_unmapped : ∀ s ∈ stableVsymbols,
    vsymbolToBinance.lookup s = none := by
  decide

/-- BNB's market is vBNB's only. -/
theorem vbnb_of_lookup {s : String}
    (h : vsymbolToBinance.lookup s = some "BNB-USDT") : s = "vBNB" := by
  have honly : ∀ p ∈ vsymbolToBinance, p.2 = "BNB-USDT" → p.1 = "vBNB" := by
    decide
  obtain ⟨l, r, hsplit, -⟩ := List.lookup_eq_some_iff.1 h
  refine honly (s, "BNB-USDT") ?_ rfl
  rw [hsplit]
  simp

/-- A dominant collateral that is no stable is the largest volatile one. -/
theorem dominant_of_volatile {h : AccountHealth K} {dom v : MarketPosition K}
    (hdom : FirstBest (fun m => m.supplyUsd) dom (supplied h))
    (hvolatile : stableVsymbols.contains dom.symbol = false)
    (hv : LargestVolatile h v) : dom = v :=
  (hdom.filter (by rw [hvolatile]; rfl)).unique hv

-- ====================================================== what was observed

variable [FloorRing K] {a : VenusGuardAgent K} {lib : Libm K}
  {s s' : State K} {inputs : Dict K} {w : World K} {d : Data K}
  {health : AccountHealth K}

/-- An observation is of the market of the dominant collateral, or else
of BNB's. -/
theorem observe_replays (h : a.observe lib s inputs w = .ok (d, s'))
    (hhealth : w.accountHealth d.account = .ok health) :
    ∃ dom, health.dominantCollateral = some dom
      ∧ Replays a lib w d
        ((vsymbolToBinance.lookup dom.symbol).getD "BNB-USDT") := by
  unfold VenusGuardAgent.observe at h
  obtain ⟨account, -, h⟩ := bind_eq_ok.1 h
  obtain ⟨health', hread, h⟩ := bind_eq_ok.1 h
  split at h
  · cases h
  · simp only at h
    split at h
    · cases h
    · cases hdom : health'.dominantCollateral with
      | none =>
          rw [hdom] at h
          cases h
      | some dom =>
          rw [hdom] at h
          obtain ⟨kl, hkl, h⟩ := bind_eq_ok.1 h
          obtain ⟨vol, hvol, h⟩ := bind_eq_ok.1 h
          obtain ⟨⟨path, start, dd⟩, hpath, h⟩ := bind_eq_ok.1 h
          obtain ⟨price, -, h⟩ := bind_eq_ok.1 h
          obtain ⟨amount, -, h⟩ := bind_eq_ok.1 h
          obtain ⟨buffer, -, h⟩ := bind_eq_ok.1 h
          obtain ⟨mantissa, -, h⟩ := bind_eq_ok.1 h
          cases h
          rw [Live.read_eq_ok.1 hread] at hhealth
          cases hhealth
          exact ⟨dom, hdom, rfl, kl, Live.read_eq_ok.1 hkl, hvol, hpath⟩

/-- The account is stressed with its own asset exactly when its largest
volatile collateral is vBNB, or has a market and is the largest supply of
all. -/
theorem observe_own_asset_iff (h : a.observe lib s inputs w = .ok (d, s'))
    (hhealth : w.accountHealth d.account = .ok health) :
    StressesOwn a lib w health d
      ↔ ∃ v, LargestVolatile health v
        ∧ (v.symbol = "vBNB"
          ∨ (vsymbolToBinance.lookup v.symbol).isSome
            ∧ FirstBest (fun m => m.supplyUsd) v (supplied health)) := by
  obtain ⟨dom, hdom, hreplays⟩ := observe_replays h hhealth
  have hbest := dominantCollateral_firstBest hdom
  have hbnb : stableVsymbols.contains dom.symbol = true →
      Replays a lib w d "BNB-USDT" := by
    intro hstable
    rw [stable_unmapped dom.symbol (List.contains_iff_mem.1 hstable)]
      at hreplays
    exact hreplays
  constructor
  · intro h
    obtain ⟨v, pair, hv, hpair, hreplayed⟩ := h
    refine ⟨v, hv, ?_⟩
    cases hstable : stableVsymbols.contains dom.symbol with
    | true =>
        left
        apply vbnb_of_lookup
        rw [hpair, ← hreplayed.1, ← (hbnb hstable).1]
    | false =>
        right
        obtain rfl := dominant_of_volatile hbest hstable hv
        refine ⟨?_, hbest⟩
        rw [hpair]
        rfl
  · intro h
    obtain ⟨v, hv, hcase⟩ := h
    cases hstable : stableVsymbols.contains dom.symbol with
    | true =>
        rcases hcase with hvbnb | ⟨-, hfirst⟩
        · refine ⟨v, "BNB-USDT", hv, ?_, hbnb hstable⟩
          rw [hvbnb]
          decide
        · -- `v` would be the dominant collateral, and a stable
          obtain rfl := hbest.unique hfirst
          have hvolatile := (List.mem_filter.1 hv.mem).2
          rw [hstable] at hvolatile
          cases hvolatile
    | false =>
        obtain rfl := dominant_of_volatile hbest hstable hv
        have hmapped : ∃ pair,
            vsymbolToBinance.lookup dom.symbol = some pair := by
          rcases hcase with hvbnb | ⟨hsome, -⟩
          · rw [hvbnb]
            exact ⟨"BNB-USDT", by decide⟩
          · exact Option.isSome_iff_exists.1 hsome
        obtain ⟨pair, hpair⟩ := hmapped
        rw [hpair] at hreplays
        exact ⟨dom, pair, hv, hpair, hreplays⟩

-- ======================================================== three accounts

/-- Three flat candles of every market, and one account. -/
def flatWorld (markets : List (MarketPosition ℚ)) : World ℚ :=
  let candle : Kline ℚ :=
    { openTimeMs := 0, openPrice := 1, high := 1, low := 1, close := 1,
      volume := 1 }
  { World.offline with
    getKlines := fun _ _ _ => .ok [candle, candle, candle]
    accountHealth := fun _ => .ok
      { markets := markets
        totalSupplyUsd := 11000
        totalBorrowUsd := 1000
        collateralAdjustedUsd := 8800
        liquidityUsd := 7800 }
    closeFactorMantissa := .ok (5 * 10 ^ 17) }

def usdtOver (symbol : String) : List (MarketPosition ℚ) :=
  [⟨"vUSDT", 4 / 5, 6000⟩, ⟨symbol, 4 / 5, 5000⟩]

/-- What the guard observes of the account of some markets. -/
def observed (markets : List (MarketPosition ℚ)) :
    Py (Data ℚ × State ℚ) :=
  VenusGuardAgent.observe ⟨0, 6, 365, 1 / 20⟩ ratMath ⟨none, none, none⟩
    [("account", .str "0xaa"), ("buffer_amount", .int 50)]
    (flatWorld markets)

/-- An account is stressed with a market that is not its own. -/
def StressedWith (markets : List (MarketPosition ℚ)) (pair : String) :
    Prop :=
  ∃ d s health, observed markets = .ok (d, s)
    ∧ (flatWorld markets).accountHealth d.account = .ok health
    ∧ d.stressPair = pair
    ∧ ¬ StressesOwn ⟨0, 6, 365, 1 / 20⟩ ratMath (flatWorld markets) health d

/-- With one volatile market, a stress pair that is not its own is another's. -/
theorem stressedWith_of {markets : List (MarketPosition ℚ)} {pair : String}
    {v : MarketPosition ℚ}
    (hrun : okAnd (observed markets) (fun r =>
      decide (r.1.stressPair = pair)) = true)
    (hv : (markets.filter fun m => 0 < m.supplyUsd).filter
      (fun m => !stableVsymbols.contains m.symbol) = [v])
    (hpair : vsymbolToBinance.lookup v.symbol ≠ some pair) :
    StressedWith markets pair := by
  obtain ⟨⟨d, s⟩, hobserved, hsays⟩ := exists_of_okAnd hrun
  have hstress : d.stressPair = pair := of_decide_eq_true hsays
  refine ⟨d, s, _, hobserved, rfl, hstress, ?_⟩
  intro h
  obtain ⟨v', pair', hlargest, hlookup, hreplays⟩ := h
  unfold LargestVolatile volatile supplied at hlargest
  rw [hv] at hlargest
  have heq : v' = v := by simpa using hlargest.mem
  rw [← hreplays.1, hstress, heq] at hlookup
  exact hpair hlookup

/-- An account of ETH with more of a stable, and one of a market that is
not in the table: both are stressed with the prices of BNB, which neither
holds. -/
theorem stressed_with_bnb :
    StressedWith (usdtOver "vETH") "BNB-USDT"
      ∧ StressedWith [⟨"vUNI", 4 / 5, 5000⟩] "BNB-USDT" := by
  constructor
  · exact stressedWith_of (v := ⟨"vETH", 4 / 5, 5000⟩) (by decide +kernel)
      (by decide +kernel) (by decide)
  · exact stressedWith_of (v := ⟨"vUNI", 4 / 5, 5000⟩) (by decide +kernel)
      (by decide +kernel) (by decide)

/-- An account with vBNB is stressed with BNB's own candles. -/
theorem observe_own_asset_vbnb :
    ∃ d s health, observed (usdtOver "vBNB") = .ok (d, s)
      ∧ (flatWorld (usdtOver "vBNB")).accountHealth d.account = .ok health
      ∧ StressesOwn ⟨0, 6, 365, 1 / 20⟩ ratMath
        (flatWorld (usdtOver "vBNB")) health d := by
  obtain ⟨⟨d, s⟩, hobserved, -⟩ := exists_of_okAnd
    (x := observed (usdtOver "vBNB")) (p := fun _ => true)
    (by decide +kernel)
  have hlargest : (supplied ⟨usdtOver "vBNB", 11000, 1000, 8800, 7800⟩).filter
      (fun m => !stableVsymbols.contains m.symbol)
        = [⟨"vBNB", 4 / 5, 5000⟩] := by
    decide +kernel
  refine ⟨d, s, _, hobserved, rfl,
    (observe_own_asset_iff hobserved rfl).2
      ⟨⟨"vBNB", 4 / 5, 5000⟩, ?_, Or.inl rfl⟩⟩
  unfold LargestVolatile volatile
  rw [hlargest]
  exact .here nofun

end Proofstand.VenusGuard
