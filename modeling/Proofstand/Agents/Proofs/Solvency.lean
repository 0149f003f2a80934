/-
Where the paper ledger can spend money it does not have.

A buy is made when the cash covers the slot's size, and takes the size,
its fee and the gas. `Covered` says of one turn that what it takes is
there; the ledgers of a replay stay out of debt exactly when every turn
it comes to is covered (`comesTo_cash_iff`).

Which grids are safe whatever the market does is a matter of slack: one
slot of a grid of `n` lines is never bought, so its size has to carry the
fees and the gas of the other `n - 1` (`Funded`), and no round trip
between neighbouring lines may lose money.

# Turns instead of candles

Whether a buy is affordable depends on the cash in the middle of a candle,
so runs are taken apart down to the turn of one slot: `ComesTo` reaches
every ledger with which some turn is met, and `comesTo_keeps` is its
induction rule. The exact condition is then local: every turn that is
reached is covered. It says nothing about which markets reach such turns.

# Slack

For the other direction a sufficient condition on the inputs is given:
between neighbouring lines nothing is lost, and one slot's size pays the
fees and the gas of all others. `Funded` carries it, because a ledger that
never loses on a round trip has at least its capital in cash and open
cost, and there is one size more than there are slots.
-/
import Proofstand.Agents.Proofs.Calibration
import Proofstand.Agents.Proofs.Ledger

namespace Proofstand.BnbGrid

open Fallible Cells Calibrate

variable {K : Type} [Field K] [LinearOrder K]

-- ============================================================= the turns

/-- One slot's turn in a candle. -/
inductive Turn
  | buy (i : Nat)
  | sell (i : Nat)

/-- The turns of a candle, in the order they are taken. -/
def turns (grid : GridConfig K) : List Turn :=
  (List.range (grid.lines.length - 1)).map .buy
    ++ (List.range (grid.lines.length - 1)).map .sell

def turn (p : SimParams K) (grid : GridConfig K) (idx : Nat) (r : Kline K)
    (s : SimState K) : Turn → Py (SimState K)
  | .buy i => buyAt p grid idx r s i
  | .sell i => .ok (sellAt p grid idx r s i)

/-- A candle's trades are its turns, one after the other. -/
theorem trades_eq_turns (p : SimParams K) (grid : GridConfig K) (idx : Nat)
    (r : Kline K) (s : SimState K) :
    trades p grid idx r s = (turns grid).foldlM (turn p grid idx r) s := by
  have hsells : ∀ (l : List Nat) (t : SimState K),
      (l.map Turn.sell).foldlM (turn p grid idx r) t
        = .ok (l.foldl (sellAt p grid idx r) t) := by
    intro l
    induction l with
    | nil => intro t; rfl
    | cons i l ih =>
        intro t
        rw [List.map_cons, List.foldlM_cons, List.foldl_cons]
        exact ih _
  have hbuys : ∀ (l : List Nat) (t : SimState K),
      (l.map Turn.buy).foldlM (turn p grid idx r) t
        = l.foldlM (buyAt p grid idx r) t := by
    intro l
    induction l with
    | nil => intro t; rfl
    | cons i l ih =>
        intro t
        rw [List.map_cons, List.foldlM_cons, List.foldlM_cons]
        exact bind_congr ih
  unfold trades turns
  rw [List.foldlM_append, hbuys]
  apply bind_congr
  intro t
  exact (hsells _ t).symm

/-- The ledger with which a replay comes to turn `k` of candle `n`; after
the last turn, to the mark. -/
def ComesTo (p : SimParams K) (grid : GridConfig K) (rows : List (Kline K))
    (n k : Nat) (r : Kline K) (t : SimState K) : Prop :=
  rows[n]? = some r ∧ ∃ s, simLoop p grid 0 (SimState.start grid) (rows.take n)
      = .ok s ∧ s.halted = none
    ∧ ((turns grid).take k).foldlM (turn p grid n r) s = .ok t

variable {p : SimParams K} {grid : GridConfig K} {rows : List (Kline K)}

/-- A turn taken comes to the next. -/
theorem ComesTo.next {n k : Nat} {r : Kline K} {t t' : SimState K} {u : Turn}
    (h : ComesTo p grid rows n k r t) (hu : (turns grid)[k]? = some u)
    (hturn : turn p grid n r t u = .ok t') :
    ComesTo p grid rows n (k + 1) r t' := by
  obtain ⟨hr, s, hs, hgoing, ht⟩ := h
  refine ⟨hr, s, hs, hgoing, ?_⟩
  rw [List.take_add_one, hu, List.foldlM_append, ht, ok_bind]
  simp [hturn]

/-- What the start has and every turn and every mark keep, every ledger
that the replay comes to a turn with has. -/
theorem comesTo_keeps {P : SimState K → Prop} (hstart : P (SimState.start grid))
    (hturn : ∀ n k r t u t', ComesTo p grid rows n k r t →
      (turns grid)[k]? = some u → P t → turn p grid n r t u = .ok t' → P t')
    (hmark : ∀ r t t', P t → mark p grid r t = .ok t' → P t')
    {n k : Nat} {r : Kline K} {t : SimState K}
    (h : ComesTo p grid rows n k r t) : P t := by
  -- from the ledger a candle starts with, turn by turn
  have hwithin : ∀ n r s, rows[n]? = some r →
      simLoop p grid 0 (SimState.start grid) (rows.take n) = .ok s →
      s.halted = none → P s → ∀ k t,
        ((turns grid).take k).foldlM (turn p grid n r) s = .ok t → P t := by
    intro n r s hr hs hgoing hP k t ht
    rw [List.take_eq_take_min] at ht
    apply foldlM_take_keeps (P := fun _ t => P t) hP ?_ (min_le_right _ _) ht
    intro k u t t' hu ht hkept hstep
    exact hturn n k r t u t' ⟨hr, s, hs, hgoing, ht⟩ hu hkept hstep
  -- and from the start of the replay, candle by candle
  have hreach : ∀ n, n ≤ rows.length → ∀ s,
      simLoop p grid 0 (SimState.start grid) (rows.take n) = .ok s →
      s.halted = none → P s := by
    intro n
    induction n with
    | zero =>
        intro _ s hs _
        cases hs
        exact hstart
    | succ n ih =>
        intro hn s hs hgoing
        have hr : rows[n]? = some rows[n] := List.getElem?_eq_getElem hn
        rw [List.take_add_one, hr, simLoop_append _ _ rfl] at hs
        obtain ⟨s₀, hs₀, hrest⟩ := bind_eq_ok.1 hs
        split at hrest
        case isTrue hhalt =>
            cases hrest
            rw [hgoing] at hhalt
            cases hhalt
        case isFalse hgoing₀ =>
            have hs₀going : s₀.halted = none := by simpa using hgoing₀
            obtain ⟨s₁, hcandle, hlast⟩ := bind_eq_ok.1 hrest
            have hs₁ : s₁ = s := by
              split at hlast
              · cases hlast
                rfl
              · cases hlast
                rfl
            subst hs₁
            rw [List.length_take_of_le (by omega), Nat.zero_add] at hcandle
            obtain ⟨t, htrades, hmarked⟩ := candle_eq_ok hcandle
            rw [trades_eq_turns, ← List.take_length (l := turns grid)]
              at htrades
            apply hmark rows[n] t s₁ ?_ hmarked
            exact hwithin n rows[n] s₀ hr hs₀ hs₀going
              (ih (by omega) s₀ hs₀ hs₀going) _ t htrades
  obtain ⟨hr, s, hs, hgoing, ht⟩ := h
  have hn : n ≤ rows.length := (List.getElem?_eq_some_iff.1 hr).1.le
  exact hwithin n r s hr hs hgoing (hreach n hn s hs hgoing) k t ht

-- ==================================================== what a turn takes

/-- What a buy costs. -/
def buyCost (p : SimParams K) (grid : GridConfig K) : K :=
  grid.sizeUsdPerLevel + grid.sizeUsdPerLevel * p.fee + p.gasUsdPerFill

/-- What the sale of a lot at a line brings, its fee and gas paid. -/
def saleNet (p : SimParams K) (qty line : K) : K :=
  let proceeds := qty * (line * (1 - p.slip))
  proceeds - proceeds * p.fee - p.gasUsdPerFill

/-- The cash at hand covers what the turn takes: where a buy passes the
test of the slot's size it also covers the fee and the gas, and a sale
that brings less than its fee and gas finds the rest. -/
def Covered (p : SimParams K) (grid : GridConfig K) (n : Nat) (r : Kline K)
    (t : SimState K) : Turn → Prop
  | .buy i => ∀ line, Buys p grid r t i line → buyCost p grid ≤ t.cash
  | .sell i => ∀ slot line, Sells grid n r t i slot line →
      0 ≤ t.cash + saleNet p slot.qty line

variable [IsStrictOrderedRing K]

/-- The cash is never negative after a fill exactly when every turn that
the replay comes to is covered. -/
theorem comesTo_cash_iff (p : SimParams K) (grid : GridConfig K)
    (rows : List (Kline K)) :
    (∀ n k r t, ComesTo p grid rows n k r t → t.fills ≠ [] → 0 ≤ t.cash)
      ↔ ∀ n k r t u, ComesTo p grid rows n k r t →
          (turns grid)[k]? = some u → Covered p grid n r t u := by
  constructor
  · intro hcash n k r t u ht hu
    cases u with
    | buy i =>
        intro line hbuys
        have hafter := hcash n (k + 1) r _ (ht.next hu (hbuys.buyAt n))
          (by simp [SimState.bought])
        simp only [SimState.bought] at hafter
        unfold buyCost
        linarith
    | sell i =>
        intro slot line hsells
        have hturn : turn p grid n r t (.sell i)
            = .ok (t.sold p n r i line slot) := by
          rw [turn, hsells.sellAt p]
        have hafter := hcash n (k + 1) r _ (ht.next hu hturn)
          (by simp [SimState.sold])
        simpa only [SimState.sold, saleNet] using hafter
  · intro hcovered n k r t ht
    apply comesTo_keeps (P := fun t => t.fills ≠ [] → 0 ≤ t.cash) ?_ ?_ ?_ ht
    · intro hfills
      exact absurd rfl hfills
    · intro n k r t u t' ht hu hcash hturn
      have hcov := hcovered n k r t u ht hu
      cases u with
      | buy i =>
          rcases buyAt_eq_ok hturn with rfl | ⟨line, hbuys, rfl⟩
          · exact hcash
          · intro _
            have hcost := hcov line hbuys
            unfold buyCost at hcost
            simp only [SimState.bought]
            linarith
      | sell i =>
          cases hturn
          rcases sellAt_eq p grid n r t i with heq | ⟨slot, line, hsells, heq⟩
          · rw [heq]
            exact hcash
          · intro _
            rw [heq]
            simpa only [SimState.sold, saleNet] using hcov slot line hsells
    · intro r t t' hcash hmark
      obtain ⟨-, rfl⟩ := mark_eq_ok hmark
      exact hcash

-- ================================================================ slack

/-- The cash and the cost of the open slots are at least the capital, and
an open slot holds what its line's buy bought. -/
structure Funded (p : SimParams K) (grid : GridConfig K) (s : SimState K) :
    Prop where
  slots : s.slots.length = grid.lines.length - 1
  lots : ∀ (i : Nat) (slot : Slot K), s.slots[i]? = some (some slot) →
    slot.costBasis = buyCost p grid ∧ ∃ line, grid.lines[i]? = some line
      ∧ slot.qty = grid.sizeUsdPerLevel / (line * (1 + p.slip))
  cash : grid.capitalUsd ≤ s.cash + s.slots.reduceOption.length
    * buyCost p grid

/-- No round trip between neighbouring lines loses money. -/
def NoLoss (p : SimParams K) (grid : GridConfig K) : Prop :=
  ∀ q ∈ grid.lines.zip grid.lines.tail, buyCost p grid
    ≤ saleNet p (grid.sizeUsdPerLevel / (q.1 * (1 + p.slip))) q.2

instance (p : SimParams K) (grid : GridConfig K) :
    Decidable (NoLoss p grid) :=
  inferInstanceAs (Decidable (∀ q ∈ grid.lines.zip grid.lines.tail, _))

omit [IsStrictOrderedRing K] in
/-- Selling at the line above a bought one brings back what the buy cost. -/
theorem NoLoss.of_lines {lo hi : K} {i : Nat} (h : NoLoss p grid)
    (hlo : grid.lines[i]? = some lo) (hhi : grid.lines[i + 1]? = some hi) :
    buyCost p grid
      ≤ saleNet p (grid.sizeUsdPerLevel / (lo * (1 + p.slip))) hi := by
  apply h (lo, hi)
  apply List.mem_of_getElem? (i := i)
  rw [List.getElem?_zip_eq_some, List.getElem?_tail]
  exact ⟨hlo, hhi⟩

theorem funded_start (p : SimParams K) (grid : GridConfig K) :
    Funded p grid (SimState.start grid) := by
  refine ⟨by simp [SimState.start], ?_, ?_⟩
  · intro i slot hslot
    have hmem : some slot ∈ List.replicate (grid.lines.length - 1) none :=
      List.mem_of_getElem? hslot
    cases List.eq_of_mem_replicate hmem
  · simp [SimState.start, List.reduceOption]

variable {idx : Nat} {r : Kline K} {s : SimState K}

theorem funded_bought {i : Nat} {line : K} (hs : Funded p grid s)
    (hi : i < s.slots.length) (hbuys : Buys p grid r s i line) :
    Funded p grid (s.bought p grid idx r i line
      (grid.sizeUsdPerLevel / (line * (1 + p.slip)))) := by
  have hempty : s.slots[i]? = some none := getElem?_of_getD hi hbuys.empty
  refine ⟨by simp [SimState.bought, hs.slots], ?_, ?_⟩
  · intro j slot hslot
    simp only [SimState.bought, List.getElem?_set] at hslot
    split at hslot
    case isTrue hij =>
        subst hij
        cases hslot
        exact ⟨rfl, line, hbuys.atLine, rfl⟩
    case isFalse => exact hs.lots j slot hslot
  · have hcash := hs.cash
    simp only [SimState.bought, length_fill hempty]
    push_cast
    unfold buyCost at hcash ⊢
    linarith

theorem funded_sold {i : Nat} {slot : Slot K} {line : K}
    (hnoLoss : NoLoss p grid) (hs : Funded p grid s)
    (hi : i < s.slots.length) (hsells : Sells grid idx r s i slot line) :
    Funded p grid (s.sold p idx r i line slot) := by
  have hheld : s.slots[i]? = some (some slot) :=
    getElem?_of_getD hi hsells.held
  obtain ⟨-, lo, hlo, hqty⟩ := hs.lots i slot hheld
  have hnet := hnoLoss.of_lines hlo hsells.atLine
  rw [← hqty] at hnet
  refine ⟨by simp [SimState.sold, hs.slots], ?_, ?_⟩
  · intro j slot' hslot'
    simp only [SimState.sold, List.getElem?_set] at hslot'
    split at hslot'
    case isTrue hij =>
        subst hij
        cases hslot'
    case isFalse => exact hs.lots j slot' hslot'
  · have hcash := hs.cash
    rw [length_drain hheld] at hcash
    push_cast at hcash
    simp only [SimState.sold]
    simp only [saleNet] at hnet
    linarith

/-- Where no round trip loses, every ledger of a replay is funded. -/
theorem comesTo_funded (hnoLoss : NoLoss p grid) {n k : Nat} {r : Kline K}
    {t : SimState K} (h : ComesTo p grid rows n k r t) : Funded p grid t := by
  have hslot : ∀ {k : Nat} {i : Nat} {u : Turn}, (turns grid)[k]? = some u →
      u = .buy i ∨ u = .sell i → i < grid.lines.length - 1 := by
    intro k i u hu hof
    have hmem : u ∈ turns grid := List.mem_of_getElem? hu
    rcases hof with rfl | rfl
    · simpa [turns] using hmem
    · simpa [turns] using hmem
  apply comesTo_keeps (funded_start p grid) ?_ ?_ h
  · intro n k r t u t' _ hu ht hturn
    cases u with
    | buy i =>
        have hi : i < t.slots.length := by
          rw [ht.slots]
          exact hslot hu (Or.inl rfl)
        rcases buyAt_eq_ok hturn with rfl | ⟨line, hbuys, rfl⟩
        · exact ht
        · exact funded_bought ht hi hbuys
    | sell i =>
        have hi : i < t.slots.length := by
          rw [ht.slots]
          exact hslot hu (Or.inr rfl)
        cases hturn
        rcases sellAt_eq p grid n r t i with heq | ⟨slot, line, hsells, heq⟩
        · rw [heq]
          exact ht
        · rw [heq]
          exact funded_sold hnoLoss ht hi hsells
  · intro r t t' ht hmark
    obtain ⟨-, rfl⟩ := mark_eq_ok hmark
    exact ⟨ht.slots, ht.lots, ht.cash⟩

/-- One slot's size carries the fees and the gas of all the others. -/
theorem comesTo_cash_nonneg (hnoLoss : NoLoss p grid)
    (hcapital : 0 ≤ grid.capitalUsd) {levels : Nat} (hlevels : 0 < levels)
    (hlines : grid.lines.length = levels)
    (hsize : grid.sizeUsdPerLevel = grid.capitalUsd / levels)
    (hslack : (levels - 1 : K)
      * (grid.sizeUsdPerLevel * p.fee + p.gasUsdPerFill)
        ≤ grid.sizeUsdPerLevel)
    {n k : Nat} {r : Kline K} {t : SimState K}
    (h : ComesTo p grid rows n k r t) : 0 ≤ t.cash := by
  have hfunded : Funded p grid t := comesTo_funded hnoLoss h
  have hcash := hfunded.cash
  have hpos : (0 : K) < levels := by exact_mod_cast hlevels
  have hall : grid.capitalUsd = levels * grid.sizeUsdPerLevel := by
    rw [hsize]
    field_simp
  have hopen : (t.slots.reduceOption.length : K) ≤ levels - 1 := by
    have hle := List.reduceOption_length_le t.slots
    rw [hfunded.slots, hlines] at hle
    have hle' : t.slots.reduceOption.length + 1 ≤ levels := by omega
    have hcast : (t.slots.reduceOption.length : K) + 1 ≤ levels := by
      exact_mod_cast hle'
    linarith
  have hmin : (0 : K) ≤ t.slots.reduceOption.length := Nat.cast_nonneg _
  rcases le_total 0 (buyCost p grid) with hcost | hcost
  · have hspent := mul_le_mul_of_nonneg_right hopen hcost
    have hsum : (levels - 1 : K) * buyCost p grid
        = (levels - 1 : K) * grid.sizeUsdPerLevel + (levels - 1 : K)
          * (grid.sizeUsdPerLevel * p.fee + p.gasUsdPerFill) := by
      unfold buyCost
      ring
    linarith
  · have hspent := mul_nonpos_of_nonneg_of_nonpos hmin hcost
    linarith

/-- On every calibrated grid and every candle path the cash is never
negative after a fill exactly when every turn the replay comes to is
covered; and it is, whatever the path, where the size of one level
carries the fees and the gas of the others and no round trip loses. -/
theorem cash_nonneg_iff {klines : List (Kline K)} {capitalUsd : K}
    {userLevels : Int} {risk : String}
    (hgrid : calibrateGrid klines capitalUsd userLevels risk = .ok grid)
    (p : SimParams K) (rows : List (Kline K)) :
    ((∀ n k r t, ComesTo p grid rows n k r t → t.fills ≠ [] → 0 ≤ t.cash)
      ↔ ∀ n k r t u, ComesTo p grid rows n k r t →
          (turns grid)[k]? = some u → Covered p grid n r t u)
    ∧ (0 ≤ capitalUsd → (grid.levels - 1 : K)
          * (grid.sizeUsdPerLevel * p.fee + p.gasUsdPerFill)
        ≤ grid.sizeUsdPerLevel → NoLoss p grid →
        ∀ n k r t, ComesTo p grid rows n k r t → 0 ≤ t.cash) := by
  obtain ⟨hlevels, hlines, hcapital, hsize⟩ := calibrateGrid_lines hgrid
  refine ⟨comesTo_cash_iff p grid rows, ?_⟩
  intro hnonneg hslack hnoLoss n k r t ht
  rw [← hcapital] at hnonneg
  exact comesTo_cash_nonneg hnoLoss hnonneg hlevels hlines hsize hslack ht

-- =========================================================== one replay

/-- A day of rising hours, the last of them back in the middle. -/
def risingDay : List (Kline ℚ) :=
  (List.range 20).map fun (hour : Nat) =>
    let close : ℚ := if hour = 19 then 619 else 600 + 2 * hour
    flatCandle hour (close - 1) (close + 1) close

/-- A candle that falls to 600 and comes back to 619. -/
def plunge : Kline ℚ := flatCandle 20 600 619 619

/-- Gas at 5.4 cents a fill, a fee of 25 bps, no slippage. -/
def thinParams : SimParams ℚ := ⟨27 / 500, 25, 0, 5⟩

/-- Fifty dollars over thirty levels: the plunge through all the lines
makes a twenty-ninth buy out of $1.70 that costs $1.72. -/
theorem cash_negative_plunge :
    ∃ (grid : GridConfig ℚ) (t : SimState ℚ),
      calibrateGrid risingDay 50 30 "balanced" = .ok grid
      ∧ 0 ≤ thinParams.gasUsdPerFill
      ∧ ComesTo thinParams grid [plunge] 0 29 plunge t
      ∧ t.fills ≠ [] ∧ t.cash < 0 := by
  obtain ⟨q, hq, hfacts⟩ := exists_of_okAnd
    (x := do
      let grid ← calibrateGrid risingDay 50 30 "balanced"
      let t ← ((turns grid).take 29).foldlM (turn thinParams grid 0 plunge)
        (SimState.start grid)
      pure (grid, t))
    (p := fun q => decide (0 < q.2.fills.length ∧ q.2.cash < 0))
    (by decide +kernel)
  obtain ⟨grid, hgrid, hq⟩ := bind_eq_ok.1 hq
  obtain ⟨t, ht, hq⟩ := bind_eq_ok.1 hq
  cases hq
  obtain ⟨hfills, hcash⟩ := of_decide_eq_true hfacts
  exact ⟨grid, t, hgrid, by decide +kernel, ⟨rfl, _, rfl, rfl, ht⟩,
    List.ne_nil_of_length_pos hfills, hcash⟩

/-- A thousand dollars over five levels of the same market never runs out,
and the plunge of the fifty dollars comes to a turn that is not
covered. -/
theorem cash_nonneg_iff_risingDay :
    (∃ grid : GridConfig ℚ,
      calibrateGrid risingDay 1000 5 "balanced" = .ok grid
      ∧ ∀ rows n k r t, ComesTo thinParams grid rows n k r t → 0 ≤ t.cash)
    ∧ ∃ grid : GridConfig ℚ,
      calibrateGrid risingDay 50 30 "balanced" = .ok grid
      ∧ ¬ ∀ n k r t u, ComesTo thinParams grid [plunge] n k r t →
          (turns grid)[k]? = some u → Covered thinParams grid n r t u := by
  constructor
  · obtain ⟨grid, hgrid, hfacts⟩ := exists_of_okAnd
      (x := calibrateGrid risingDay 1000 5 "balanced")
      (p := fun grid => decide ((grid.levels - 1 : ℚ)
          * (grid.sizeUsdPerLevel * thinParams.fee
            + thinParams.gasUsdPerFill) ≤ grid.sizeUsdPerLevel
        ∧ NoLoss thinParams grid))
      (by decide +kernel)
    obtain ⟨hslack, hnoLoss⟩ := of_decide_eq_true hfacts
    refine ⟨grid, hgrid, ?_⟩
    intro rows
    exact (cash_nonneg_iff hgrid thinParams rows).2 (by norm_num) hslack
      hnoLoss
  · obtain ⟨grid, t, hgrid, -, ht, hfills, hcash⟩ := cash_negative_plunge
    refine ⟨grid, hgrid, ?_⟩
    intro hcovered
    have hnonneg := (cash_nonneg_iff hgrid thinParams [plunge]).1.2 hcovered
      0 29 plunge t ht hfills
    exact absurd hcash (not_lt.2 hnonneg)

end Proofstand.BnbGrid
