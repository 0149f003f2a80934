/-
What one candle of the paper grid can do, said once.

A candle is a row of buys, a row of sales and a mark. `buyAt_shape` and
`sellAt_shape` say what one slot's turn may change, `mark_eq_ok` what the
mark adds, `candle_adds` what the two leave of a candle in the records;
`trades_keeps` and `simLoop_keeps` carry an invariant through a candle
and through the replay.

# Shape and full account

Each turn has two lemmas. `buyAt_eq_ok` and `sellAt_eq` give the ledger a
turn leaves, exactly; `buyAt_shape` and `sellAt_shape` forget what an
invariant does not read and keep what changed. The later modules use the
second kind where they can: what holds of every ledger that differs in
cash, one slot and one fill holds of both kinds of turn.

# Carrying an invariant

`trades_keeps` is the induction over a candle's turns and `simLoop_keeps`
the one over candles; `simLoop_reads` is the latter for invariants that
speak of the candles read so far. A replay that halts has read the candle
that halted it, so an invariant carried to the end speaks of that candle
too. No later module does an induction over turns of its own.
-/
import Proofstand.Agents.BnbGrid.Sim
import Proofstand.Lib.Fallible

namespace Proofstand.BnbGrid

open Fallible

variable {K : Type} [Field K] [LinearOrder K]

-- ============================================================ one slot

/-- The ledger after a buy of `qty` into slot `i`. -/
def SimState.bought (p : SimParams K) (grid : GridConfig K) (idx : Nat)
    (r : Kline K) (i : Nat) (line qty : K) (s : SimState K) : SimState K :=
  let f := grid.sizeUsdPerLevel * p.fee
  let px := line * (1 + p.slip)
  let cost := grid.sizeUsdPerLevel + f + p.gasUsdPerFill
  { s with
    cash := s.cash - cost
    feesUsd := s.feesUsd + f
    gasUsd := s.gasUsd + p.gasUsdPerFill
    slots := s.slots.set i (some ⟨px, qty, idx, cost⟩)
    fills := s.fills ++
      [⟨idx, r.openTimeMs, .buy, line, px, qty, grid.sizeUsdPerLevel⟩] }

/-- The ledger after the sale of slot `i`. -/
def SimState.sold (p : SimParams K) (idx : Nat) (r : Kline K) (i : Nat)
    (line : K) (slot : Slot K) (s : SimState K) : SimState K :=
  let px := line * (1 - p.slip)
  let proceeds := slot.qty * px
  let f := proceeds * p.fee
  let net := proceeds - f - p.gasUsdPerFill - slot.costBasis
  { s with
    cash := s.cash + (proceeds - f - p.gasUsdPerFill)
    feesUsd := s.feesUsd + f
    gasUsd := s.gasUsd + p.gasUsdPerFill
    roundTrips := s.roundTrips ++
      [⟨slot.buyPx, px, slot.qty, net, decide (0 < net)⟩]
    fills := s.fills ++
      [⟨idx, r.openTimeMs, .sell, line, px, slot.qty, proceeds⟩]
    slots := s.slots.set i none }

/-- A slot that is not bought, of one that is there. -/
theorem getElem?_of_getD {α : Type} {l : List (Option α)} {i : Nat}
    {o : Option α} (hi : i < l.length) (h : l.getD i none = o) :
    l[i]? = some o := by
  rw [List.getD_eq_getElem?_getD, List.getElem?_eq_getElem hi,
    Option.getD_some] at h
  rw [List.getElem?_eq_getElem hi, h]

/-- The turn of slot `i` buys at `line`. -/
structure Buys (p : SimParams K) (grid : GridConfig K) (r : Kline K)
    (s : SimState K) (i : Nat) (line : K) : Prop where
  empty : s.slots.getD i none = none
  atLine : grid.lines[i]? = some line
  dips : r.low ≤ line
  cash : grid.sizeUsdPerLevel ≤ s.cash
  price : line * (1 + p.slip) ≠ 0

/-- A slot's turn to buy, in full: nothing, or a buy of the slot's line. -/
theorem buyAt_eq_ok {p : SimParams K} {grid : GridConfig K} {idx : Nat}
    {r : Kline K} {s s' : SimState K} {i : Nat}
    (h : buyAt p grid idx r s i = .ok s') :
    s' = s ∨ ∃ line, Buys p grid r s i line
      ∧ s' = s.bought p grid idx r i line
          (grid.sizeUsdPerLevel / (line * (1 + p.slip))) := by
  unfold buyAt at h
  split at h
  case h_1 line hslot hline =>
      split at h
      case isTrue hdip =>
          obtain ⟨qty, hqty, h⟩ := bind_eq_ok.1 h
          unfold pyDiv at hqty
          split at hqty
          case isTrue => cases hqty
          case isFalse hne =>
              cases hqty
              cases h
              exact Or.inr ⟨line, ⟨hslot, hline, hdip.1, hdip.2, hne⟩, rfl⟩
      case isFalse =>
          cases h
          exact Or.inl rfl
  case h_2 =>
      cases h
      exact Or.inl rfl

theorem Buys.buyAt {p : SimParams K} {grid : GridConfig K} {r : Kline K}
    {s : SimState K} {i : Nat} {line : K} (h : Buys p grid r s i line)
    (idx : Nat) :
    buyAt p grid idx r s i = .ok (s.bought p grid idx r i line
      (grid.sizeUsdPerLevel / (line * (1 + p.slip)))) := by
  unfold BnbGrid.buyAt
  rw [h.empty, h.atLine]
  dsimp only
  rw [if_pos ⟨h.dips, h.cash⟩, pyDiv, if_neg h.price]
  rfl

/-- A slot's turn to buy: nothing, or a buy of the slot's line. -/
theorem buyAt_shape {p : SimParams K} {grid : GridConfig K} {idx : Nat}
    {r : Kline K} {s s' : SimState K} {i : Nat}
    (h : buyAt p grid idx r s i = .ok s') :
    s' = s ∨ ∃ line qty, s.slots.getD i none = none
      ∧ grid.lines[i]? = some line ∧ s' = s.bought p grid idx r i line qty := by
  rcases buyAt_eq_ok h with hsame | ⟨line, hbuys, hbought⟩
  · exact Or.inl hsame
  · exact Or.inr ⟨line, _, hbuys.empty, hbuys.atLine, hbought⟩

/-- A buy goes into a slot that is there and empty. -/
theorem buyAt_cases {p : SimParams K} {grid : GridConfig K} {idx : Nat}
    {r : Kline K} {s s' : SimState K} {i : Nat} (hi : i < s.slots.length)
    (h : buyAt p grid idx r s i = .ok s') :
    s' = s ∨ ∃ line qty, s.slots[i]? = some none
      ∧ grid.lines[i]? = some line ∧ s' = s.bought p grid idx r i line qty := by
  rcases buyAt_shape h with hsame | ⟨line, qty, hslot, hline, hbought⟩
  · exact Or.inl hsame
  · exact Or.inr ⟨line, qty, getElem?_of_getD hi hslot, hline, hbought⟩

/-- The turn of slot `i` sells what it holds at `line`. -/
structure Sells (grid : GridConfig K) (idx : Nat) (r : Kline K)
    (s : SimState K) (i : Nat) (slot : Slot K) (line : K) : Prop where
  held : s.slots.getD i none = some slot
  atLine : grid.lines[i + 1]? = some line
  later : slot.buyIdx < idx
  rises : line ≤ r.high

/-- A slot's turn to sell, in full. -/
theorem sellAt_eq (p : SimParams K) (grid : GridConfig K) (idx : Nat)
    (r : Kline K) (s : SimState K) (i : Nat) :
    sellAt p grid idx r s i = s ∨ ∃ slot line, Sells grid idx r s i slot line
      ∧ sellAt p grid idx r s i = s.sold p idx r i line slot := by
  unfold sellAt
  split
  case h_1 slot line hslot hline =>
      by_cases hrise : slot.buyIdx < idx ∧ line ≤ r.high
      · refine Or.inr ⟨slot, line, ⟨hslot, hline, hrise.1, hrise.2⟩, ?_⟩
        rw [if_pos hrise]
        rfl
      · exact Or.inl (if_neg hrise)
  case h_2 => exact Or.inl rfl

theorem Sells.sellAt {grid : GridConfig K} {idx : Nat} {r : Kline K}
    {s : SimState K} {i : Nat} {slot : Slot K} {line : K}
    (h : Sells grid idx r s i slot line) (p : SimParams K) :
    sellAt p grid idx r s i = s.sold p idx r i line slot := by
  unfold BnbGrid.sellAt
  rw [h.held, h.atLine]
  dsimp only
  rw [if_pos ⟨h.later, h.rises⟩]
  rfl

/-- A slot's turn to sell: nothing, or the sale of an earlier buy. -/
theorem sellAt_shape (p : SimParams K) (grid : GridConfig K) (idx : Nat)
    (r : Kline K) (s : SimState K) (i : Nat) :
    sellAt p grid idx r s i = s ∨ ∃ line slot,
      s.slots.getD i none = some slot
      ∧ grid.lines[i + 1]? = some line ∧ slot.buyIdx < idx
      ∧ sellAt p grid idx r s i = s.sold p idx r i line slot := by
  rcases sellAt_eq p grid idx r s i with hsame | ⟨slot, line, hsells, hsold⟩
  · exact Or.inl hsame
  · exact Or.inr ⟨line, slot, hsells.held, hsells.atLine, hsells.later, hsold⟩

/-- A sale is of a slot that is there and bought. -/
theorem sellAt_cases (p : SimParams K) (grid : GridConfig K) (idx : Nat)
    (r : Kline K) (s : SimState K) {i : Nat} (hi : i < s.slots.length) :
    sellAt p grid idx r s i = s ∨ ∃ line slot, s.slots[i]? = some (some slot)
      ∧ grid.lines[i + 1]? = some line ∧ slot.buyIdx < idx
      ∧ sellAt p grid idx r s i = s.sold p idx r i line slot := by
  rcases sellAt_shape p grid idx r s i
    with hsame | ⟨line, slot, hslot, hline, hlater, hsold⟩
  · exact Or.inl hsame
  · exact Or.inr ⟨line, slot, getElem?_of_getD hi hslot, hline, hlater,
      hsold⟩

-- ============================================================= the mark

/-- The worth of what the slots hold at a price. -/
def SimState.invValue (s : SimState K) (price : K) : K :=
  s.sumSlots fun slot => slot.qty * price

/-- Cash and inventory at a price. -/
def SimState.equity (s : SimState K) (price : K) : K :=
  s.cash + s.invValue price

/-- The circuit breaker's test on the ledger at a candle's close. -/
def breaker (p : SimParams K) (grid : GridConfig K) (r : Kline K)
    (s : SimState K) : Option HaltReason :=
  if p.maxLossPct / 100
      < (grid.capitalUsd - s.equity r.close) / grid.capitalUsd then
    some .unrealisedLoss
  else if grid.upper * (1 + 2 * grid.spacingFrac) < r.close
      ∨ r.close < grid.lower * (1 - 2 * grid.spacingFrac) then
    some .leftRange
  else none

/-- The mark adds a point to the curve and tests the breaker; slots, cash
and records stay. -/
theorem mark_eq_ok {p : SimParams K} {grid : GridConfig K} {r : Kline K}
    {s s' : SimState K} (h : mark p grid r s = .ok s') :
    grid.capitalUsd ≠ 0
      ∧ s' = { s with
          equityCurve := s.equityCurve ++ [(r.openTimeMs, s.equity r.close)]
          peak := max s.peak (s.equity r.close)
          maxDd := max s.maxDd
            ((max s.peak (s.equity r.close) - s.equity r.close)
              / grid.capitalUsd)
          maxInv := max s.maxInv (s.invValue r.close)
          halted := breaker p grid r s } := by
  unfold mark at h
  obtain ⟨dd, hdd, h⟩ := bind_eq_ok.1 h
  obtain ⟨loss, hloss, h⟩ := bind_eq_ok.1 h
  unfold pyDiv at hdd hloss
  by_cases hcap : grid.capitalUsd = 0
  · rw [if_pos hcap] at hdd
    cases hdd
  · rw [if_neg hcap] at hdd hloss
    cases hdd
    cases hloss
    cases h
    exact ⟨hcap, rfl⟩

-- =========================================================== one candle

/-- A candle up to its mark. -/
def trades (p : SimParams K) (grid : GridConfig K) (idx : Nat)
    (r : Kline K) (s : SimState K) : Py (SimState K) := do
  let s ← (List.range (grid.lines.length - 1)).foldlM (buyAt p grid idx r) s
  pure ((List.range (grid.lines.length - 1)).foldl (sellAt p grid idx r) s)

theorem candle_eq_ok {p : SimParams K} {grid : GridConfig K} {idx : Nat}
    {r : Kline K} {s s' : SimState K} (h : candle p grid idx r s = .ok s') :
    ∃ t, trades p grid idx r s = .ok t ∧ mark p grid r t = .ok s' := by
  obtain ⟨s₁, hbuys, hmark⟩ := bind_eq_ok.1 h
  exact ⟨_, bind_eq_ok.2 ⟨s₁, hbuys, rfl⟩, hmark⟩

/-- What every buy and every sale keep, a candle's trades keep. -/
theorem trades_keeps {P : SimState K → Prop} {p : SimParams K}
    {grid : GridConfig K} {idx : Nat} {r : Kline K} {s s' : SimState K}
    (hbuy : ∀ s i s', i < grid.lines.length - 1 → P s →
      buyAt p grid idx r s i = .ok s' → P s')
    (hsell : ∀ s i, i < grid.lines.length - 1 → P s →
      P (sellAt p grid idx r s i)) (hs : P s)
    (h : trades p grid idx r s = .ok s') : P s' := by
  obtain ⟨s₁, hbuys, h⟩ := bind_eq_ok.1 h
  cases h
  have hs₁ : P s₁ := by
    apply foldlM_keeps ?_ hs hbuys
    intro t i t' hi ht hstep
    exact hbuy t i t' (List.mem_range.1 hi) ht hstep
  apply List.foldlRecOn
  · exact hs₁
  · intro t ht i hi
    exact hsell t i (List.mem_range.1 hi) ht

/-- A record of fills grown by fills of one candle. -/
def GrownBy (idx : Nat) (ts : Int) (fills fills' : List (Fill K)) : Prop :=
  ∃ fs, fills' = fills ++ fs ∧ ∀ f ∈ fs, f.idx = idx ∧ f.ts = ts

omit [Field K] [LinearOrder K] in
theorem GrownBy.one {idx : Nat} {ts : Int} {fills fills' : List (Fill K)}
    {f : Fill K} (h : GrownBy idx ts fills fills') (hidx : f.idx = idx)
    (hts : f.ts = ts) : GrownBy idx ts fills (fills' ++ [f]) := by
  obtain ⟨fs, rfl, hof⟩ := h
  refine ⟨fs ++ [f], by rw [List.append_assoc], ?_⟩
  intro g hg
  rcases List.mem_append.1 hg with hg | hg
  · exact hof g hg
  · rw [List.mem_singleton.1 hg]
    exact ⟨hidx, hts⟩

/-- A candle's trades add fills of that candle, and leave the curve. -/
theorem trades_append {p : SimParams K} {grid : GridConfig K} {idx : Nat}
    {r : Kline K} {s s' : SimState K} (h : trades p grid idx r s = .ok s') :
    s'.equityCurve = s.equityCurve
      ∧ GrownBy idx r.openTimeMs s.fills s'.fills := by
  apply trades_keeps (P := fun t => t.equityCurve = s.equityCurve
    ∧ GrownBy idx r.openTimeMs s.fills t.fills) ?_ ?_ ?_ h
  · intro t i t' _ h
    obtain ⟨hcurve, hgrown⟩ := h
    intro hstep
    rcases buyAt_shape hstep with rfl | ⟨line, qty, -, -, rfl⟩
    · exact ⟨hcurve, hgrown⟩
    · exact ⟨hcurve, hgrown.one rfl rfl⟩
  · intro t i _ h
    obtain ⟨hcurve, hgrown⟩ := h
    rcases sellAt_shape p grid idx r t i with heq | ⟨line, slot, -, -, -, heq⟩
    · rw [heq]
      exact ⟨hcurve, hgrown⟩
    · rw [heq]
      exact ⟨hcurve, hgrown.one rfl rfl⟩
  · exact ⟨rfl, [], by simp, by simp⟩

/-- A candle's trades leave what the marks watch. -/
theorem trades_marks {p : SimParams K} {grid : GridConfig K} {idx : Nat}
    {r : Kline K} {s s' : SimState K} (h : trades p grid idx r s = .ok s') :
    s'.peak = s.peak ∧ s'.maxDd = s.maxDd ∧ s'.maxInv = s.maxInv := by
  apply trades_keeps (P := fun t => t.peak = s.peak ∧ t.maxDd = s.maxDd
    ∧ t.maxInv = s.maxInv) ?_ ?_ ⟨rfl, rfl, rfl⟩ h
  · intro t i t' _ ht hstep
    rcases buyAt_shape hstep with rfl | ⟨line, qty, -, -, rfl⟩
    · exact ht
    · exact ht
  · intro t i _ ht
    rcases sellAt_shape p grid idx r t i with heq | ⟨line, slot, -, -, -, heq⟩
    · rw [heq]
      exact ht
    · rw [heq]
      exact ht

/-- A candle adds one point to the curve and its own fills to the record,
and halts by the breaker's test on the ledger it leaves. -/
theorem candle_adds {p : SimParams K} {grid : GridConfig K} {idx : Nat}
    {r : Kline K} {s s' : SimState K} (h : candle p grid idx r s = .ok s') :
    s'.equityCurve.length = s.equityCurve.length + 1
      ∧ s'.halted = breaker p grid r s'
      ∧ GrownBy idx r.openTimeMs s.fills s'.fills := by
  obtain ⟨t, htrades, hmark⟩ := candle_eq_ok h
  obtain ⟨hcurve, hfills⟩ := trades_append htrades
  obtain ⟨-, rfl⟩ := mark_eq_ok hmark
  exact ⟨by simp [hcurve], rfl, hfills⟩

-- ============================================================ the replay

/-- What every candle keeps, the replay keeps. -/
theorem simLoop_keeps {P : Nat → SimState K → Prop} {p : SimParams K}
    {grid : GridConfig K} {idx : Nat} {s s' : SimState K}
    {rows : List (Kline K)}
    (hcandle : ∀ idx r s s', P idx s → candle p grid idx r s = .ok s' →
      P (idx + 1) s')
    (hs : P idx s) (h : simLoop p grid idx s rows = .ok s') :
    ∃ n ≤ rows.length, P (idx + n) s' := by
  induction rows generalizing idx s with
  | nil =>
      cases h
      exact ⟨0, Nat.zero_le _, hs⟩
  | cons r rows ih =>
      obtain ⟨s₁, hstep, hrest⟩ := bind_eq_ok.1 h
      have hs₁ : P (idx + 1) s₁ := hcandle idx r s s₁ hs hstep
      split at hrest
      · cases hrest
        exact ⟨1, by simp, hs₁⟩
      · obtain ⟨n, hn, hP⟩ := ih hs₁ hrest
        refine ⟨n + 1, by simp [hn], ?_⟩
        rwa [show idx + (n + 1) = idx + 1 + n by omega]

/-- What every candle keeps of the candles read so far, the replay keeps
of those it read. -/
theorem simLoop_reads {P : List (Kline K) → SimState K → Prop}
    {p : SimParams K} {grid : GridConfig K} {rows : List (Kline K)}
    {s s' : SimState K} (read : List (Kline K))
    (hcandle : ∀ read r s s', P read s → s.halted = none →
      candle p grid read.length r s = .ok s' → P (read ++ [r]) s')
    (hs : P read s) (hnone : s.halted = none)
    (h : simLoop p grid read.length s rows = .ok s') :
    ∃ seen rest, rows = seen ++ rest ∧ P (read ++ seen) s' := by
  induction rows generalizing read s with
  | nil =>
      cases h
      exact ⟨[], [], rfl, by rwa [List.append_nil]⟩
  | cons r rows ih =>
      obtain ⟨s₁, hstep, hrest⟩ := bind_eq_ok.1 h
      have hs₁ : P (read ++ [r]) s₁ := hcandle read r s s₁ hs hnone hstep
      cases hhalt : s₁.halted with
      | some reason =>
          rw [hhalt] at hrest
          cases hrest
          exact ⟨[r], rows, rfl, hs₁⟩
      | none =>
          rw [hhalt] at hrest
          have hlen : (read ++ [r]).length = read.length + 1 := by simp
          obtain ⟨seen, rest, rfl, hP⟩ := ih (read ++ [r]) hs₁ hhalt (hlen ▸ hrest)
          refine ⟨r :: seen, rest, rfl, ?_⟩
          rwa [List.append_assoc] at hP

/-- A replay in two parts: the second is reached unless the first halted. -/
theorem simLoop_append {p : SimParams K} {grid : GridConfig K} {idx : Nat}
    {s : SimState K} (rows rows' : List (Kline K)) (hs : s.halted = none) :
    simLoop p grid idx s (rows ++ rows')
      = simLoop p grid idx s rows >>= fun t =>
          if t.halted.isSome then .ok t
          else simLoop p grid (idx + rows.length) t rows' := by
  induction rows generalizing idx s with
  | nil => simp [simLoop, hs]
  | cons r rows ih =>
      rw [List.cons_append, simLoop, simLoop, bind_assoc]
      apply bind_congr_ok
      intro t _
      cases ht : t.halted with
      | some reason => simp [ht]
      | none =>
          simp only [Option.isSome_none, Bool.false_eq_true, if_false]
          rw [ih ht, List.length_cons,
            show idx + (rows.length + 1) = idx + 1 + rows.length by omega]

/-- A replay that returned had a ledger at every candle. -/
theorem simLoop_take {p : SimParams K} {grid : GridConfig K} {idx : Nat}
    {s s' : SimState K} {rows : List (Kline K)} (hs : s.halted = none)
    (h : simLoop p grid idx s rows = .ok s') (n : Nat) :
    ∃ t, simLoop p grid idx s (rows.take n) = .ok t := by
  rw [← List.take_append_drop n rows, simLoop_append _ _ hs] at h
  obtain ⟨t, ht, -⟩ := bind_eq_ok.1 h
  exact ⟨t, ht⟩

-- ============================================================ the result

/-- The close of the last candle replayed. -/
def lastClose (rows : List (Kline K)) (s : SimState K) : K :=
  match s.equityCurve.length with
  | 0 => 0
  | n + 1 => ((rows[n]?).map fun k : Kline K => k.close).getD 0

omit [LinearOrder K] in
/-- The last close is that of the last candle marked. -/
theorem lastClose_eq {rows : List (Kline K)} {s : SimState K} {n : Nat}
    (h : s.equityCurve.length = n + 1) :
    lastClose rows s = ((rows[n]?).map fun k => k.close).getD 0 := by
  rw [lastClose, h]

/-- The result read off a ledger at a price. -/
def resultAt (rows : List (Kline K)) (grid : GridConfig K) (s : SimState K)
    (price : K) : SimResult K where
  netPnlUsd := s.equity price - grid.capitalUsd
  realizedPnlUsd := (s.roundTrips.map RoundTrip.netUsd).sum
  unrealizedPnlUsd := s.invValue price - s.sumSlots Slot.costBasis
  nTrades := s.fills.length
  nRoundTrips := s.roundTrips.length
  winRate := s.roundTrips.countP RoundTrip.win / s.roundTrips.length
  maxDrawdownPct := s.maxDd * 100
  capitalAtRiskUsd := s.maxInv
  windowDays := windowDays (rows.map Kline.toCandle)
  feesUsd := s.feesUsd
  gasUsd := s.gasUsd
  halted := s.halted
  finalEquityUsd := s.equity price
  equityCurve := s.equityCurve
  roundTrips := s.roundTrips
  fills := s.fills

/-- `simulate` is its loop and what it makes of the state it ends in. -/
theorem simulate_eq (rows : List (Kline K)) (grid : GridConfig K)
    (p : SimParams K) :
    simulate rows grid p
      = simLoop p grid 0 (SimState.start grid) rows >>= fun s =>
          .ok (resultAt rows grid s (lastClose rows s)) := rfl

/-- A simulation reads its result off the replay's last ledger, marked at
the close of the last candle replayed. -/
theorem simulate_eq_ok {rows : List (Kline K)} {grid : GridConfig K}
    {p : SimParams K} {r : SimResult K} :
    simulate rows grid p = .ok r
      ↔ ∃ s, simLoop p grid 0 (SimState.start grid) rows = .ok s
        ∧ r = resultAt rows grid s (lastClose rows s) := by
  rw [simulate_eq, bind_eq_ok]
  apply exists_congr
  intro s
  rw [Except.ok.injEq, eq_comm (a := r)]

end Proofstand.BnbGrid
