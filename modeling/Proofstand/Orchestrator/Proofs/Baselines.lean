/-
What a baseline's value depends on.

Two of the four counterfactuals end in a live read: hodl subtracts a
swap's gas, static_range a mint's and a burn's, both at the gas price and
BNB/USD of the moment. Each is its gross, which the observation alone
determines, less a multiple of `quote` (`hodl_eq`, `staticRange_eq`), and
two worlds give one receipt exactly when they give one quote or no gross
is reached (`lessGas_same_iff`).

# Where the gas is read

A baseline that stops before its last line gives the same error in both
worlds, whatever gas costs, so the condition asks for a gross as well
(`CarriesHodl`, `CarriesStaticRange`): the observation must have what the
rule reads, with divisors that are not zero. `ReadsGas` puts the two
together, and the other two rules never read it.
-/
import Proofstand.Agents.BnbGrid.Agent
import Proofstand.Orchestrator.Harness
import Proofstand.Lib.Fallible

namespace Proofstand

namespace Baselines

open Fallible Calibrate Harness

variable {K : Type} [Field K] [LinearOrder K]

-- ========================================================= the live quote

/-- What one unit of gas costs at the moment, in USD and wei. -/
def quote (w : World K) : Py K := do
  let gasPriceWei ← w.gasPriceWei.read
  let bnbUsd ← (w.spotPrice "BNB-USDT").read
  pure (gasPriceWei * bnbUsd)

/-- The USD cost of `gas` units at a quote. -/
def priced (gas : Int) (q : K) : K := gas / 10 ^ 18 * q

omit [LinearOrder K] in
/-- The cost is read from the world, and priced by the operation's gas. -/
theorem gasCostUsd_eq (op : String) (gas : Int)
    (h : gasUnits.lookup op = some gas) (w : World K) :
    gasCostUsd w op = quote w >>= fun q => .ok (priced gas q) := by
  unfold gasCostUsd quote
  rw [h]
  simp only [bind_assoc, pure_eq_ok, ok_bind]
  apply bind_congr
  intro gasPriceWei
  apply bind_congr
  intro bnbUsd
  congr 1
  unfold priced
  ring

/-- A live read fails with the network's error, and with no other. -/
theorem read_error {α : Type} {x : Live α} {e : Exc}
    (h : x.read = .error e) : e.cls = .NetworkError := by
  cases x with
  | ok a => cases h
  | error msg =>
      cases h
      rfl

omit [LinearOrder K] in
/-- A quote that fails fails on the network. -/
theorem quote_error {w : World K} {e : Exc} (h : quote w = .error e) :
    e.cls = .NetworkError := by
  unfold quote at h
  cases hgas : w.gasPriceWei.read with
  | error e' =>
      rw [hgas] at h
      cases h
      exact read_error hgas
  | ok gasPriceWei =>
      rw [hgas] at h
      cases hspot : (w.spotPrice "BNB-USDT").read with
      | error e' =>
          rw [hspot] at h
          cases h
          exact read_error hspot
      | ok bnbUsd =>
          rw [hspot] at h
          cases h

omit [LinearOrder K] in
/-- The handlers of an unmeasured operation never see a quote. -/
theorem onUnmeasured_quote {α : Type} (handler : Exc → Py α) (w : World K)
    (f : K → α) :
    onUnmeasured handler (quote w >>= fun q => .ok (f q))
      = quote w >>= fun q => .ok (f q) := by
  cases hq : quote w with
  | error e =>
      show (if e.cls = .GasUnitUnmeasured then handler e else .error e) = _
      rw [quote_error hq]
      rfl
  | ok q => rfl

-- ================================================== a gross less the gas

/-- A gross value less the cost of `gas` units, in the manifest's unit. -/
def lessGas (m : Manifest K) (gas : Int) (gross : Py K) (w : World K) :
    Py (Result K) := do
  let g ← gross
  let q ← quote w
  pure (m.result (g - priced gas q))

/-- Different quotes price a positive number of units differently. -/
theorem priced_injective [IsStrictOrderedRing K] {gas : Int} (h : gas ≠ 0) :
    Function.Injective (priced (K := K) gas) := by
  intro q q' hq
  have hunit : (gas : K) / 10 ^ 18 ≠ 0 :=
    div_ne_zero (Int.cast_ne_zero.2 h) (pow_ne_zero 18 (by norm_num))
  exact mul_left_cancel₀ hunit hq

/-- Two worlds give one baseline exactly when the quotes agree, or there is
no gross figure to take the gas from. -/
theorem lessGas_same_iff [IsStrictOrderedRing K] (m : Manifest K)
    {gas : Int} (hgas : gas ≠ 0) (gross : Py K) (w w' : World K) :
    lessGas m gas gross w = lessGas m gas gross w'
      ↔ ((∃ g, gross = .ok g) → quote w = quote w') := by
  constructor
  · intro h h
    obtain ⟨g, hg⟩ := h
    unfold lessGas at h
    rw [hg, ok_bind, ok_bind] at h
    cases hq : quote w with
    | error e =>
        cases hq' : quote w' with
        | error e' =>
            rw [hq, hq'] at h
            cases h
            rfl
        | ok q' =>
            rw [hq, hq'] at h
            cases h
    | ok q =>
        cases hq' : quote w' with
        | error e' =>
            rw [hq, hq'] at h
            cases h
        | ok q' =>
            rw [hq, hq'] at h
            simp only [ok_bind, pure_eq_ok, Except.ok.injEq,
              Manifest.result, Result.mk.injEq, true_and, sub_right_inj]
              at h
            rw [priced_injective hgas h]
  · intro h
    unfold lessGas
    apply bind_congr_ok
    intro g hg
    rw [h ⟨g, hg⟩]

-- ================================================================== hodl

/-- The observation has what hodl computes its gross from: the capital,
and first and last candles with an opening price to divide by. -/
def CarriesHodl (data : PyVal K) : Prop :=
  ∃ klines inputs capital first p0 last p1,
    data.item "klines" = .ok klines ∧ data.item "inputs" = .ok inputs
      ∧ numberAt inputs "capital_usd" = .ok capital
      ∧ klines.first = .ok first ∧ numberAt first "open" = .ok p0
      ∧ klines.last = .ok last ∧ numberAt last "close" = .ok p1 ∧ p0 ≠ 0

/-- `hodl` up to its gas: what the holding is worth at the last close, less
the capital. -/
def hodlGross (data : PyVal K) : Py K := do
  need data ["klines", "inputs"]
  let klines ← data.item "klines"
  let inputs ← data.item "inputs"
  let capital ← numberAt inputs "capital_usd"
  let first ← klines.first
  let p0 ← numberAt first "open"
  let last ← klines.last
  let p1 ← numberAt last "close"
  let qty ← pyDiv capital p0
  pure (qty * p1 - capital)

/-- `hodl` is that figure less the gas of a swap. -/
theorem hodl_eq (data : PyVal K) (m : Manifest K) (w : World K) :
    hodl data m w = lessGas m 118387 (hodlGross data) w := by
  unfold hodl hodlGross lessGas
  have hgas := gasCostUsd_eq "swap_v2" 118387 rfl w
  simp only [hgas, onUnmeasured_quote, bind_assoc, pure_eq_ok, ok_bind]

omit [Field K] [LinearOrder K] in
/-- A key that can be read is there, -/
theorem hasKey_of_item {data v : PyVal K} {k : String}
    (h : data.item k = .ok v) : data.hasKey k = true := by
  unfold PyVal.hasKey
  rw [PyVal.get?_of_item h]
  rfl

omit [LinearOrder K] in
/-- also when it is read as a number, -/
theorem hasKey_of_numberAt {data : PyVal K} {k : String} {x : K}
    (h : numberAt data k = .ok x) : data.hasKey k = true := by
  obtain ⟨v, hv, -⟩ := bind_eq_ok.1 h
  exact hasKey_of_item hv

omit [Field K] [LinearOrder K] in
/-- and `_need` passes when every key is. -/
theorem need_eq_ok {data : PyVal K} {keys : List String}
    (h : ∀ k ∈ keys, data.hasKey k = true) : need data keys = .ok () := by
  have hnone : (keys.filter fun k => !data.hasKey k) = [] := by
    rw [List.filter_eq_nil_iff]
    intro k hk
    simp [h k hk]
  unfold need
  rw [hnone]
  rfl

/-- The figure exists exactly when the observation carries what `hodl` reads. -/
theorem hodlGross_ok_iff (data : PyVal K) :
    (∃ g, hodlGross data = .ok g) ↔ CarriesHodl data := by
  unfold hodlGross
  constructor
  · intro h
    obtain ⟨g, h⟩ := h
    obtain ⟨-, -, h⟩ := bind_eq_ok.1 h
    obtain ⟨klines, hklines, h⟩ := bind_eq_ok.1 h
    obtain ⟨inputs, hinputs, h⟩ := bind_eq_ok.1 h
    obtain ⟨capital, hcapital, h⟩ := bind_eq_ok.1 h
    obtain ⟨first, hfirst, h⟩ := bind_eq_ok.1 h
    obtain ⟨p0, hp0, h⟩ := bind_eq_ok.1 h
    obtain ⟨last, hlast, h⟩ := bind_eq_ok.1 h
    obtain ⟨p1, hp1, h⟩ := bind_eq_ok.1 h
    obtain ⟨qty, hqty, -⟩ := bind_eq_ok.1 h
    refine ⟨klines, inputs, capital, first, p0, last, p1, hklines, hinputs,
      hcapital, hfirst, hp0, hlast, hp1, ?_⟩
    intro hzero
    rw [pyDiv, if_pos hzero] at hqty
    cases hqty
  · intro h
    obtain ⟨klines, inputs, capital, first, p0, last, p1, hklines, hinputs,
        hcapital, hfirst, hp0, hlast, hp1, hne⟩ := h
    have hneed : need data ["klines", "inputs"] = .ok () := by
      apply need_eq_ok
      intro k hk
      simp only [List.mem_cons, List.not_mem_nil, or_false] at hk
      rcases hk with rfl | rfl
      · exact hasKey_of_item hklines
      · exact hasKey_of_item hinputs
    simp only [hneed, hklines, hinputs, hcapital, hfirst, hp0, hlast, hp1,
      pyDiv, if_neg hne, ok_bind]
    exact ⟨_, rfl⟩

-- ========================================================== static_range

/-- The observation has what static_range computes its gross from: the
capital, the horizon, a fee APR, and a volatility whose expected loss
over that horizon can be computed. -/
def CarriesStaticRange (lib : Libm K) (data : PyVal K) : Prop :=
  ∃ inputs capital horizon apr vol il,
    data.item "inputs" = .ok inputs
      ∧ numberAt inputs "capital_usd" = .ok capital
      ∧ numberAt data "horizon_days" = .ok horizon
      ∧ feeRate data = .ok apr ∧ numberAt data "vol_annual" = .ok vol
      ∧ ilEstimate lib vol horizon (999999 / 1000000) = .ok il

/-- `static_range` up to its gas: the fees at the base rate, less the loss of
the range that is never moved. -/
def staticRangeGross (lib : Libm K) (data : PyVal K) : Py K := do
  need data ["vol_annual", "inputs", "horizon_days"]
  let inputs ← data.item "inputs"
  let capital ← numberAt inputs "capital_usd"
  let horizon ← numberAt data "horizon_days"
  let apr ← feeRate data
  let vol ← numberAt data "vol_annual"
  let il ← ilEstimate lib vol horizon (999999 / 1000000)
  pure (capital * apr * horizon / 365 - capital * il)

omit [LinearOrder K] in
/-- A mint's and a burn's gas, read one after the other. -/
theorem mintAndBurn_eq (w : World K) :
    (do
      let mint ← gasCostUsd w "v3_mint"
      let burn ← gasCostUsd w "v3_burn"
      pure (mint + burn) : Py K)
      = quote w >>= fun q => .ok (priced (390300 + 70557) q) := by
  have hmint := gasCostUsd_eq "v3_mint" 390300 rfl w
  have hburn := gasCostUsd_eq "v3_burn" 70557 rfl w
  rw [hmint, hburn]
  cases quote w with
  | error e => rfl
  | ok q =>
      simp only [ok_bind, pure_eq_ok]
      congr 1
      unfold priced
      push_cast
      ring

/-- `static_range` is that figure less the gas of a mint and a burn. -/
theorem staticRange_eq (lib : Libm K) (data : PyVal K) (m : Manifest K)
    (w : World K) :
    staticRange lib data m w
      = lessGas m (390300 + 70557) (staticRangeGross lib data) w := by
  unfold staticRange staticRangeGross lessGas
  simp only [mintAndBurn_eq, onUnmeasured_quote]
  simp only [bind_assoc, pure_eq_ok, ok_bind]

/-- And it exists exactly when the observation carries what the rule reads. -/
theorem staticRangeGross_ok_iff (lib : Libm K) (data : PyVal K) :
    (∃ g, staticRangeGross lib data = .ok g)
      ↔ CarriesStaticRange lib data := by
  unfold staticRangeGross
  constructor
  · intro h
    obtain ⟨g, h⟩ := h
    obtain ⟨-, -, h⟩ := bind_eq_ok.1 h
    obtain ⟨inputs, hinputs, h⟩ := bind_eq_ok.1 h
    obtain ⟨capital, hcapital, h⟩ := bind_eq_ok.1 h
    obtain ⟨horizon, hhorizon, h⟩ := bind_eq_ok.1 h
    obtain ⟨apr, hapr, h⟩ := bind_eq_ok.1 h
    obtain ⟨vol, hvol, h⟩ := bind_eq_ok.1 h
    obtain ⟨il, hil, -⟩ := bind_eq_ok.1 h
    exact ⟨inputs, capital, horizon, apr, vol, il, hinputs, hcapital,
      hhorizon, hapr, hvol, hil⟩
  · intro h
    obtain ⟨inputs, capital, horizon, apr, vol, il, hinputs, hcapital,
        hhorizon, hapr, hvol, hil⟩ := h
    have hneed : need data ["vol_annual", "inputs", "horizon_days"]
        = .ok () := by
      apply need_eq_ok
      intro k hk
      simp only [List.mem_cons, List.not_mem_nil, or_false] at hk
      rcases hk with rfl | rfl | rfl
      · exact hasKey_of_numberAt hvol
      · exact hasKey_of_item hinputs
      · exact hasKey_of_numberAt hhorizon
    simp only [hneed, hinputs, hcapital, hhorizon, hapr, hvol, hil, ok_bind]
    exact ⟨_, rfl⟩

-- ========================================================= the comparison

/-- The observations on which a baseline goes on to read the gas price. -/
def ReadsGas (lib : Libm K) (baselineId : String) (data : PyVal K) : Prop :=
  (baselineId = "hodl" ∧ CarriesHodl data)
    ∨ (baselineId = "static_range" ∧ CarriesStaticRange lib data)

/-- For every observation and manifest and any two worlds at the baseline,
the four counterfactuals give one value, and the receipt one baseline
value, delta and leaf, exactly when the baseline reads no gas price on
that observation or both worlds quote the same. -/
theorem baseline_same_iff [IsStrictOrderedRing K] (sha : PyVal K → String)
    (lib : Libm K) (m : Manifest K) (data : PyVal K) (w w' : World K)
    (hbaseline : m.baseline
      ∈ ["hodl", "static_range", "top_headline_apr", "no_action"]) :
    (runBaseline lib m.baseline data m w
          = runBaseline lib m.baseline data m w'
        ∧ ∀ tier taskHash snapshotHash agentResult,
            settle sha lib m tier taskHash snapshotHash data agentResult w
              = settle sha lib m tier taskHash snapshotHash data
                  agentResult w')
      ↔ (ReadsGas lib m.baseline data → quote w = quote w') := by
  have hsettle : runBaseline lib m.baseline data m w
        = runBaseline lib m.baseline data m w' →
      ∀ tier taskHash snapshotHash agentResult,
        settle sha lib m tier taskHash snapshotHash data agentResult w
          = settle sha lib m tier taskHash snapshotHash data agentResult
              w' := by
    intro h tier taskHash snapshotHash agentResult
    unfold settle
    rw [h]
  have hiff : runBaseline lib m.baseline data m w
        = runBaseline lib m.baseline data m w'
      ↔ (ReadsGas lib m.baseline data → quote w = quote w') := by
    simp only [List.mem_cons, List.not_mem_nil, or_false] at hbaseline
    unfold ReadsGas
    rcases hbaseline with hb | hb | hb | hb
    · rw [hb]
      show hodl data m w = hodl data m w' ↔ _
      rw [hodl_eq, hodl_eq, lessGas_same_iff m (by norm_num),
        hodlGross_ok_iff]
      simp
    · rw [hb]
      show staticRange lib data m w = staticRange lib data m w' ↔ _
      rw [staticRange_eq, staticRange_eq, lessGas_same_iff m (by norm_num),
        staticRangeGross_ok_iff]
      simp
    · rw [hb]
      show topHeadlineApr data m = topHeadlineApr data m ↔ _
      simp
    · rw [hb]
      show noAction data m = noAction data m ↔ _
      simp
  constructor
  · intro h
    exact hiff.1 h.1
  · intro h
    exact ⟨hiff.2 h, hsettle (hiff.2 h)⟩

-- ====================================================== one hire, twice

/-- A day of flat candles at 600, and a market for gas. -/
def gasWorld (gasPriceWei : Int) (bnbUsd : ℚ) : World ℚ :=
  { World.offline with
    gasPriceWei := .ok gasPriceWei
    spotPrice := fun _ => .ok bnbUsd
    readKlines := fun _ _ => .ok (List.replicate 24
      { openTimeMs := 0, openPrice := 600, high := 600, low := 600,
        close := 600, volume := 1 }) }

def gridInputs : Dict ℚ := [("capital_usd", .int 1000)]

/-- The constructor's defaults. -/
def plainGrid : BnbGrid.BnbGridAgent ℚ := ⟨none, 30, 7, 25, 10⟩

/-- Two grid hires that observe one world and hash one snapshot; the gas
price trebles before the second one's baseline. -/
theorem baseline_moves_with_gas :
    ∃ out out',
      runHire (fun _ => "") ratMath plainGrid.agent 1 gridInputs none
          (gasWorld 1000000000 600) (gasWorld 1000000000 600) = .ok out
      ∧ runHire (fun _ => "") ratMath plainGrid.agent 1 gridInputs none
          (gasWorld 1000000000 600) (gasWorld 3000000000 600) = .ok out'
      ∧ out.baselineValue ≠ out'.baselineValue ∧ out.delta ≠ out'.delta := by
  obtain ⟨out, hout, hout'⟩ := exists_of_okAnd
    (x := runHire (fun _ => "") ratMath plainGrid.agent 1 gridInputs none
      (gasWorld 1000000000 600) (gasWorld 1000000000 600))
    (p := fun out => okAnd
      (runHire (fun _ => "") ratMath plainGrid.agent 1 gridInputs none
        (gasWorld 1000000000 600) (gasWorld 3000000000 600))
      fun out' => decide (out.baselineValue ≠ out'.baselineValue
        ∧ out.delta ≠ out'.delta))
    (by decide +kernel)
  obtain ⟨out', hrun', hfacts⟩ := exists_of_okAnd hout'
  exact ⟨out, out', hout, hrun', of_decide_eq_true hfacts⟩

/-- A doubled gas price at half the BNB price is the same quote. -/
theorem baseline_same_at_one_quote :
    runBaseline ratMath "hodl"
        (.dict [("klines", .list [.dict [("open", .int 600),
            ("close", .int 630)]]),
          ("inputs", .dict gridInputs)])
        BnbGrid.manifest (gasWorld 1000000000 600)
      = runBaseline ratMath "hodl"
        (.dict [("klines", .list [.dict [("open", .int 600),
            ("close", .int 630)]]),
          ("inputs", .dict gridInputs)])
        BnbGrid.manifest (gasWorld 2000000000 300) :=
  ((baseline_same_iff (fun _ => "") ratMath BnbGrid.manifest _
    (gasWorld 1000000000 600) (gasWorld 2000000000 300)
    List.mem_cons_self).2 fun _ => by decide +kernel).1

end Baselines

end Proofstand
