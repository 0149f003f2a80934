/-
What two observations of one canonical form have in common: every field
an agent reads after `observe()`.

# Reading a dict back

The hash is over the canonical form of the dict an observation is, so
whoever hashed the same has dicts of one canonical form. From there each
field is read back: a number is its own canonical form, a list is that of
its entries, and an entry of a dict is found under its key whatever the
order. The `same_of_canon_eq` lemmas list exactly the fields that `act()`
and `decide()` read; the inputs are a dict inside the dict and go by key.

What is not in the data can not be read back: the instance's own
parameters. `SamePlan` and `SameCheckpoints` say when these make no
difference to the replay of what was observed.
-/
import Proofstand.Agents.Proofs.Observe
import Proofstand.Agents.Proofs.Replay
import Proofstand.Agents.Proofs.Course

namespace Proofstand

open Fallible PyVal

variable {K : Type}

-- ============================================================== candles

theorem Candle.eq_of_canon_eq (c c' : Candle K)
    (h : c.toVal.canon = c'.toVal.canon) : c = c' := by
  have htime := entry_of_canon_eq h (k := "open_time_ms") rfl rfl
  have hopen := float_of_canon_eq (entry_of_canon_eq h (k := "open") rfl rfl)
  have hhigh := float_of_canon_eq (entry_of_canon_eq h (k := "high") rfl rfl)
  have hlow := float_of_canon_eq (entry_of_canon_eq h (k := "low") rfl rfl)
  have hclose := float_of_canon_eq
    (entry_of_canon_eq h (k := "close") rfl rfl)
  obtain ⟨t, o, hi, lo, cl⟩ := c
  obtain ⟨t', o', hi', lo', cl'⟩ := c'
  simp_all

theorem Kline.eq_of_canon_eq (c c' : Kline K)
    (h : c.toVal.canon = c'.toVal.canon) : c = c' := by
  have htime := entry_of_canon_eq h (k := "open_time_ms") rfl rfl
  have hopen := float_of_canon_eq (entry_of_canon_eq h (k := "open") rfl rfl)
  have hhigh := float_of_canon_eq (entry_of_canon_eq h (k := "high") rfl rfl)
  have hlow := float_of_canon_eq (entry_of_canon_eq h (k := "low") rfl rfl)
  have hclose := float_of_canon_eq
    (entry_of_canon_eq h (k := "close") rfl rfl)
  have hvolume := float_of_canon_eq
    (entry_of_canon_eq h (k := "volume") rfl rfl)
  obtain ⟨⟨t, o, hi, lo, cl⟩, v⟩ := c
  obtain ⟨⟨t', o', hi', lo', cl'⟩, v'⟩ := c'
  simp_all

theorem finite_of_canon_eq {x y : K}
    (h : canon (float (.fin x)) = canon (float (.fin y))) : x = y := by
  simpa using h

-- =============================================================== inputs

section

variable [Field K]

/-- One number under a key, of inputs of one canonical form. -/
theorem number_of_canon_eq {v w x y : PyVal K} {a b : K}
    (h : v.canon = w.canon) {k : String} (hx : v.item k = .ok x)
    (hy : w.item k = .ok y) (ha : x.number = .ok a) (hb : y.number = .ok b) :
    a = b := by
  have hxy : x.canon = y.canon :=
    entry_of_canon_eq h (get?_of_item hx) (get?_of_item hy)
  have hnum : x.number = y.number := eq_of_canon_eq number_canon hxy
  rw [ha, hb] at hnum
  exact Except.ok.inj hnum

end

/-- An entry or its default, of dicts of one canonical form. -/
theorem lookup_of_canon_eq {α : Type} {f : PyVal K → α}
    (hf : ∀ v, f v.canon = f v) {kvs kws : Dict K}
    (h : (dict kvs).canon = (dict kws).canon) (k : String) (default : PyVal K) :
    f ((kvs.lookup k).getD default) = f ((kws.lookup k).getD default) := by
  have hmap : (kvs.lookup k).map canon = (kws.lookup k).map canon :=
    get?_of_canon_eq h k
  cases hv : kvs.lookup k with
  | none =>
      cases hw : kws.lookup k with
      | none => rfl
      | some w =>
          rw [hv, hw] at hmap
          cases hmap
  | some v =>
      cases hw : kws.lookup k with
      | none =>
          rw [hv, hw] at hmap
          cases hmap
      | some w =>
          rw [hv, hw] at hmap
          exact eq_of_canon_eq hf (Option.some.inj hmap)

-- ========================================================== venus-guard

namespace VenusGuard

/-- What `act()` reads is the same. -/
theorem Data.same_of_canon_eq {d e : Data K}
    (h : d.toVal.canon = e.toVal.canon) :
    d.position = e.position ∧ d.ratioPath = e.ratioPath
      ∧ d.bufferUsd = e.bufferUsd ∧ d.gasPerRepayUsd = e.gasPerRepayUsd := by
  have hborrow := finite_of_canon_eq
    (entry_of_canon_eq h (k := "total_borrow_usd") rfl rfl)
  have hvolatile := finite_of_canon_eq
    (entry_of_canon_eq h (k := "volatile_adj_usd") rfl rfl)
  have hstable := finite_of_canon_eq
    (entry_of_canon_eq h (k := "stable_adj_usd") rfl rfl)
  have hclose := finite_of_canon_eq
    (entry_of_canon_eq h (k := "close_factor") rfl rfl)
  have hincentive := finite_of_canon_eq
    (entry_of_canon_eq h (k := "liquidation_incentive") rfl rfl)
  have hpath := list_of_canon_eq (fun _ _ => finite_of_canon_eq)
    (entry_of_canon_eq h (k := "ratio_path") rfl rfl)
  have hbuffer := finite_of_canon_eq
    (entry_of_canon_eq h (k := "buffer_usd") rfl rfl)
  have hgas := finite_of_canon_eq
    (entry_of_canon_eq h (k := "gas_per_repay_usd") rfl rfl)
  refine ⟨?_, hpath, hbuffer, hgas⟩
  unfold Data.position
  rw [hborrow, hvolatile, hstable, hclose, hincentive]

variable [Field K] [LinearOrder K]

/-- So is one instance's trigger. -/
theorem trigger_of_canon_eq {d e : Data K}
    (h : d.toVal.canon = e.toVal.canon) (a : VenusGuardAgent K)
    (lib : Libm K) : a.trigger lib d = a.trigger lib e := by
  have hinputs : (dict d.inputs).canon = (dict e.inputs).canon :=
    entry_of_canon_eq h (k := "inputs") rfl rfl
  have hvol := finite_of_canon_eq
    (entry_of_canon_eq h (k := "vol_annual") rfl rfl)
  unfold VenusGuardAgent.trigger
  rw [lookup_of_canon_eq number_canon hinputs, hvol]

/-- Replaying `a`'s plan on `d`, wherever `a` or `b` would look at
repaying both would, and with one recovery target. -/
def SamePlan (lib : Libm K) (a b : VenusGuardAgent K) (d : Data K) : Prop :=
  ∀ dec dec', a.decide lib d = .ok dec → b.decide lib d = .ok dec' →
    AlongRun (guardStep d.position (VenusGuardAgent.planOf d dec.params))
      (SameCall d.position (VenusGuardAgent.planOf d dec.params)
        (VenusGuardAgent.planOf d dec'.params))
      (GuardState.start d.position
        (VenusGuardAgent.planOf d dec.params))
      d.ratioPath.zipIdx

/-- Two guards with one trigger and one pad have one plan. -/
theorem samePlan_of_trigger {lib : Libm K} {a b : VenusGuardAgent K}
    {d : Data K} (htrigger : a.trigger lib d = b.trigger lib d)
    (hpad : a.recoveryPad = b.recoveryPad) : SamePlan lib a b d := by
  intro dec dec' hdec hdec'
  obtain ⟨t, ht, hparams⟩ := bind_eq_ok.1 hdec
  obtain ⟨t', ht', hparams'⟩ := bind_eq_ok.1 hdec'
  cases ht.symm.trans (htrigger.trans ht')
  rw [hpad] at hparams
  cases hparams.symm.trans hparams'
  exact alongRun_of_forall fun s p => ⟨rfl, fun _ => rfl⟩

/-- The plan another instance makes on data of one canonical form. -/
theorem plan_of_canon_eq {d e : Data K}
    (h : d.toVal.canon = e.toVal.canon) {a : VenusGuardAgent K}
    {lib : Libm K} {dec : Decision (Params K)}
    (hdec : a.decide lib e = .ok dec) :
    ∃ dec', a.decide lib d = .ok dec'
      ∧ VenusGuardAgent.planOf d dec'.params
        = VenusGuardAgent.planOf e dec.params := by
  obtain ⟨-, -, hbuffer, hgas⟩ := Data.same_of_canon_eq h
  obtain ⟨t, ht, hparams⟩ := bind_eq_ok.1 hdec
  cases hparams
  refine ⟨_, bind_eq_ok.2 ⟨t, (trigger_of_canon_eq h a lib).trans ht, rfl⟩, ?_⟩
  unfold VenusGuardAgent.planOf
  rw [hbuffer, hgas]

/-- Two guards that plan alike save the same on data of one canonical
form. -/
theorem usdSaved_of_samePlan {lib : Libm K} {a b : VenusGuardAgent K}
    {d e : Data K} (h : d.toVal.canon = e.toVal.canon)
    (hplan : SamePlan lib a b d) {dec dec' : Decision (Params K)}
    (hdec : a.decide lib d = .ok dec) (hdec' : b.decide lib e = .ok dec')
    {g g' : GuardedResult K}
    (hg : replayGuarded d.position d.ratioPath
      (VenusGuardAgent.planOf d dec.params) = .ok g)
    (hg' : replayGuarded e.position e.ratioPath
      (VenusGuardAgent.planOf e dec'.params) = .ok g') :
    g.usdSaved = g'.usdSaved := by
  obtain ⟨hpos, hpath, -, -⟩ := Data.same_of_canon_eq h
  obtain ⟨decb, hdecb, hplanb⟩ := plan_of_canon_eq h hdec'
  rw [← hpos, ← hpath, ← hplanb] at hg'
  have hbuffer : (VenusGuardAgent.planOf d dec.params).bufferUsd
      = (VenusGuardAgent.planOf d decb.params).bufferUsd := rfl
  exact usdSaved_of_sameCall hbuffer rfl (hplan dec decb hdec hdecb) hg hg'

end VenusGuard

-- ============================================================= bnb-grid

namespace BnbGrid

/-- What `act()` reads is the same. -/
theorem Data.same_of_canon_eq {d e : Data K}
    (h : d.toVal.canon = e.toVal.canon) :
    d.gasUsdPerFill = e.gasUsdPerFill ∧ d.feeBps = e.feeBps
      ∧ d.slippageBps = e.slippageBps ∧ d.calibKlines = e.calibKlines
      ∧ d.simKlines = e.simKlines := by
  refine ⟨?_, ?_, ?_, ?_, ?_⟩
  · exact finite_of_canon_eq
      (entry_of_canon_eq h (k := "gas_usd_per_fill") rfl rfl)
  · exact finite_of_canon_eq (entry_of_canon_eq h (k := "fee_bps") rfl rfl)
  · exact finite_of_canon_eq
      (entry_of_canon_eq h (k := "slippage_bps") rfl rfl)
  · exact list_of_canon_eq Kline.eq_of_canon_eq
      (entry_of_canon_eq h (k := "calib_klines") rfl rfl)
  · exact list_of_canon_eq Kline.eq_of_canon_eq
      (entry_of_canon_eq h (k := "sim_klines") rfl rfl)

variable [Field K] [LinearOrder K] [FloorRing K]

/-- One decision on data of one canonical form. -/
theorem decide_of_canon_eq {d e : Data K}
    (h : d.toVal.canon = e.toVal.canon)
    {dec dec' : Decision (GridConfig K)}
    (hdec : BnbGridAgent.decide d = .ok dec)
    (hdec' : BnbGridAgent.decide e = .ok dec') : dec = dec' := by
  have hinputs : (dict d.inputs).canon = (dict e.inputs).canon :=
    entry_of_canon_eq h (k := "inputs") rfl rfl
  obtain ⟨-, -, -, hcalib, -⟩ := Data.same_of_canon_eq h
  unfold BnbGridAgent.decide at hdec hdec'
  rw [← hcalib] at hdec'
  by_cases hempty : d.calibKlines.isEmpty = true
  · rw [if_pos hempty] at hdec
    cases hdec
  · rw [if_neg hempty] at hdec hdec'
    obtain ⟨v, hv, hdec⟩ := bind_eq_ok.1 hdec
    obtain ⟨v', hv', hdec'⟩ := bind_eq_ok.1 hdec'
    obtain ⟨capital, hcapital, hdec⟩ := bind_eq_ok.1 hdec
    obtain ⟨capital', hcapital', hdec'⟩ := bind_eq_ok.1 hdec'
    have hsame : capital = capital' :=
      number_of_canon_eq hinputs hv hv' hcapital hcapital'
    rw [hsame, lookup_of_canon_eq pyInt_canon hinputs,
      lookup_of_canon_eq asText?_canon hinputs, hdec'] at hdec
    cases hdec
    rfl

/-- One profit. -/
theorem netPnl_of_canon_eq {a b : BnbGridAgent K} {d e : Data K}
    (h : d.toVal.canon = e.toVal.canon) {s s' t t' : State K}
    (hs : s.simRows = d.simKlines ∧ s.gas = d.gasUsdPerFill
      ∧ d.feeBps = a.feeBps ∧ d.slippageBps = a.slippageBps)
    (hs' : s'.simRows = e.simKlines ∧ s'.gas = e.gasUsdPerFill
      ∧ e.feeBps = b.feeBps ∧ e.slippageBps = b.slippageBps)
    {dec dec' : Decision (GridConfig K)}
    (hdec : BnbGridAgent.decide d = .ok dec)
    (hdec' : BnbGridAgent.decide e = .ok dec')
    {acts acts' : Actions} (hact : a.act s dec = .ok (acts, t))
    (hact' : b.act s' dec' = .ok (acts', t')) : t.sim = t'.sim := by
  obtain ⟨hrows, hgas, hfee, hslip⟩ := hs
  obtain ⟨hrows', hgas', hfee', hslip'⟩ := hs'
  obtain ⟨hgasEq, hfeeEq, hslipEq, -, hsimEq⟩ := Data.same_of_canon_eq h
  have hsame : dec = dec' := decide_of_canon_eq h hdec hdec'
  unfold BnbGridAgent.act at hact hact'
  obtain ⟨r, hr, hact⟩ := bind_eq_ok.1 hact
  obtain ⟨r', hr', hact'⟩ := bind_eq_ok.1 hact'
  cases hact
  cases hact'
  rw [hrows, hgas, ← hfee, ← hslip, hsame, hsimEq, hgasEq, hfeeEq, hslipEq]
    at hr
  rw [hrows', hgas', ← hfee', ← hslip', hr] at hr'
  cases hr'
  rfl

end BnbGrid

-- ======================================================= pcs-rebalancer

namespace PcsRebalancer

/-- What `decide()` and `act()` read is the same. -/
theorem Data.same_of_canon_eq {d e : Data K}
    (h : d.toVal.canon = e.toVal.canon) :
    d.feeTier = e.feeTier ∧ d.tickSpacing = e.tickSpacing
      ∧ d.rawPrice = e.rawPrice ∧ d.feeApr = e.feeApr
      ∧ d.horizonDays = e.horizonDays ∧ d.gasOpenUsd = e.gasOpenUsd
      ∧ d.gasCloseUsd = e.gasCloseUsd
      ∧ d.calibPoolClose = e.calibPoolClose
      ∧ d.simPoolKlines = e.simPoolKlines := by
  have htier := entry_of_canon_eq h (k := "fee_tier") rfl rfl
  have hspacing := entry_of_canon_eq h (k := "tick_spacing") rfl rfl
  refine ⟨by simpa using htier, by simpa using hspacing,
    ?_, ?_, ?_, ?_, ?_, ?_, ?_⟩
  · exact finite_of_canon_eq (entry_of_canon_eq h (k := "raw_price") rfl rfl)
  · exact finite_of_canon_eq (entry_of_canon_eq h (k := "fee_apr") rfl rfl)
  · exact finite_of_canon_eq
      (entry_of_canon_eq h (k := "horizon_days") rfl rfl)
  · exact finite_of_canon_eq
      (entry_of_canon_eq h (k := "gas_open_usd") rfl rfl)
  · exact finite_of_canon_eq
      (entry_of_canon_eq h (k := "gas_close_usd") rfl rfl)
  · exact list_of_canon_eq (fun _ _ => finite_of_canon_eq)
      (entry_of_canon_eq h (k := "calib_pool_close") rfl rfl)
  · exact list_of_canon_eq Candle.eq_of_canon_eq
      (entry_of_canon_eq h (k := "sim_pool_klines") rfl rfl)

variable [Field K] [LinearOrder K] [FloorRing K]

/-- So is what `decide()` answers. -/
theorem decide_of_canon_eq {d e : Data K}
    (h : d.toVal.canon = e.toVal.canon) (lib : Libm K) :
    PcsRebalancerAgent.decide lib d = PcsRebalancerAgent.decide lib e := by
  have hinputs : (dict d.inputs).canon = (dict e.inputs).canon :=
    entry_of_canon_eq h (k := "inputs") rfl rfl
  obtain ⟨htier, hspacing, hprice, -, hhorizon, -, -, hcalib, -⟩ :=
    Data.same_of_canon_eq h
  unfold PcsRebalancerAgent.decide
  rw [lookup_of_canon_eq asText?_canon hinputs, htier, hspacing, hprice,
    hhorizon, hcalib]

/-- Along `a`'s simulation on `d`, `b`'s period makes no candle a
checkpoint or none that the rule would act on otherwise. -/
def SameCheckpoints (lib : Libm K) (a b : PcsRebalancerAgent K)
    (d : Data K) : Prop :=
  ∀ dec p, PcsRebalancerAgent.decide lib d = .ok dec →
    a.simParams d = .ok p →
    AlongRun
      (simStep lib p dec.params (d.simPoolKlines.map Candle.close))
      (SameChecks lib p b.checkpointHours dec.params
        (d.simPoolKlines.map Candle.close))
      (SimState.start p dec.params) d.simPoolKlines.zipIdx

/-- Two instances that check alike earn the same on data of one canonical
form. -/
theorem netFees_of_sameCheckpoints {a b : PcsRebalancerAgent K}
    {lib : Libm K} {d e : Data K} (h : d.toVal.canon = e.toVal.canon)
    (hsame : SameCheckpoints lib a b d) {dec dec' : Decision (RangeConfig K)}
    (hdec : PcsRebalancerAgent.decide lib d = .ok dec)
    (hdec' : PcsRebalancerAgent.decide lib e = .ok dec')
    {p p' : SimParams K} (hp : a.simParams d = .ok p)
    (hp' : b.simParams e = .ok p') {r r' : SimResult K}
    (hr : simulateRebalancer lib d.simPoolKlines dec.params p = .ok r)
    (hr' : simulateRebalancer lib e.simPoolKlines dec'.params p' = .ok r') :
    r.netFeesUsd = r'.netFeesUsd := by
  have hinputs : (dict d.inputs).canon = (dict e.inputs).canon :=
    entry_of_canon_eq h (k := "inputs") rfl rfl
  obtain ⟨-, -, -, hapr, -, hopen, hclose, -, hrows⟩ :=
    Data.same_of_canon_eq h
  have hsame := hsame dec p hdec hp
  rw [← decide_of_canon_eq h lib, hdec] at hdec'
  cases hdec'
  obtain ⟨v, hv, hp⟩ := bind_eq_ok.1 hp
  obtain ⟨v', hv', hp'⟩ := bind_eq_ok.1 hp'
  obtain ⟨capital, hcapital, hp⟩ := bind_eq_ok.1 hp
  obtain ⟨capital', hcapital', hp'⟩ := bind_eq_ok.1 hp'
  have hcap : capital = capital' :=
    number_of_canon_eq hinputs hv hv' hcapital hcapital'
  cases hp
  cases hp'
  rw [← hcap, ← hapr, ← hopen, ← hclose, ← hrows] at hr'
  exact netFees_of_sameChecks hsame hr hr'

end PcsRebalancer

end Proofstand
