/-
What an `observe()` that returned leaves behind: the data it hands to the
harness, and the instance state `act()` will read. The state is the data
over again, in all three agents; `act()` leaves its replay there.

Every `observe()` is a long sequence of reads that may each fail. Its
lemma takes one that returned apart once, and says of the data what each
field was made from; the proofs about published numbers start from there
and never open `observe()`. The same is done for `act()`: the replay's
arguments are fields of the observation, and for the guard they are the
plan as well. A read that fails has no lemma here, because nothing of a
failed `observe()` is left.
-/
import Proofstand.Agents.BnbGrid.Agent
import Proofstand.Agents.PcsRebalancer.Agent
import Proofstand.Agents.VenusGuard.Agent
import Proofstand.Lib.Fallible

namespace Proofstand

open Fallible

variable {K : Type} [Field K] [LinearOrder K]

namespace VenusGuard

/-- The unguarded replay's results stand in the data. -/
def Data.Replayed (d : Data K) : Prop :=
  d.minHf = (replayNoAction d.position d.ratioPath).minHf
    ∧ d.liquidationLossUsd
      = (replayNoAction d.position d.ratioPath).liquidationLossUsd

/-- What is observed is kept, and is replayed as it was asked for. -/
theorem observe_eq_ok [FloorRing K] {a : VenusGuardAgent K} {lib : Libm K}
    {s s' : State K} {inputs : Dict K} {w : World K} {d : Data K}
    (h : a.observe lib s inputs w = .ok (d, s')) :
    d.Replayed ∧ s'.obsData = some d ∧ d.inputs = inputs := by
  unfold VenusGuardAgent.observe at h
  obtain ⟨account, -, h⟩ := bind_eq_ok.1 h
  obtain ⟨health, -, h⟩ := bind_eq_ok.1 h
  split at h
  · cases h
  · simp only at h
    split at h
    · cases h
    · cases hdom : health.dominantCollateral with
      | none =>
          rw [hdom] at h
          cases h
      | some dom =>
          rw [hdom] at h
          obtain ⟨kl, -, h⟩ := bind_eq_ok.1 h
          obtain ⟨vol, -, h⟩ := bind_eq_ok.1 h
          obtain ⟨⟨path, start, dd⟩, -, h⟩ := bind_eq_ok.1 h
          obtain ⟨price, -, h⟩ := bind_eq_ok.1 h
          obtain ⟨amount, -, h⟩ := bind_eq_ok.1 h
          obtain ⟨buffer, -, h⟩ := bind_eq_ok.1 h
          obtain ⟨mantissa, -, h⟩ := bind_eq_ok.1 h
          cases h
          exact ⟨⟨rfl, rfl⟩, rfl, rfl⟩

/-- `act()` replays the plan on what was kept. -/
theorem act_eq_ok {s s' : State K} {d : Data K}
    {dec : Decision (Params K)} {ctx : ExecContext} {actions : Actions}
    (hs : s.obsData = some d)
    (h : VenusGuardAgent.act s dec ctx = .ok (actions, s')) :
    ∃ g, replayGuarded d.position d.ratioPath
        (VenusGuardAgent.planOf d dec.params) = .ok g
      ∧ s'.guarded = some g := by
  unfold VenusGuardAgent.act at h
  rw [hs] at h
  obtain ⟨g, hg, h⟩ := bind_eq_ok.1 h
  refine ⟨g, hg, ?_⟩
  simp only at h
  split at h
  · cases h
    rfl
  · obtain ⟨-, -, h⟩ := bind_eq_ok.1 h
    cases h
    rfl

end VenusGuard

namespace PcsRebalancer

/-- What an observation keeps, and the window it cut. -/
theorem observe_eq_ok {a : PcsRebalancerAgent K} {lib : Libm K}
    {s s' : State K} {inputs : Dict K} {w : World K} {d : Data K}
    (h : a.observe lib s inputs w = .ok (d, s')) :
    s'.obsData = some d ∧ d.inputs = inputs ∧ d.horizonDays = a.horizonDays
      ∧ ∃ calib, (w.readKlines "BNB-USDT" a.calibDays).read = .ok calib
        ∧ PcsRebalancerAgent.poolCandles
            ((a.simWindow calib).map Kline.toCandle) d.invert
          = .ok d.simPoolKlines := by
  unfold PcsRebalancerAgent.observe at h
  obtain ⟨pool, -, h⟩ := bind_eq_ok.1 h
  obtain ⟨st, -, h⟩ := bind_eq_ok.1 h
  simp only at h
  split at h
  · cases h
  · obtain ⟨calib, hcalib, h⟩ := bind_eq_ok.1 h
    obtain ⟨calibClose, -, h⟩ := bind_eq_ok.1 h
    obtain ⟨simPool, hsim, h⟩ := bind_eq_ok.1 h
    obtain ⟨⟨apr, dlPool⟩, -, h⟩ := bind_eq_ok.1 h
    obtain ⟨vol, -, h⟩ := bind_eq_ok.1 h
    obtain ⟨gasOpen, -, h⟩ := bind_eq_ok.1 h
    obtain ⟨decrease, -, h⟩ := bind_eq_ok.1 h
    obtain ⟨collect, -, h⟩ := bind_eq_ok.1 h
    obtain ⟨burn, -, h⟩ := bind_eq_ok.1 h
    cases h
    exact ⟨rfl, rfl, rfl, calib, hcalib, hsim⟩

/-- `act()` replays the range on what was kept, at a tier that signs nothing. -/
theorem act_eq_ok [FloorRing K] {a : PcsRebalancerAgent K} {lib : Libm K}
    {s s' : State K} {d : Data K} {dec : Decision (RangeConfig K)}
    {ctx : ExecContext} {actions : Actions} (hs : s.obsData = some d)
    (hctx : ctx.tier < 2) (h : a.act lib s dec ctx = .ok (actions, s')) :
    ∃ p r, a.simParams d = .ok p
      ∧ simulateRebalancer lib d.simPoolKlines dec.params p = .ok r
      ∧ s'.sim = some r := by
  unfold PcsRebalancerAgent.act at h
  rw [hs] at h
  simp only [if_pos hctx] at h
  split at h
  · cases h
  · obtain ⟨p, hp, h⟩ := bind_eq_ok.1 h
    obtain ⟨r, hr, h⟩ := bind_eq_ok.1 h
    cases h
    exact ⟨p, r, hp, hr, rfl⟩

end PcsRebalancer

namespace BnbGrid

omit [LinearOrder K] in
/-- The rows, the gas and the fees that are kept are those recorded. -/
theorem observe_eq_ok {a : BnbGridAgent K} {s s' : State K}
    {inputs : Dict K} {w : World K} {d : Data K}
    (h : a.observe s inputs w = .ok (d, s')) :
    s'.simRows = d.simKlines ∧ s'.gas = d.gasUsdPerFill
      ∧ d.feeBps = a.feeBps ∧ d.slippageBps = a.slippageBps := by
  unfold BnbGridAgent.observe at h
  obtain ⟨pair, -, h⟩ := bind_eq_ok.1 h
  obtain ⟨calib, -, h⟩ := bind_eq_ok.1 h
  obtain ⟨gas, -, h⟩ := bind_eq_ok.1 h
  cases h
  exact ⟨rfl, rfl, rfl, rfl⟩

end BnbGrid

end Proofstand
