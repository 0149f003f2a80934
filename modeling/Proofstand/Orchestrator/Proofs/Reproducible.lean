/-
Whether a receipt's hashes determine the agent's number.

The three agents carry constructor parameters past `observe()`. bnb-grid
puts all it uses into the data; venus-guard plans with `z`,
`response_window_hours` and `recovery_pad`, pcs-rebalancer simulates with
`checkpoint_hours`, and none of these is hashed. `Agrees` says of two
instances that no step of the first one's replay would go otherwise with
the second one's parameters, and then equal hashes mean equal numbers
(`agentValue_of_hashes`).

# How it goes

A run that returns has hashed its task and its snapshot, so two runs with
equal hashes have, where the hash tells these values apart, the same agent
and the same observed dict. Of the three agents the number is then a
function of that dict and of the parameters that are in no hash. `Agrees`
follows the first instance's replay and asks, at each step, that the
second one's parameters lead to the same decision; it says nothing of what
the two would do elsewhere.

The hash is assumed to tell apart the values of the two runs at hand, and
no others (`CollisionFree`).
-/
import Proofstand.Agents.Proofs.Snapshot
import Proofstand.Orchestrator.Proofs.Baselines
import Proofstand.Orchestrator.Proofs.Delta

namespace Proofstand

open Fallible Harness

variable {K : Type} [Field K] [LinearOrder K] [FloorRing K]

-- ====================================================== built instances

/-- What `build_agent` makes for the three ids, constructor parameters
and all. -/
inductive Built (K : Type)
  | bnbGrid (a : BnbGrid.BnbGridAgent K)
  | pcsRebalancer (a : PcsRebalancer.PcsRebalancerAgent K)
  | venusGuard (a : VenusGuard.VenusGuardAgent K)

namespace Built

def manifest : Built K → Manifest K
  | bnbGrid _ => BnbGrid.manifest
  | pcsRebalancer _ => PcsRebalancer.manifest
  | venusGuard _ => VenusGuard.manifest

/-- `run_hire` on the instance. -/
def runHire (sha : PyVal K → String) (lib : Libm K) (x : Built K)
    (tier : Nat) (raw : Dict K) (signer : Option String)
    (atObserve atBaseline : World K) : Py (HireOutcome K) :=
  match x with
  | bnbGrid a =>
      Harness.runHire sha lib a.agent tier raw signer atObserve atBaseline
  | pcsRebalancer a =>
      Harness.runHire sha lib (a.agent lib) tier raw signer atObserve
        atBaseline
  | venusGuard a =>
      Harness.runHire sha lib (a.agent lib) tier raw signer atObserve
        atBaseline

/-- The dict of the instance's observation on accepted inputs. -/
def snapshot (lib : Libm K) (x : Built K) (inputs : Dict K)
    (atObserve : World K) : Py (PyVal K) :=
  match x with
  | bnbGrid a => do
      let (d, _) ← a.observe (a.agent).init inputs atObserve
      pure d.toVal
  | pcsRebalancer a => do
      let (d, _) ← a.observe lib (a.agent lib).init inputs atObserve
      pure d.toVal
  | venusGuard a => do
      let (d, _) ← a.observe lib (a.agent lib).init inputs atObserve
      pure d.toVal

/-- `v` is the task or the snapshot that the run hashes. -/
def Hashes (lib : Libm K) (x : Built K) (tier : Nat) (raw : Dict K)
    (atObserve : World K) (v : PyVal K) : Prop :=
  ∃ inputs, acceptInputs x.manifest tier raw = .ok inputs
    ∧ (v = task x.manifest tier inputs
      ∨ x.snapshot lib inputs atObserve = .ok v)

/-- Along `x`'s replay of what it observes, the parameters `x` and `y` do
not hash make no difference to a step. -/
def Agrees (lib : Libm K) (x y : Built K) (raw : Dict K)
    (atObserve : World K) : Prop :=
  match x, y with
  | pcsRebalancer a, pcsRebalancer b => ∀ inputs d s,
      acceptInputs PcsRebalancer.manifest 1 raw = .ok inputs →
      a.observe lib (a.agent lib).init inputs atObserve = .ok (d, s) →
      PcsRebalancer.SameCheckpoints lib a b d
  | venusGuard a, venusGuard b => ∀ inputs d s,
      acceptInputs VenusGuard.manifest 1 raw = .ok inputs →
      a.observe lib (a.agent lib).init inputs atObserve = .ok (d, s) →
      VenusGuard.SamePlan lib a b d
  | _, _ => True

end Built

/-- `canonical_hash` tells the values of `us` from those of `vs`. -/
def CollisionFree (sha : PyVal K → String) (us vs : PyVal K → Prop) : Prop :=
  ∀ u v, us u → vs v → canonicalHash sha u = canonicalHash sha v →
    u.canon = v.canon

-- ============================================ what a run went through

namespace Built

variable {sha : PyVal K → String} {lib : Libm K} {raw : Dict K}
  {signer : Option String} {w₀ w₁ : World K} {out : HireOutcome K}

/-- A run hashes its task, -/
theorem task_of_run {x : Built K}
    (h : x.runHire sha lib 1 raw signer w₀ w₁ = .ok out) :
    ∃ inputs, acceptInputs x.manifest 1 raw = .ok inputs
      ∧ out.taskHash = canonicalHash sha (task x.manifest 1 inputs) := by
  cases x with
  | bnbGrid a =>
      obtain ⟨inputs, -, -, -, -, -, -, hin, -, -, -, -, -, htask, -⟩ :=
        runHire_eq_ok h
      exact ⟨inputs, hin, htask⟩
  | pcsRebalancer a =>
      obtain ⟨inputs, -, -, -, -, -, -, hin, -, -, -, -, -, htask, -⟩ :=
        runHire_eq_ok h
      exact ⟨inputs, hin, htask⟩
  | venusGuard a =>
      obtain ⟨inputs, -, -, -, -, -, -, hin, -, -, -, -, -, htask, -⟩ :=
        runHire_eq_ok h
      exact ⟨inputs, hin, htask⟩

/-- and the grid's publishes the net result of its replay, -/
theorem bnbGrid_run {a : BnbGrid.BnbGridAgent K}
    (h : (bnbGrid a).runHire sha lib 1 raw signer w₀ w₁ = .ok out) :
    ∃ inputs d s dec actions t r,
      a.observe (a.agent).init inputs w₀ = .ok (d, s)
      ∧ (bnbGrid a).Hashes lib 1 raw w₀ d.toVal
      ∧ BnbGrid.BnbGridAgent.decide d = .ok dec
      ∧ a.act s dec = .ok (actions, t) ∧ t.sim = some r
      ∧ out.agentValue = r.netPnlUsd
      ∧ out.dataSnapshotHash = canonicalHash sha d.toVal := by
  obtain ⟨inputs, d, s, dec, ctx, actions, t, hin, hobserve, hdecide, -,
    hact, hreport, -, hsnap⟩ := runHire_eq_ok h
  have hhashes : (bnbGrid a).snapshot lib inputs w₀ = .ok d.toVal := by
    unfold snapshot
    exact bind_eq_ok.2 ⟨(d, s), hobserve, rfl⟩
  cases hsim : t.sim with
  | none =>
      have hreport' : BnbGrid.BnbGridAgent.report t = .ok out.agentRun :=
        hreport
      unfold BnbGrid.BnbGridAgent.report at hreport'
      rw [hsim] at hreport'
      cases hreport'
  | some r =>
      have hreport' : BnbGrid.BnbGridAgent.report t = .ok out.agentRun :=
        hreport
      unfold BnbGrid.BnbGridAgent.report at hreport'
      rw [hsim] at hreport'
      refine ⟨inputs, d, s, dec, actions, t, r, hobserve,
        ⟨inputs, hin, Or.inr hhashes⟩, hdecide, hact, hsim, ?_, hsnap⟩
      unfold HireOutcome.agentValue
      rw [← Except.ok.inj hreport']
      rfl

/-- the rebalancer's that of its range's, -/
theorem pcsRebalancer_run {a : PcsRebalancer.PcsRebalancerAgent K}
    (h : (pcsRebalancer a).runHire sha lib 1 raw signer w₀ w₁ = .ok out) :
    ∃ inputs d s dec p r,
      acceptInputs PcsRebalancer.manifest 1 raw = .ok inputs
      ∧ a.observe lib (a.agent lib).init inputs w₀ = .ok (d, s)
      ∧ (pcsRebalancer a).Hashes lib 1 raw w₀ d.toVal
      ∧ PcsRebalancer.PcsRebalancerAgent.decide lib d = .ok dec
      ∧ a.simParams d = .ok p
      ∧ PcsRebalancer.simulateRebalancer lib d.simPoolKlines dec.params p
          = .ok r
      ∧ out.agentValue = r.netFeesUsd
      ∧ out.dataSnapshotHash = canonicalHash sha d.toVal := by
  obtain ⟨inputs, d, s, dec, ctx, actions, t, hin, hobserve, hdecide, hctx,
    hact, hreport, -, hsnap⟩ := runHire_eq_ok h
  have hhashes : (pcsRebalancer a).snapshot lib inputs w₀ = .ok d.toVal := by
    unfold snapshot
    exact bind_eq_ok.2 ⟨(d, s), hobserve, rfl⟩
  obtain ⟨hkept, -⟩ := PcsRebalancer.observe_eq_ok hobserve
  obtain ⟨htier, -⟩ := forTier_cases hctx
  obtain ⟨p, r, hp, hr, hsim⟩ :=
    PcsRebalancer.act_eq_ok hkept (by omega) hact
  have hreport' : PcsRebalancer.PcsRebalancerAgent.report t
      = .ok out.agentRun := hreport
  unfold PcsRebalancer.PcsRebalancerAgent.report at hreport'
  rw [hsim] at hreport'
  refine ⟨inputs, d, s, dec, p, r, hin, hobserve,
    ⟨inputs, hin, Or.inr hhashes⟩, hdecide, hp, hr, ?_, hsnap⟩
  unfold HireOutcome.agentValue
  rw [← Except.ok.inj hreport']
  rfl

/-- and the guard's what it saved. -/
theorem venusGuard_run {a : VenusGuard.VenusGuardAgent K}
    (h : (venusGuard a).runHire sha lib 1 raw signer w₀ w₁ = .ok out) :
    ∃ inputs d s dec g,
      acceptInputs VenusGuard.manifest 1 raw = .ok inputs
      ∧ a.observe lib (a.agent lib).init inputs w₀ = .ok (d, s)
      ∧ (venusGuard a).Hashes lib 1 raw w₀ d.toVal
      ∧ a.decide lib d = .ok dec
      ∧ VenusGuard.replayGuarded d.position d.ratioPath
          (VenusGuard.VenusGuardAgent.planOf d dec.params) = .ok g
      ∧ out.agentValue = g.usdSaved
      ∧ out.dataSnapshotHash = canonicalHash sha d.toVal := by
  obtain ⟨inputs, d, s, dec, ctx, actions, t, hin, hobserve, hdecide, -,
    hact, hreport, -, hsnap⟩ := runHire_eq_ok h
  have hhashes : (venusGuard a).snapshot lib inputs w₀ = .ok d.toVal := by
    unfold snapshot
    exact bind_eq_ok.2 ⟨(d, s), hobserve, rfl⟩
  obtain ⟨-, hkept, -⟩ := VenusGuard.observe_eq_ok hobserve
  obtain ⟨g, hg, hguarded⟩ := VenusGuard.act_eq_ok hkept hact
  have hreport' : VenusGuard.VenusGuardAgent.report t = .ok out.agentRun :=
    hreport
  unfold VenusGuard.VenusGuardAgent.report at hreport'
  rw [hguarded] at hreport'
  refine ⟨inputs, d, s, dec, g, hin, hobserve,
    ⟨inputs, hin, Or.inr hhashes⟩, hdecide, hg, ?_, hsnap⟩
  unfold HireOutcome.agentValue
  rw [← Except.ok.inj hreport']
  rfl

-- ============================================================== two runs

variable {raw' : Dict K} {signer' : Option String} {w₀' w₁' : World K}
  {out' : HireOutcome K}

/-- Equal task hashes are of one agent. -/
theorem id_of_taskHash {x y : Built K}
    (hx : x.runHire sha lib 1 raw signer w₀ w₁ = .ok out)
    (hy : y.runHire sha lib 1 raw' signer' w₀' w₁' = .ok out')
    (hcf : CollisionFree sha (x.Hashes lib 1 raw w₀)
      (y.Hashes lib 1 raw' w₀'))
    (htask : out.taskHash = out'.taskHash) :
    x.manifest.id = y.manifest.id := by
  obtain ⟨inputs, hin, hhash⟩ := task_of_run hx
  obtain ⟨inputs', hin', hhash'⟩ := task_of_run hy
  have hcanon := hcf _ _ ⟨inputs, hin, Or.inl rfl⟩
    ⟨inputs', hin', Or.inl rfl⟩ (hhash.symm.trans (htask.trans hhash'))
  simpa using PyVal.entry_of_canon_eq hcanon (k := "agent") rfl rfl

/-- Two tier-1 runs, of any instances, on any inputs and in any worlds,
that hash the same task and the same snapshot report the same number, if
the unhashed parameters make no difference to a step. -/
theorem agentValue_of_hashes {x y : Built K}
    (hx : x.runHire sha lib 1 raw signer w₀ w₁ = .ok out)
    (hy : y.runHire sha lib 1 raw' signer' w₀' w₁' = .ok out')
    (hcf : CollisionFree sha (x.Hashes lib 1 raw w₀)
      (y.Hashes lib 1 raw' w₀'))
    (htask : out.taskHash = out'.taskHash)
    (hsnap : out.dataSnapshotHash = out'.dataSnapshotHash)
    (hagree : x.Agrees lib y raw w₀) :
    out.agentValue = out'.agentValue := by
  have hid : x.manifest.id = y.manifest.id :=
    id_of_taskHash hx hy hcf htask
  cases x with
  | bnbGrid a =>
      cases y with
      | bnbGrid b =>
          obtain ⟨inputs, d, s, dec, acts, t, r, hobserve, hd, hdecide, hact,
            hsim, hvalue, hhash⟩ := bnbGrid_run hx
          obtain ⟨inputs', e, s', dec', acts', t', r', hobserve', he,
            hdecide', hact', hsim', hvalue', hhash'⟩ := bnbGrid_run hy
          have hcanon : d.toVal.canon = e.toVal.canon :=
            hcf _ _ hd he (hhash.symm.trans (hsnap.trans hhash'))
          have hsame := BnbGrid.netPnl_of_canon_eq hcanon
            (BnbGrid.observe_eq_ok hobserve) (BnbGrid.observe_eq_ok hobserve')
            hdecide hdecide' hact hact'
          rw [hsim, hsim'] at hsame
          rw [hvalue, hvalue', Option.some.inj hsame]
      | pcsRebalancer b => exact absurd hid (by simp [manifest,
          BnbGrid.manifest, PcsRebalancer.manifest])
      | venusGuard b => exact absurd hid (by simp [manifest,
          BnbGrid.manifest, VenusGuard.manifest])
  | pcsRebalancer a =>
      cases y with
      | pcsRebalancer b =>
          obtain ⟨inputs, d, s, dec, p, r, hin, hobserve, hd, hdecide, hp, hr,
            hvalue, hhash⟩ := pcsRebalancer_run hx
          obtain ⟨-, e, -, dec', p', r', -, -, he, hdecide', hp', hr',
            hvalue', hhash'⟩ := pcsRebalancer_run hy
          have hcanon : d.toVal.canon = e.toVal.canon :=
            hcf _ _ hd he (hhash.symm.trans (hsnap.trans hhash'))
          have hsame := PcsRebalancer.netFees_of_sameCheckpoints hcanon
            (hagree inputs d s hin hobserve) hdecide hdecide' hp hp' hr hr'
          rw [hvalue, hvalue', hsame]
      | bnbGrid b => exact absurd hid (by simp [manifest,
          BnbGrid.manifest, PcsRebalancer.manifest])
      | venusGuard b => exact absurd hid (by simp [manifest,
          PcsRebalancer.manifest, VenusGuard.manifest])
  | venusGuard a =>
      cases y with
      | venusGuard b =>
          obtain ⟨inputs, d, s, dec, g, hin, hobserve, hd, hdecide, hg,
            hvalue, hhash⟩ := venusGuard_run hx
          obtain ⟨-, e, -, dec', g', -, -, he, hdecide', hg', hvalue',
            hhash'⟩ := venusGuard_run hy
          have hcanon : d.toVal.canon = e.toVal.canon :=
            hcf _ _ hd he (hhash.symm.trans (hsnap.trans hhash'))
          have hsame := VenusGuard.usdSaved_of_samePlan hcanon
            (hagree inputs d s hin hobserve) hdecide hdecide' hg hg'
          rw [hvalue, hvalue', hsame]
      | bnbGrid b => exact absurd hid (by simp [manifest,
          BnbGrid.manifest, VenusGuard.manifest])
      | pcsRebalancer b => exact absurd hid (by simp [manifest,
          PcsRebalancer.manifest, VenusGuard.manifest])

-- ======================================================= runs in a pair

/-- A hash that tells tasks from snapshots, and nothing else. -/
def splitHash (v : PyVal ℚ) : String :=
  if v.hasKey "agent" then "task" else "snapshot"

/-- A snapshot has no key that a task has, -/
theorem get?_agent_of_snapshot {x : Built K} {inputs : Dict K}
    {w : World K} {v : PyVal K} (h : x.snapshot lib inputs w = .ok v) :
    v.get? "agent" = none := by
  cases x with
  | bnbGrid a =>
      obtain ⟨⟨d, s⟩, -, hv⟩ := bind_eq_ok.1 h
      cases hv
      rfl
  | pcsRebalancer a =>
      obtain ⟨⟨d, s⟩, -, hv⟩ := bind_eq_ok.1 h
      cases hv
      rfl
  | venusGuard a =>
      obtain ⟨⟨d, s⟩, -, hv⟩ := bind_eq_ok.1 h
      cases hv
      rfl

/-- so this hash has one value on tasks, -/
theorem splitHash_task (m : Manifest ℚ) (inputs : Dict ℚ) :
    canonicalHash splitHash (task m 1 inputs) = "task" := by
  unfold canonicalHash splitHash PyVal.hasKey
  rw [PyVal.get?_canon]
  rfl

/-- and another on snapshots. -/
theorem splitHash_snapshot {lib : Libm ℚ} {x : Built ℚ} {inputs : Dict ℚ}
    {w : World ℚ} {v : PyVal ℚ} (h : x.snapshot lib inputs w = .ok v) :
    canonicalHash splitHash v = "snapshot" := by
  unfold canonicalHash splitHash PyVal.hasKey
  rw [PyVal.get?_canon, get?_agent_of_snapshot h]
  rfl

/-- It is collision-free on two runs that hash the same two values. -/
theorem splitHash_collisionFree {lib : Libm ℚ} {x y : Built ℚ}
    {raw : Dict ℚ} {w : World ℚ} (hm : x.manifest = y.manifest)
    (hs : ∀ inputs, x.snapshot lib inputs w = y.snapshot lib inputs w) :
    CollisionFree splitHash (x.Hashes lib 1 raw w)
      (y.Hashes lib 1 raw w) := by
  intro u v h
  obtain ⟨inputs, hin, hu⟩ := h
  intro h
  obtain ⟨inputs', hin', hv⟩ := h
  intro heq
  rw [← hm, hin] at hin'
  cases hin'
  rcases hu with rfl | hu
  · rcases hv with rfl | hv
    · rw [hm]
    · rw [splitHash_task, splitHash_snapshot hv] at heq
      exact absurd heq (by decide)
  · rcases hv with rfl | hv
    · rw [splitHash_snapshot hu, splitHash_task] at heq
      exact absurd heq (by decide)
    · rw [hs, hv] at hu
      cases hu
      rfl

/-- Two runs of `raw`, evaluated to the end, that hash alike. -/
theorem exists_runs (x y : Built ℚ) (raw : Dict ℚ) (w₀ w₁ w₀' w₁' : World ℚ)
    (p : ℚ → ℚ → Bool)
    (h : (okAnd (x.runHire splitHash ratMath 1 raw none w₀ w₁) fun out =>
      okAnd (y.runHire splitHash ratMath 1 raw none w₀' w₁') fun out' =>
        decide (out.taskHash = out'.taskHash
          ∧ out.dataSnapshotHash = out'.dataSnapshotHash)
        && p out.agentValue out'.agentValue) = true) :
    ∃ out out', x.runHire splitHash ratMath 1 raw none w₀ w₁ = .ok out
      ∧ y.runHire splitHash ratMath 1 raw none w₀' w₁' = .ok out'
      ∧ out.taskHash = out'.taskHash
      ∧ out.dataSnapshotHash = out'.dataSnapshotHash
      ∧ p out.agentValue out'.agentValue = true := by
  obtain ⟨out, hout, hrest⟩ := exists_of_okAnd h
  obtain ⟨out', hout', hfacts⟩ := exists_of_okAnd hrest
  rw [Bool.and_eq_true, decide_eq_true_iff] at hfacts
  exact ⟨out, out', hout, hout', hfacts.1.1, hfacts.1.2, hfacts.2⟩

/-- A guard that pads its recovery target by `pad`. -/
def padded (pad : ℚ) : Built ℚ := venusGuard ⟨0, 6, 365, pad⟩

def guardInputs500 : Dict ℚ :=
  [("account", .str "0x00000000000000000000000000000000000000aa"),
   ("buffer_amount", .int 500)]

/-- 2700 of debt on 3000, and a price that loses 5 % at the end. -/
def crash : World ℚ := VenusGuard.crashWorld 2700 (19 / 20)

/-- Two guards that differ in `recovery_pad` alone hash one task and one
snapshot; the one with the smaller pad repays twice, and pays for gas
twice. -/
theorem number_moves_with_pad :
    ∃ out out',
      (padded (1 / 20)).runHire splitHash ratMath 1 guardInputs500 none crash
          crash = .ok out
      ∧ (padded (1 / 5)).runHire splitHash ratMath 1 guardInputs500 none crash
          crash = .ok out'
      ∧ CollisionFree splitHash
          ((padded (1 / 20)).Hashes ratMath 1 guardInputs500 crash)
          ((padded (1 / 5)).Hashes ratMath 1 guardInputs500 crash)
      ∧ out.taskHash = out'.taskHash
      ∧ out.dataSnapshotHash = out'.dataSnapshotHash
      ∧ out.agentValue ≠ out'.agentValue := by
  obtain ⟨out, out', hout, hout', htask, hsnap, hvalue⟩ :=
    exists_runs (padded (1 / 20)) (padded (1 / 5)) guardInputs500 crash crash
      crash crash (fun v v' => v ≠ v') (by decide +kernel)
  exact ⟨out, out', hout, hout',
    splitHash_collisionFree rfl (fun _ => rfl), htask, hsnap,
    of_decide_eq_true hvalue⟩

/-- A guard whose trigger is the one it is asked for: a small `z` scales
to less. -/
def asked (z window : ℚ) : Built ℚ := venusGuard ⟨z, window, 365, 1 / 20⟩

/-- So it is with these two, on what they observe of the crash. -/
theorem agrees_asked :
    (asked (1 / 10) 6).Agrees ratMath (asked (1 / 5) 12) guardInputs500
      crash := by
  intro inputs d s hin hobserve
  have htriggers : (okAnd (acceptInputs VenusGuard.manifest 1 guardInputs500)
      fun inputs => okAnd (VenusGuard.VenusGuardAgent.observe
        ⟨1 / 10, 6, 365, 1 / 20⟩ ratMath ⟨none, none, none⟩ inputs crash)
      fun (d, _) => okAnd (VenusGuard.VenusGuardAgent.trigger
        ⟨1 / 10, 6, 365, 1 / 20⟩ ratMath d)
      fun t => okAnd (VenusGuard.VenusGuardAgent.trigger
        ⟨1 / 5, 12, 365, 1 / 20⟩ ratMath d)
      fun t' => decide (t = t')) = true := by decide +kernel
  obtain ⟨inputs', hin', hrest⟩ := exists_of_okAnd htriggers
  cases hin.symm.trans hin'
  obtain ⟨⟨d', s'⟩, hobserve', hrest⟩ := exists_of_okAnd hrest
  cases hobserve.symm.trans hobserve'
  obtain ⟨t, ht, hrest⟩ := exists_of_okAnd hrest
  obtain ⟨t', ht', heq⟩ := exists_of_okAnd hrest
  rw [of_decide_eq_true heq, ← ht'] at ht
  exact VenusGuard.samePlan_of_trigger ht rfl

/-- A grid hire keeps its number while the gas price trebles before the
baseline, and two guards that respond in 6 and in 12 hours save the same
through one crash. -/
theorem number_of_like_hires :
    (∃ out out',
      (bnbGrid Baselines.plainGrid).runHire splitHash ratMath 1
          Baselines.gridInputs none (Baselines.gasWorld 1000000000 600)
          (Baselines.gasWorld 1000000000 600) = .ok out
      ∧ (bnbGrid Baselines.plainGrid).runHire splitHash ratMath 1
          Baselines.gridInputs none (Baselines.gasWorld 1000000000 600)
          (Baselines.gasWorld 3000000000 600) = .ok out'
      ∧ out.agentValue = out'.agentValue)
    ∧ ∃ out out',
      (asked (1 / 10) 6).runHire splitHash ratMath 1 guardInputs500 none
          crash crash = .ok out
      ∧ (asked (1 / 5) 12).runHire splitHash ratMath 1 guardInputs500 none
          crash crash = .ok out'
      ∧ out.agentValue ≠ 0 ∧ out.agentValue = out'.agentValue := by
  constructor
  · obtain ⟨out, out', hout, hout', htask, hsnap, -⟩ :=
      exists_runs (bnbGrid Baselines.plainGrid)
        (bnbGrid Baselines.plainGrid) Baselines.gridInputs
        (Baselines.gasWorld 1000000000 600) (Baselines.gasWorld 1000000000 600)
        (Baselines.gasWorld 1000000000 600) (Baselines.gasWorld 3000000000 600)
        (fun _ _ => true) (by decide +kernel)
    exact ⟨out, out', hout, hout',
      agentValue_of_hashes hout hout'
        (splitHash_collisionFree rfl (fun _ => rfl)) htask hsnap trivial⟩
  · obtain ⟨out, out', hout, hout', htask, hsnap, hsaved⟩ :=
      exists_runs (asked (1 / 10) 6) (asked (1 / 5) 12) guardInputs500 crash
        crash crash crash (fun v _ => v ≠ 0) (by decide +kernel)
    exact ⟨out, out', hout, hout', of_decide_eq_true hsaved,
      agentValue_of_hashes hout hout'
        (splitHash_collisionFree rfl (fun _ => rfl)) htask hsnap
        agrees_asked⟩

end Built

end Proofstand
