/-
The mint rule on a source that is not verified.

The rule looks for `mint` among the functions that matched, and those are
read off the verified ABI. Where the source is not verified there is no
ABI and nothing matches (`checkDangerousFunctions_unverified`), so the
hard fail that asks for both can never be made (`mint_unflagged`).

# Three evidences, one of them empty

The rule needs a `mint` among the matched functions, an owner that is an
account and has not renounced, and a source that is not verified. The
first comes from the ABI, and there is no ABI without a verified source:
`checkDangerousFunctions_unverified` says that nothing has matched. The
conjunction is therefore false for every fork, every trade and every
answer of the explorer, whether the check ran or raised, since what
replaces a raised check has no evidence at all.

No check has the hard fail's name either (`runChecks_name_ne`), so it can
not come in by another way. What a token with a `mint` costs its report is
then nothing.
-/
import Proofstand.Agents.Proofs.Trade
import Proofstand.Agents.Proofs.Scoring

namespace Proofstand.BscSentry

open Fallible

variable {K : Type} [Field K] [LinearOrder K]

-- ================================================ statement vocabulary

/-- The selector of `mint(address,uint256)`. -/
def mintSelector : Hex.Bytes := [0x40, 0xc1, 0x0f, 0x19]

/-- The deployed contract can mint, and its owner is an EOA that has not
renounced. -/
def EoaMints (f : Fork) (target : String) : Prop :=
  ∃ address head code owner, f.toChecksumAddress target = .ok address
    ∧ f.blockNumber = .ok head ∧ f.getCode address (some head) = .ok code
    ∧ mintSelector <:+: code ∧ firstOwner f address = some owner
    ∧ isRenounced owner = false ∧ ownerCodeSize f owner = .ok 0

/-- No source, or one that is not verified. -/
def Unverified (source : Option (ContractSource K)) : Prop :=
  ∀ s, source = some s → s.verified = false

/-- The report says so: the hard fail, and the verdict it forces. -/
def FlagsMint (report : Report K) : Prop :=
  "unrenounced_mint_unverified" ∈ report.hardFails
    ∧ report.verdict = .CRITICAL

-- ==================================================== nothing to match

theorem checkDangerousFunctions_unverified
    {source : Option (ContractSource K)} (h : Unverified source) :
    checkDangerousFunctions source = .ok
      { name := "dangerous_functions", status := .unknown, score := 0
        evidence := [("matched", .list [])]
        reason := "source not verified — cannot scan the ABI" } := by
  cases source with
  | none => rfl
  | some s =>
      unfold checkDangerousFunctions
      rw [Option.bind_some, h s rfl]
      rfl

section

omit [Field K] [LinearOrder K] in
/-- A check that counts under a name is one of the checks. -/
theorem mem_of_byName {checks : List (Check K)} {name : String}
    {c : Check K} (h : byName checks name = some c) :
    c ∈ checks ∧ c.name = name := by
  have hname := List.find?_some h
  exact ⟨List.mem_reverse.1 (List.mem_of_find?_eq_some h),
    of_decide_eq_true hname⟩

variable [FloorRing K] [IsStrictOrderedRing K]
variable {f : Fork} {target : String} {sim : ForkSimResult K}
  {source : Option (ContractSource K)}

theorem mintByEoa_unverified (h : Unverified source) :
    mintByEoa (runChecks f target sim source) = .ok false := by
  unfold mintByEoa
  cases hdf : byName (runChecks f target sim source)
      "dangerous_functions" with
  | none => rfl
  | some df =>
      cases byName (runChecks f target sim source) "ownership" with
      | none => rfl
      | some own =>
          obtain ⟨hmem, hname⟩ := mem_of_byName hdf
          have hmatched : df.evidence.lookup "matched" = some (.list []) := by
            rcases runChecks_cases hmem with hsim | rfl | hrun | hother
            · rcases checksFromSim_name hsim with hsim | hsim
              · rw [hsim] at hname
                exact absurd hname (by decide)
              · rw [hsim] at hname
                exact absurd hname (by decide)
            · rw [checkSourceVerified_name] at hname
              exact absurd hname (by decide)
            · rw [checkDangerousFunctions_unverified h] at hrun
              cases hrun
              rfl
            · rw [hname] at hother
              exact absurd hother (by decide)
          dsimp only
          rw [hmatched]
          rfl

/-- No check is named as the mint rule's hard fail. -/
theorem runChecks_name_ne {c : Check K}
    (h : c ∈ runChecks f target sim source) :
    c.name ≠ "unrenounced_mint_unverified" := by
  intro hname
  rcases runChecks_cases h with hsim | rfl | hrun | hother
  · rcases checksFromSim_name hsim with hsim | hsim
    · rw [hsim] at hname
      exact absurd hname (by decide)
    · rw [hsim] at hname
      exact absurd hname (by decide)
  · rw [checkSourceVerified_name] at hname
    exact absurd hname (by decide)
  · rw [checkDangerousFunctions_name hrun] at hname
    exact absurd hname (by decide)
  · rw [hname] at hother
    exact absurd hother (by decide)

/-- Whatever the contract can do and whoever owns it, a report on a
source that is not verified does not flag its mint. -/
theorem mint_unflagged (f : Fork) (target : String) (sim : ForkSimResult K)
    (source : Option (ContractSource K)) (h : Unverified source) :
    ∃ report,
      scoreReport target (runChecks f target sim source) = .ok report
        ∧ "unrenounced_mint_unverified" ∉ report.hardFails
        ∧ ¬ FlagsMint report := by
  obtain ⟨report, hreport, -⟩ := report_of_runChecks f target sim source
  have habsent : "unrenounced_mint_unverified" ∉ report.hardFails := by
    obtain ⟨byEoa, hby, hfails, -⟩ := scoreReport_eq_ok hreport
    rw [mintByEoa_unverified h] at hby
    cases hby
    rw [hfails]
    unfold hardFails
    intro hin
    simp only [Bool.false_and, Bool.false_eq_true, if_false,
      List.append_nil] at hin
    obtain ⟨c, hc, hname⟩ := List.mem_map.1 hin
    exact runChecks_name_ne (List.mem_filter.1 hc).1 hname
  exact ⟨report, hreport, habsent, fun hflags => habsent hflags.1⟩

end

-- ============================================================== a token

/-- A token with a `mint` in its code, owned by a key. -/
def mintable : Fork where
  toChecksumAddress := .ok
  ownerCall _ _ := .ok "0xa1"
  getCode address _ :=
    .ok (if address = "0xa1" then []
      else [0x63, 0x40, 0xc1, 0x0f, 0x19, 0x14])
  getStorageAt _ _ := .ok (List.replicate 32 0)
  blockNumber := .ok 5000001
  getPair _ _ := .ok "0x9a"
  totalSupply _ := .ok 100
  balanceOf _ _ := .ok 50

/-- BscScan, which has no verified source. -/
def scanner : BscScan ℚ where
  call _ := .ok (.dict
    [("status", .str "1"), ("message", .str "OK"),
     ("result", .list [.dict
       [("SourceCode", .str ""),
        ("ABI", .str "Contract source code not verified"),
        ("ContractName", .str ""), ("CompilerVersion", .str ""),
        ("Proxy", .str "0"), ("Implementation", .str "")]])])
  loads _ := raise .ValueError "Expecting value"

/-- The token of the example is one an account mints. -/
theorem eoaMints_mintable : EoaMints mintable "0x70" := by
  refine ⟨"0x70", 5000001, [0x63, 0x40, 0xc1, 0x0f, 0x19, 0x14], "0xa1", rfl,
    rfl, rfl, ⟨[0x63], [0x14], rfl⟩, rfl, by decide +kernel, by decide +kernel⟩

/-- The rug the rule is there for is reported as OK. -/
theorem eoa_mint_reported_ok :
    EoaMints mintable "0x70"
      ∧ Unverified (getContractSource scanner "0x70").toOption
      ∧ ∃ checks report,
        gather mintable fairTrade scanner "0x70" true = .ok checks
          ∧ scoreReport "0x70" checks = .ok report
          ∧ ¬ FlagsMint report ∧ report.verdict = .OK := by
  refine ⟨eoaMints_mintable, ?_, ?_⟩
  · have hsource : ∃ s, getContractSource scanner "0x70" = .ok s
        ∧ s.verified = false := by
      obtain ⟨s, hs, hverified⟩ := exists_of_okAnd
        (x := getContractSource scanner "0x70") (p := fun s => !s.verified)
        (by decide +kernel)
      exact ⟨s, hs, by simpa using hverified⟩
    obtain ⟨s, hs, hverified⟩ := hsource
    rw [hs]
    intro s' h
    cases h
    exact hverified
  · obtain ⟨checks, hchecks, hrun⟩ := exists_of_okAnd
      (x := gather mintable fairTrade scanner "0x70" true)
      (p := fun checks => okAnd (scoreReport "0x70" checks) fun report =>
        decide (report.hardFails = [] ∧ report.verdict = .OK))
      (by decide +kernel)
    obtain ⟨report, hreport, hsays⟩ := exists_of_okAnd hrun
    obtain ⟨hnone, hok⟩ := of_decide_eq_true hsays
    refine ⟨checks, report, hchecks, hreport, ?_, hok⟩
    intro h
    obtain ⟨hin, -⟩ := h
    rw [hnone] at hin
    cases hin

/-- The rule over a source that could not be fetched at all. -/
theorem mint_unflagged_mintable :
    ∃ report, scoreReport "0x70" (runChecks (K := ℚ) mintable "0x70"
        { target := "0x70", pairFound := false } none) = .ok report
      ∧ "unrenounced_mint_unverified" ∉ report.hardFails
      ∧ ¬ FlagsMint report :=
  mint_unflagged mintable "0x70" { target := "0x70", pairFound := false }
    none nofun

end Proofstand.BscSentry
