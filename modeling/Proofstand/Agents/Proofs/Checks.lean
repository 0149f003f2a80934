/-
What holds of every check the sentry makes.

Its score is in the unit interval, only a fail is a hard fail, and what
`dangerous_functions` matched is a list of texts (`Valid`). So the report
on a gathered list is always reached, with a score in 0..100
(`report_of_runChecks`).

# Why it is proved of every check

The report goes through what `dangerous_functions` matched and asks each
entry for its `lower()`, and evidence can hold anything. That it never
fails is a fact about where the evidence comes from: the matched names are
texts, because they were read off an ABI and compared with a list of
texts. `Valid` keeps that with the two other facts the score needs, and
each check has its lemma; `attempt` keeps it since what replaces a check
that raised is no hard fail and goes by another name.

# Names

The rule on minting and the weights go by name, so it matters under which
names a gathered list has its checks (`runChecks_cases`): the two of the
trade, the one of the source, and the others, whose replacements share the
name of a lambda.
-/
import Proofstand.Agents.BscSentry.Checks
import Proofstand.Agents.Proofs.Scoring

namespace Proofstand.BscSentry

open Fallible

variable {K : Type} [Field K] [LinearOrder K]

-- ================================================== the checks are valid

/-- What every check keeps to: a score from 0 to 1, a hard fail only among
the failed, and texts for the names that matched. -/
structure Valid (c : Check K) : Prop where
  nonneg : 0 ≤ c.score
  le_one : c.score ≤ 1
  fails : c.hardFail = true → c.status = .fail
  matched : c.name = "dangerous_functions" → ∃ names : List String,
    c.evidence.lookup "matched" = some (.list (names.map .str))

/-- Any other check says nothing of what matched. -/
theorem valid_mk {name : String}
    {status : CheckStatus} {score : K} {evidence : Dict K} {reason : String}
    {hardFail : Bool} (hscore : 0 ≤ score ∧ score ≤ 1)
    (hfails : hardFail = true → status = .fail)
    (hname : name ≠ "dangerous_functions") :
    Valid ⟨name, status, score, evidence, reason, hardFail⟩ where
  nonneg := hscore.1
  le_one := hscore.2
  fails := hfails
  matched := fun h => absurd h hname

theorem Valid.hardFail_of_unknown {c : Check K} (h : Valid c)
    (hc : c.status = .unknown) : c.hardFail = false := by
  by_contra hnot
  have hfail := h.fails (by simpa using hnot)
  rw [hc] at hfail
  cases hfail

variable [IsStrictOrderedRing K]

section

variable [FloorRing K] (sim : ForkSimResult K)

omit [FloorRing K] in
/-- The honeypot axis keeps to it, -/
theorem honeypotCheck_valid : Valid (honeypotCheck sim) := by
  unfold honeypotCheck
  split
  · exact valid_mk (by norm_num) (fun _ => rfl) (by decide)
  · split
    · exact valid_mk (by norm_num) nofun (by decide)
    · exact valid_mk (by norm_num) nofun (by decide)

/-- the tax axis, -/
theorem transferTaxCheck_valid : Valid (transferTaxCheck sim) := by
  unfold transferTaxCheck
  dsimp only
  split
  · exact valid_mk (by norm_num) (fun _ => rfl) (by decide)
  · split
    · exact valid_mk (by norm_num) nofun (by decide)
    · split
      · exact valid_mk (by norm_num) nofun (by decide)
      · exact valid_mk (by norm_num) nofun (by decide)

/-- and so both of a simulated trade, or what stands for them. -/
theorem checksFromSim_valid : ∀ c ∈ checksFromSim sim, Valid c := by
  intro c hc
  unfold checksFromSim at hc
  split at hc
  · simp only [List.mem_cons, List.not_mem_nil, or_false] at hc
    rcases hc with rfl | rfl
    · exact valid_mk (by norm_num) nofun (by decide)
    · exact valid_mk (by norm_num) nofun (by decide)
  · simp only [List.mem_cons, List.not_mem_nil, or_false] at hc
    rcases hc with rfl | rfl
    · exact honeypotCheck_valid sim
    · exact transferTaxCheck_valid sim

end

/-- The ownership axis does, of a known owner -/
theorem ownedCheck_valid (owner : String) (codeSize : Nat) :
    (ownedCheck (K := K) owner codeSize).name = "ownership"
      ∧ Valid (ownedCheck (K := K) owner codeSize) := by
  unfold ownedCheck
  dsimp only
  split
  · exact ⟨rfl, valid_mk (by norm_num) nofun (by decide)⟩
  · split
    · exact ⟨rfl, valid_mk (by norm_num) nofun (by decide)⟩
    · exact ⟨rfl, valid_mk (by norm_num) nofun (by decide)⟩

section

variable {f : Fork} {target : String} {c : Check K}

/-- and of any; -/
theorem checkOwnership_valid (h : checkOwnership f target = .ok c) :
    c.name = "ownership" ∧ Valid c := by
  obtain ⟨address, -, h⟩ := bind_eq_ok.1 h
  split at h
  · cases h
    exact ⟨rfl, valid_mk (by norm_num) nofun (by decide)⟩
  · obtain ⟨codeSize, -, h⟩ := bind_eq_ok.1 h
    cases h
    exact ownedCheck_valid _ codeSize

/-- the proxy axis, -/
theorem checkUpgradeableProxy_valid
    (h : checkUpgradeableProxy f target = .ok c) : Valid c := by
  obtain ⟨address, -, h⟩ := bind_eq_ok.1 h
  obtain ⟨implSlot, -, h⟩ := bind_eq_ok.1 h
  obtain ⟨impl, -, h⟩ := bind_eq_ok.1 h
  obtain ⟨adminSlot, -, h⟩ := bind_eq_ok.1 h
  obtain ⟨admin, -, h⟩ := bind_eq_ok.1 h
  obtain ⟨beaconSlot, -, h⟩ := bind_eq_ok.1 h
  obtain ⟨beacon, -, h⟩ := bind_eq_ok.1 h
  obtain ⟨upgradeable, -, h⟩ := bind_eq_ok.1 h
  cases h
  unfold proxyCheck
  dsimp only
  split
  · exact valid_mk (by norm_num) nofun (by decide)
  · exact valid_mk (by norm_num) nofun (by decide)

/-- the source axis, -/
theorem checkSourceVerified_valid (source : Option (ContractSource K)) :
    Valid (checkSourceVerified source) := by
  unfold checkSourceVerified
  split
  · exact valid_mk (by norm_num) nofun (by decide)
  · dsimp only
    split
    · exact valid_mk (by norm_num) nofun (by decide)
    · exact valid_mk (by norm_num) nofun (by decide)

/-- the dangerous functions, of the names that matched -/
theorem matchedCheck_valid (matched : List String) (n : Nat) :
    Valid (matchedCheck (K := K) matched n) := by
  unfold matchedCheck
  dsimp only
  split
  · exact ⟨by norm_num, by norm_num, nofun, fun _ => ⟨matched, rfl⟩⟩
  · split
    · exact ⟨by norm_num, by norm_num, nofun, fun _ => ⟨matched, rfl⟩⟩
    · exact ⟨by norm_num, by norm_num, nofun, fun _ => ⟨matched, rfl⟩⟩

/-- and of any source; -/
theorem checkDangerousFunctions_valid {source : Option (ContractSource K)}
    (h : checkDangerousFunctions source = .ok c) : Valid c := by
  unfold checkDangerousFunctions at h
  split at h
  · cases h
    exact ⟨by norm_num, by norm_num, nofun, fun _ => ⟨[], rfl⟩⟩
  · cases h
    exact ⟨by norm_num, by norm_num, nofun, fun _ => ⟨[], rfl⟩⟩
  · obtain ⟨fns, -, h⟩ := bind_eq_ok.1 h
    obtain ⟨names, -, h⟩ := bind_eq_ok.1 h
    cases h
    exact matchedCheck_valid _ _

variable [FloorRing K]

/-- the pair's tokens, of a known share -/
theorem burnedCheck_valid (pair : String) (supply burned : Nat) :
    (burnedCheck (K := K) pair supply burned).name = "lp_lock"
      ∧ Valid (burnedCheck (K := K) pair supply burned) := by
  unfold burnedCheck
  dsimp only
  generalize (if supply = 0 then (0 : K) else (burned : K) / supply) = pct
  split
  · exact ⟨rfl, valid_mk (by norm_num) nofun (by decide)⟩
  · split
    · exact ⟨rfl, valid_mk (by norm_num) nofun (by decide)⟩
    · exact ⟨rfl, valid_mk (by norm_num) nofun (by decide)⟩

/-- and of any pair; -/
theorem checkLpLock_valid (h : checkLpLock f target = .ok c) :
    c.name = "lp_lock" ∧ Valid c := by
  obtain ⟨address, -, h⟩ := bind_eq_ok.1 h
  obtain ⟨wbnb, -, h⟩ := bind_eq_ok.1 h
  obtain ⟨pair, -, h⟩ := bind_eq_ok.1 h
  obtain ⟨n, -, h⟩ := bind_eq_ok.1 h
  split at h
  · cases h
    exact ⟨rfl, valid_mk (by norm_num) nofun (by decide)⟩
  · obtain ⟨erc20, -, h⟩ := bind_eq_ok.1 h
    obtain ⟨supply, -, h⟩ := bind_eq_ok.1 h
    obtain ⟨balances, -, h⟩ := bind_eq_ok.1 h
    cases h
    exact burnedCheck_valid pair supply balances.sum

/-- the age, of a known creation -/
theorem ageCheck_valid (head creationBlock : Int) :
    Valid (ageCheck (K := K) head creationBlock) := by
  unfold ageCheck
  dsimp only
  split
  · exact valid_mk (by norm_num) nofun (by decide)
  · split
    · exact valid_mk (by norm_num) nofun (by decide)
    · split
      · exact valid_mk (by norm_num) nofun (by decide)
      · exact valid_mk (by norm_num) nofun (by decide)

/-- and of any. -/
theorem checkContractAge_valid (h : checkContractAge f target = .ok c) :
    Valid c := by
  obtain ⟨address, -, h⟩ := bind_eq_ok.1 h
  obtain ⟨head, -, h⟩ := bind_eq_ok.1 h
  obtain ⟨code, -, h⟩ := bind_eq_ok.1 h
  split at h
  · cases h
    exact valid_mk (by norm_num) nofun (by decide)
  · dsimp only at h
    split at h
    · cases h
      exact valid_mk (by norm_num) nofun (by decide)
    · cases h
      exact valid_mk (by norm_num) nofun (by decide)
    · cases h
      exact ageCheck_valid head _

end

-- ============================================================ all of them

/-- What stands for a check that raised keeps to it under every other name. -/
theorem raisedCheck_valid {fnName : String} (e : Exc)
    (h : fnName ≠ "dangerous_functions") :
    Valid (raisedCheck (K := K) fnName e) :=
  valid_mk (by norm_num) nofun h

/-- A check that ran is valid, and so is what stands in for it. -/
theorem attempt_valid {fnName : String} {run : Py (Check K)}
    (hname : fnName ≠ "dangerous_functions")
    (h : ∀ c, run = .ok c → Valid c) : Valid (attempt fnName run) := by
  cases run with
  | error e => exact raisedCheck_valid e hname
  | ok c => exact h c rfl

variable [FloorRing K]

/-- So all checks of a run do. -/
theorem runChecks_valid (f : Fork) (target : String) (sim : ForkSimResult K)
    (source : Option (ContractSource K)) :
    ∀ c ∈ runChecks f target sim source, Valid c := by
  intro c hc
  have hlambda : "<lambda>" ≠ "dangerous_functions" := by decide
  rcases List.mem_append.1 hc with hc | hc
  · exact checksFromSim_valid sim c hc
  · simp only [List.mem_cons, List.not_mem_nil, or_false] at hc
    rcases hc with rfl | rfl | rfl | rfl | rfl | rfl | rfl
    · exact attempt_valid hlambda fun c h => (checkOwnership_valid h).2
    · exact attempt_valid hlambda fun c h => checkUpgradeableProxy_valid h
    · exact checkSourceVerified_valid source
    · exact attempt_valid hlambda fun c h => checkDangerousFunctions_valid h
    · exact attempt_valid hlambda fun c h => (checkLpLock_valid h).2
    · exact attempt_valid hlambda fun c h => checkContractAge_valid h
    · exact valid_mk (by norm_num) nofun (by decide)

-- ================================================== under which name

section

variable {f : Fork} {target : String} {c : Check K}

omit [IsStrictOrderedRing K] in
/-- The checks of a simulated trade go by two names, -/
theorem checksFromSim_name {sim : ForkSimResult K}
    (h : c ∈ checksFromSim sim) :
    c.name = "honeypot" ∨ c.name = "transfer_tax" := by
  unfold checksFromSim at h
  split at h
  · simp only [List.mem_cons, List.not_mem_nil, or_false] at h
    rcases h with rfl | rfl
    · exact Or.inl rfl
    · exact Or.inr rfl
  · simp only [List.mem_cons, List.not_mem_nil, or_false] at h
    rcases h with rfl | rfl
    · left
      unfold honeypotCheck
      split_ifs <;> rfl
    · right
      unfold transferTaxCheck
      dsimp only
      split_ifs <;> rfl

omit [LinearOrder K] [FloorRing K] [IsStrictOrderedRing K] in
/-- and each other check by its own: the proxy, -/
theorem checkUpgradeableProxy_name
    (h : checkUpgradeableProxy f target = .ok c) :
    c.name = "upgradeable_proxy" := by
  obtain ⟨address, -, h⟩ := bind_eq_ok.1 h
  obtain ⟨implSlot, -, h⟩ := bind_eq_ok.1 h
  obtain ⟨impl, -, h⟩ := bind_eq_ok.1 h
  obtain ⟨adminSlot, -, h⟩ := bind_eq_ok.1 h
  obtain ⟨admin, -, h⟩ := bind_eq_ok.1 h
  obtain ⟨beaconSlot, -, h⟩ := bind_eq_ok.1 h
  obtain ⟨beacon, -, h⟩ := bind_eq_ok.1 h
  obtain ⟨upgradeable, -, h⟩ := bind_eq_ok.1 h
  cases h
  unfold proxyCheck
  dsimp only
  split_ifs <;> rfl

omit [LinearOrder K] [FloorRing K] [IsStrictOrderedRing K] in
/-- the source, -/
theorem checkSourceVerified_name (source : Option (ContractSource K)) :
    (checkSourceVerified source).name = "source_verified" := by
  unfold checkSourceVerified
  split
  · rfl
  · dsimp only
    split_ifs <;> rfl

omit [FloorRing K] [IsStrictOrderedRing K] in
/-- the dangerous functions -/
theorem checkDangerousFunctions_name {source : Option (ContractSource K)}
    (h : checkDangerousFunctions source = .ok c) :
    c.name = "dangerous_functions" := by
  unfold checkDangerousFunctions at h
  split at h
  · cases h
    rfl
  · cases h
    rfl
  · obtain ⟨fns, -, h⟩ := bind_eq_ok.1 h
    obtain ⟨names, -, h⟩ := bind_eq_ok.1 h
    cases h
    unfold matchedCheck
    dsimp only
    split_ifs <;> rfl

omit [IsStrictOrderedRing K] in
/-- and the age. -/
theorem checkContractAge_name (h : checkContractAge f target = .ok c) :
    c.name = "contract_age" := by
  obtain ⟨address, -, h⟩ := bind_eq_ok.1 h
  obtain ⟨head, -, h⟩ := bind_eq_ok.1 h
  obtain ⟨code, -, h⟩ := bind_eq_ok.1 h
  split at h
  · cases h
    rfl
  · dsimp only at h
    split at h
    · cases h
      rfl
    · cases h
      rfl
    · cases h
      unfold ageCheck
      dsimp only
      split_ifs <;> rfl

end

/-- The names of the checks that are neither of the trade nor of the
source. -/
def otherNames : List String :=
  ["ownership", "upgradeable_proxy", "lp_lock", "contract_age",
   "holder_concentration", "<lambda>"]

omit [LinearOrder K] [FloorRing K] [IsStrictOrderedRing K] in
/-- A check that is tried goes by one of these names, whether it raised or
not. -/
theorem attempt_name {run : Py (Check K)} {name : String}
    (hin : name ∈ otherNames) (h : ∀ c, run = .ok c → c.name = name) :
    (attempt "<lambda>" run).name ∈ otherNames := by
  cases run with
  | error e =>
      have hlambda : "<lambda>" ∈ otherNames := by decide
      exact hlambda
  | ok c =>
      have hname : (attempt "<lambda>" (.ok c)).name = name := h c rfl
      rw [hname]
      exact hin

/-- A gathered check is of the trade, of the source, or of one of the
other names. -/
theorem runChecks_cases {f : Fork} {target : String} {sim : ForkSimResult K}
    {source : Option (ContractSource K)} {c : Check K}
    (h : c ∈ runChecks f target sim source) :
    c ∈ checksFromSim sim ∨ c = checkSourceVerified source
      ∨ checkDangerousFunctions source = .ok c ∨ c.name ∈ otherNames := by
  rcases List.mem_append.1 h with h | h
  · exact Or.inl h
  · simp only [List.mem_cons, List.not_mem_nil, or_false] at h
    rcases h with rfl | rfl | rfl | rfl | rfl | rfl | rfl
    · exact Or.inr (Or.inr (Or.inr (attempt_name (by decide)
        fun c h => (checkOwnership_valid h).1)))
    · exact Or.inr (Or.inr (Or.inr (attempt_name (by decide)
        fun c h => checkUpgradeableProxy_name h)))
    · exact Or.inr (Or.inl rfl)
    · cases hrun : checkDangerousFunctions source with
      | ok c => exact Or.inr (Or.inr (Or.inl rfl))
      | error e =>
          have hlambda : "<lambda>" ∈ otherNames := by decide
          exact Or.inr (Or.inr (Or.inr hlambda))
    · exact Or.inr (Or.inr (Or.inr (attempt_name (by decide)
        fun c h => (checkLpLock_valid h).1)))
    · exact Or.inr (Or.inr (Or.inr (attempt_name (by decide)
        fun c h => checkContractAge_name h)))
    · have hholder : "holder_concentration" ∈ otherNames := by decide
      exact Or.inr (Or.inr (Or.inr hholder))

omit [Field K] [LinearOrder K] [FloorRing K] [IsStrictOrderedRing K] in
/-- Over a list of texts the search for a mint returns. -/
theorem anyMint_texts (names : List String) :
    ∃ b, anyMint (names.map (PyVal.str (K := K))) = .ok b := by
  induction names with
  | nil => exact ⟨false, rfl⟩
  | cons s names ih =>
      obtain ⟨b, hb⟩ := ih
      by_cases hs : s.toLower = "mint"
      · refine ⟨true, ?_⟩
        rw [List.map_cons, anyMint, isMint, ok_bind]
        simp [hs]
      · refine ⟨b, ?_⟩
        rw [List.map_cons, anyMint, isMint, ok_bind]
        simpa [hs] using hb

omit [FloorRing K] [IsStrictOrderedRing K] in
/-- Over valid checks the mint rule has nothing to stumble on. -/
theorem mintByEoa_total {checks : List (Check K)}
    (h : ∀ c ∈ checks, Valid c) : ∃ b, mintByEoa checks = .ok b := by
  unfold mintByEoa
  cases hdf : byName checks "dangerous_functions" with
  | none => exact ⟨false, rfl⟩
  | some df =>
      cases hown : byName checks "ownership" with
      | none => exact ⟨false, rfl⟩
      | some own =>
          have hin : df ∈ checks :=
            List.mem_reverse.1 (List.mem_of_find?_eq_some hdf)
          have hname : df.name = "dangerous_functions" := by
            simpa using List.find?_some hdf
          obtain ⟨names, hmatched⟩ := (h df hin).matched hname
          obtain ⟨b, hb⟩ := anyMint_texts (K := K) names
          have helements : ((df.evidence.lookup "matched").getD
              (.list [])).elements = .ok (names.map .str) := by
            rw [hmatched]
            rfl
          dsimp only
          rw [helements, ok_bind, hb, ok_bind]
          exact ⟨_, rfl⟩

/-- Whatever the fork, the trade and BscScan answered, there is a report,
and its score is in 0..100. -/
theorem report_of_runChecks (f : Fork) (target : String)
    (sim : ForkSimResult K) (source : Option (ContractSource K)) :
    ∃ r, scoreReport target (runChecks f target sim source) = .ok r
      ∧ 0 ≤ r.score ∧ r.score ≤ 100 := by
  have hvalid := runChecks_valid f target sim source
  obtain ⟨b, hb⟩ := mintByEoa_total hvalid
  obtain ⟨r, hr⟩ : ∃ r,
      scoreReport target (runChecks f target sim source) = .ok r := by
    rw [scoreReport, hb, ok_bind]
    exact ⟨_, rfl⟩
  have hmem := report_score_mem
    (fun c hc => ⟨(hvalid c hc).nonneg, (hvalid c hc).le_one⟩) hr
  exact ⟨r, hr, hmem⟩

end Proofstand.BscSentry
