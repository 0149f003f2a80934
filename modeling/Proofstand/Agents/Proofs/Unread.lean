/-
What a check that could not be read does to a verdict.

An `unknown` is left out: the weights are normalised over the axes that
ran, it is no hard fail, and its evidence says nothing the mint rule
looks for. So a token gains by it what its check was costing it. Only
that: the verdict gets better only where no hard fail is left, and the
check was one, or the mint rule comes down less hard without it, or it
scored below the mean of the other axes (`unread_better_only_if`), and
each of the three happens (`unread_gets_better`).

# Replacing one check

A list of checks with one entry replaced by its `unknown` is compared with
the list as it was. The verdict is a function of three things (the hard
fails, how hard the rule on minting comes down, and the mean), and the
replacement acts on each of them separately: it can only remove a hard
fail, it can change what the rule reads, and it takes one value out of the
mean. If the verdict got better, one of the three did, which is the
theorem; and the three examples change one each.

The name of a replaced check may be that of the function `run_checks`
called, so a replacement is not found under the old name at all. `Unread`
covers both.
-/
import Proofstand.Agents.Proofs.Checks

namespace Proofstand.BscSentry

open Fallible Rounding WeightedMean

variable {K : Type} [Field K] [LinearOrder K]

-- ================================================ statement vocabulary

/-- The names `run_checks` has for the functions it calls. -/
def fnNames : List String := ["<lambda>", "check_holder_concentration"]

/-- What stands in a check's place when its read fails. -/
inductive Unread [FloorRing K] (c : Check K) : Check K → Prop
  | ownership {f : Fork} {target : String} {u : Check K} :
      c.name = "ownership" → checkOwnership f target = .ok u →
      u.status = .unknown → Unread c u
  | lpLock {f : Fork} {target : String} {u : Check K} :
      c.name = "lp_lock" → checkLpLock f target = .ok u →
      u.status = .unknown → Unread c u
  | trade {sim : ForkSimResult K} {u : Check K} :
      u ∈ checksFromSim sim → u.name = c.name → u.status = .unknown →
      Unread c u
  | raised {fnName : String} (e : Exc) :
      fnName ∈ fnNames → Unread c (raisedCheck fnName e)

/-- The checks the mint rule reads. -/
def mintAxes : List String :=
  ["dangerous_functions", "ownership", "source_verified"]

/-- How hard the mint rule comes down: not at all, with its penalty, or
as a hard fail. -/
def mintRule (checks : List (Check K)) : Py Nat := do
  let byEoa ← mintByEoa checks
  pure (if byEoa then if sourceVerified checks then 1 else 2 else 0)

-- ==================================================== an unread check

/-- What an unread check is: unknown, no hard fail, under the name it had or
a function's. -/
theorem Unread.spec [IsStrictOrderedRing K] [FloorRing K] {c u : Check K}
    (h : Unread c u) :
    u.status = .unknown ∧ u.hardFail = false
      ∧ (u.name = c.name ∨ u.name ∈ fnNames) := by
  cases h with
  | ownership hc hrun hu =>
      obtain ⟨hname, hvalid⟩ := checkOwnership_valid hrun
      exact ⟨hu, hvalid.hardFail_of_unknown hu, Or.inl (hname.trans hc.symm)⟩
  | lpLock hc hrun hu =>
      obtain ⟨hname, hvalid⟩ := checkLpLock_valid hrun
      exact ⟨hu, hvalid.hardFail_of_unknown hu, Or.inl (hname.trans hc.symm)⟩
  | trade hin hname hu =>
      have hvalid := checksFromSim_valid _ _ hin
      exact ⟨hu, hvalid.hardFail_of_unknown hu, Or.inl hname⟩
  | raised e hname => exact ⟨rfl, rfl, Or.inr hname⟩

-- ========================================================= the mint rule

/-- `mintRule`, once it is known whether an EOA can mint. -/
def severity (checks : List (Check K)) (byEoa : Bool) : Nat :=
  if byEoa then if sourceVerified checks then 1 else 2 else 0

/-- The rule on minting, as a number: 2 a hard fail, 1 a penalty, 0 nothing. -/
theorem mintRule_eq {checks : List (Check K)} {byEoa : Bool}
    (h : mintByEoa checks = .ok byEoa) :
    mintRule checks = .ok (severity checks byEoa) := by
  rw [mintRule, h]
  rfl

section

variable {checks checks' : List (Check K)} {byEoa byEoa' : Bool}

/-- It is less than 2 where it makes no hard fail, -/
theorem severity_lt_two : severity checks byEoa < 2
    ↔ ¬ (byEoa = true ∧ sourceVerified checks = false) := by
  unfold severity
  cases byEoa <;> cases sourceVerified checks <;> simp

/-- and 1 where it makes a penalty. -/
theorem severity_eq_one : severity checks byEoa = 1
    ↔ byEoa = true ∧ sourceVerified checks = true := by
  unfold severity
  cases byEoa <;> cases sourceVerified checks <;> simp

theorem hardFails_eq_nil : hardFails checks byEoa = []
    ↔ (∀ c ∈ checks, c.hardFail = false) ∧ severity checks byEoa < 2 := by
  rw [severity_lt_two, ← not_iff_not, ← ne_eq, hardFails_ne_nil,
    Classical.not_and_iff_not_or_not, not_not]
  simp

/-- Short of a hard fail, a rule no less hard is no lighter a penalty. -/
theorem mintPenalty_le [IsStrictOrderedRing K]
    (hle : severity checks byEoa ≤ severity checks' byEoa')
    (hlt : severity checks' byEoa' < 2) :
    mintPenalty checks' byEoa' ≤ (mintPenalty checks byEoa : K) := by
  by_cases hpays : severity checks byEoa = 1
  · have hpays' : severity checks' byEoa' = 1 := by omega
    obtain ⟨hby, hverified⟩ := severity_eq_one.1 hpays
    obtain ⟨hby', hverified'⟩ := severity_eq_one.1 hpays'
    rw [mintPenalty, mintPenalty, hby, hverified, hby', hverified']
  · have hfree : mintPenalty checks byEoa = (1 : K) := by
      apply if_neg
      rw [Bool.and_eq_true_iff]
      exact fun h => hpays (severity_eq_one.2 h)
    rw [hfree]
    exact (mintPenalty_mem checks' byEoa').2

end

-- ================================================== one check in a list

section

variable {c u : Check K} {pre post : List (Check K)}

omit [Field K] [LinearOrder K] in
/-- A check of another name is not what is found under this one. -/
theorem evidenceOf_of_ne {name : String} (h : c.name ≠ name) :
    evidenceOf (pre ++ c :: post) name = evidenceOf (pre ++ post) name := by
  unfold evidenceOf byName
  simp [List.find?_append, h]

/-- Only what it reads moves the mint rule. -/
theorem mintRule_of_other (hc : c.name ∉ mintAxes) (hu : u.name ∉ mintAxes) :
    mintRule (pre ++ c :: post) = mintRule (pre ++ u :: post) := by
  have hread : ∀ name ∈ mintAxes, evidenceOf (pre ++ c :: post) name
      = evidenceOf (pre ++ u :: post) name := by
    intro name hname
    rw [evidenceOf_of_ne (ne_of_mem_of_not_mem hname hc).symm,
      evidenceOf_of_ne (ne_of_mem_of_not_mem hname hu).symm]
  unfold mintRule
  rw [mintByEoa_congr (hread _ (by simp [mintAxes]))
      (hread _ (by simp [mintAxes])),
    sourceVerified_congr (hread _ (by simp [mintAxes]))]

omit [Field K] [LinearOrder K] in
/-- A function's name is not that of a check the rule reads. -/
theorem not_mem_mintAxes (hname : u.name = c.name ∨ u.name ∈ fnNames)
    (hc : c.name ∉ mintAxes) : u.name ∉ mintAxes := by
  rcases hname with heq | hfn
  · rw [heq]
    exact hc
  · intro hin
    have hapart : ∀ name ∈ fnNames, name ∉ mintAxes := by decide
    exact hapart u.name hfn hin

theorem scored_of_unknown (hu : u.status = .unknown) :
    scored (pre ++ u :: post) = scored (pre ++ post) := by
  simp [scored, hu, CheckStatus.ran]

theorem weighted_of_unknown (hu : u.status = .unknown) :
    weighted (pre ++ u :: post) = weighted (pre ++ post) := by
  rw [weighted, weighted, scored_of_unknown hu]

variable [IsStrictOrderedRing K]

/-- Leaving out an axis no lower than the mean of the others does not
lift the mean. -/
theorem weighted_le_of_not_below (hran : c.status.ran = true)
    (h : ¬ (0 < weightOf (K := K) c.name
      ∧ c.score < weighted (pre ++ post))) :
    weighted (pre ++ post) ≤ weighted (pre ++ c :: post) := by
  have happend : scored (pre ++ post) = scored pre ++ scored post :=
    List.filter_append _ _
  by_cases hweight : 0 < weightOf (K := K) c.name
  · have hcons : scored (pre ++ c :: post)
        = scored pre ++ c :: scored post := by
      simp [scored, hran, hweight]
    have hscore : weighted (pre ++ post) ≤ c.score :=
      not_lt.1 fun hlt => h ⟨hweight, hlt⟩
    rw [weighted, happend, List.map_append] at hscore
    rw [weighted, weighted, happend, hcons, List.map_append,
      List.map_append, List.map_cons]
    refine (weightedMean_insert_ge ?_ hweight).2 hscore
    intro e he
    rw [← List.map_append, ← happend] at he
    obtain ⟨d, hd, rfl⟩ := List.mem_map.1 he
    exact (mem_scored.1 hd).2.2.le
  · have hcons : scored (pre ++ c :: post) = scored (pre ++ post) := by
      simp [scored, hweight]
    rw [weighted, weighted, hcons]

end

-- ============================================================ the verdict

variable [IsStrictOrderedRing K] [FloorRing K]

omit [IsStrictOrderedRing K] in
/-- A verdict above CRITICAL is that of a raw score under no hard
fail. -/
theorem report_of_rank_pos {target : String} {checks : List (Check K)}
    {r : Report K} (h : scoreReport target checks = .ok r)
    (hpos : 0 < rank r.verdict) :
    ∃ byEoa, mintByEoa checks = .ok byEoa ∧ r.hardFails = []
      ∧ hardFails checks byEoa = []
      ∧ r.verdict = verdictOf (rawScore checks byEoa) := by
  obtain ⟨byEoa, hmint, hfails, hclean, hcapped⟩ := scoreReport_eq_ok h
  by_cases hnone : r.hardFails = []
  · obtain ⟨hscore, hverdict⟩ := hclean hnone
    exact ⟨byEoa, hmint, hnone, hfails ▸ hnone, hscore ▸ hverdict⟩
  · rw [(hcapped hnone).2] at hpos
    cases hpos

/-- A lower mean under no lighter a penalty gives no better a verdict. -/
theorem verdictOf_le_of_weighted {checks checks' : List (Check K)}
    {byEoa byEoa' : Bool} (hmean : weighted checks' ≤ weighted checks)
    (hpenalty : mintPenalty checks' byEoa' ≤ mintPenalty checks byEoa) :
    rank (verdictOf (rawScore checks' byEoa'))
      ≤ rank (verdictOf (rawScore checks byEoa)) := by
  obtain ⟨hpos, -⟩ := mintPenalty_mem checks byEoa
  obtain ⟨hpos', -⟩ := mintPenalty_mem checks' byEoa'
  rcases le_or_gt 0 (weighted checks') with hnonneg | hneg
  · apply verdictOf_mono
    apply roundHalfEven_mono
    have hproduct := mul_le_mul hmean hpenalty hpos'.le
      (hnonneg.trans hmean)
    linarith
  · -- below zero it is CRITICAL whatever the penalty
    have hproduct := mul_neg_of_neg_of_pos hneg hpos'
    have hlow : rawScore checks' byEoa' ≤ 0 := by
      have hround : rawScore checks' byEoa' ≤ roundHalfEven ((0 : Int) : K) := by
        apply roundHalfEven_mono
        push_cast
        linarith
      rwa [roundHalfEven_intCast] at hround
    have hcritical : verdictOf (rawScore checks' byEoa') = .CRITICAL := by
      rw [verdictOf, if_neg (by omega), if_neg (by omega)]
    rw [hcritical]
    exact Nat.zero_le _

/-- Over every list of checks, and every check in it with a warn or a
fail: what it is replaced by when its read fails makes the verdict better
only where no hard fail is left, and the check was a hard fail, or is one
the mint rule reads and the rule comes down less hard, or it scored below
the weighted mean of the others. -/
theorem unread_better_only_if {target : String} {pre post : List (Check K)}
    {c u : Check K} {r r' : Report K}
    (hstatus : c.status = .warn ∨ c.status = .fail) (hunread : Unread c u)
    (hr : scoreReport target (pre ++ c :: post) = .ok r)
    (hr' : scoreReport target (pre ++ u :: post) = .ok r')
    (hbetter : rank r.verdict < rank r'.verdict) :
    r'.hardFails = []
      ∧ (c.hardFail = true
        ∨ (c.name ∈ mintAxes ∧ ∃ rule rule',
          mintRule (pre ++ c :: post) = .ok rule
            ∧ mintRule (pre ++ u :: post) = .ok rule' ∧ rule' < rule)
        ∨ 0 < weightOf (K := K) c.name
          ∧ c.score < weighted (pre ++ post)) := by
  obtain ⟨hunknown, -, hname⟩ := hunread.spec
  obtain ⟨byEoa', hmint', hnone, hclean', hverdict'⟩ :=
    report_of_rank_pos hr' (Nat.zero_le _ |>.trans_lt hbetter)
  refine ⟨hnone, ?_⟩
  by_contra hnot
  rw [not_or, not_or] at hnot
  obtain ⟨hflag, hrule, haxis⟩ := hnot
  obtain ⟨byEoa, hmint, hfails, hclean, -⟩ := scoreReport_eq_ok hr
  -- the mint rule comes down no less hard
  have hhard : severity (pre ++ c :: post) byEoa
      ≤ severity (pre ++ u :: post) byEoa' := by
    by_cases hread : c.name ∈ mintAxes
    · apply not_lt.1
      intro hlt
      exact hrule ⟨hread, _, _, mintRule_eq hmint, mintRule_eq hmint', hlt⟩
    · have hsame : mintRule (pre ++ c :: post)
          = mintRule (pre ++ u :: post) :=
        mintRule_of_other hread (not_mem_mintAxes hname hread)
      rw [mintRule_eq hmint, mintRule_eq hmint'] at hsame
      exact (Except.ok.inj hsame).le
  -- so the old list had no hard fail either, nor a heavier penalty
  obtain ⟨hflags', hlight⟩ := hardFails_eq_nil.1 hclean'
  have hnofail : hardFails (pre ++ c :: post) byEoa = [] := by
    rw [hardFails_eq_nil]
    refine ⟨?_, hhard.trans_lt hlight⟩
    intro d hd
    rcases List.mem_append.1 hd with hd | hd
    · exact hflags' d (List.mem_append_left _ hd)
    · rcases List.mem_cons.1 hd with rfl | hd
      · simpa using hflag
      · exact hflags' d (List.mem_append_right _ (List.mem_cons_of_mem _ hd))
  have hran : c.status.ran = true := by
    rcases hstatus with h | h
    · rw [h]
      rfl
    · rw [h]
      rfl
  have hmean := weighted_le_of_not_below hran haxis
  rw [← weighted_of_unknown hunknown] at hmean
  have hle := verdictOf_le_of_weighted hmean (mintPenalty_le hhard hlight)
  obtain ⟨hscore, hverdict⟩ := hclean (hfails.trans hnofail)
  rw [hverdict, hscore, hverdict'] at hbetter
  exact absurd hbetter hle.not_gt

-- ======================================================= three tokens

/-- A trade that went through, at a tax on the buy. -/
def traded (buyTax : ℚ) : ForkSimResult ℚ where
  target := "0xpeg"
  pairFound := true
  buyable := some true
  sellable := some true
  buyTaxPct := some buyTax

/-- One that could not be sold. -/
def trapped : ForkSimResult ℚ where
  target := "0xpeg"
  pairFound := true
  buyable := some true
  sellable := some false

/-- No owner getter answers. -/
def mute : Fork where
  toChecksumAddress := .ok
  ownerCall _ _ := .error "execution reverted"
  getCode _ _ := .error "execution reverted"
  getStorageAt _ _ := .error "execution reverted"
  blockNumber := .error "execution reverted"
  getPair _ _ := .error "execution reverted"
  totalSupply _ := .error "execution reverted"
  balanceOf _ _ := .error "execution reverted"

/-- What `check_ownership` says of it. -/
def ownerUnread : Check ℚ where
  name := "ownership"
  status := .unknown
  score := 0
  evidence := [("owner", .none)]
  reason := "no owner()/getOwner() — may be ownerless or non-standard"

def eoa : String := "0xa1"

/-- The checks that are neither of the trade nor of the owner, over a
verified source. -/
def otherChecks (matched : List String) : List (Check ℚ) :=
  [proxyCheck "0x0" "0x0" "0x0" false,
   checkSourceVerified (some { verified := true }), matchedCheck matched 9]

/-- A warning or a fail whose read, where it fails, makes the verdict
better. -/
def Helps (pre post : List (Check ℚ)) (c u : Check ℚ) : Prop :=
  (c.status = .warn ∨ c.status = .fail) ∧ Unread c u
    ∧ ∃ r r', scoreReport "0xpeg" (pre ++ c :: post) = .ok r
      ∧ scoreReport "0xpeg" (pre ++ u :: post) = .ok r'
      ∧ rank r.verdict < rank r'.verdict

theorem helps_of_run {pre post : List (Check ℚ)} {c u : Check ℚ}
    (hstatus : c.status = .warn ∨ c.status = .fail) (hunread : Unread c u)
    (hrun : okAnd (scoreReport "0xpeg" (pre ++ c :: post)) (fun r =>
      okAnd (scoreReport "0xpeg" (pre ++ u :: post)) fun r' =>
        decide (rank r.verdict < rank r'.verdict)) = true) :
    Helps pre post c u := by
  obtain ⟨r, hr, hrun'⟩ := exists_of_okAnd hrun
  obtain ⟨r', hr', hbetter⟩ := exists_of_okAnd hrun'
  exact ⟨hstatus, hunread, r, r', hr, hr', of_decide_eq_true hbetter⟩

/-- The owner of a token that can mint, whose getter reverts. -/
theorem helps_owner : Helps (checksFromSim (traded 0)) (otherChecks ["mint"])
    (ownedCheck eoa 0) ownerUnread := by
  have hrun : checkOwnership (K := ℚ) mute "0xpeg" = .ok ownerUnread := rfl
  exact helps_of_run (by decide +kernel)
    (.ownership (ownedCheck_valid eoa 0).1 hrun rfl) (by decide +kernel)

/-- The liquidity check of a taxed token, which raises. -/
theorem helps_liquidity :
    Helps (checksFromSim (traded (12 / 100)) ++ [ownedCheck eoa 0])
      (otherChecks []) (burnedCheck "0x1" 100 40)
      (raisedCheck "<lambda>" ⟨.NetworkError, "execution reverted"⟩) :=
  helps_of_run (by decide +kernel) (.raised _ List.mem_cons_self)
    (by decide +kernel)

/-- What `checks_from_sim` says of a honeypot it finds no pair of. -/
def tradeUnread : Check ℚ where
  name := "honeypot"
  status := .unknown
  score := 0
  evidence := ForkSimResult.evidence { target := "0xpeg", pairFound := false }
  reason := "no v2 pair with WBNB — could not simulate a trade"

/-- A honeypot whose pair is not found is reported better. -/
theorem helps_honeypot :
    Helps [] (transferTaxCheck trapped :: otherChecks [])
      (honeypotCheck trapped) tradeUnread := by
  have hin : tradeUnread
      ∈ checksFromSim { target := "0xpeg", pairFound := false } :=
    List.mem_cons_self
  exact helps_of_run (by decide +kernel) (.trade hin rfl rfl)
    (by decide +kernel)

/-- An owner that can mint, a share of burned liquidity and a honeypot:
each is better off unread. -/
theorem unread_gets_better :
    Helps (checksFromSim (traded 0)) (otherChecks ["mint"])
        (ownedCheck eoa 0) ownerUnread
      ∧ Helps (checksFromSim (traded (12 / 100)) ++ [ownedCheck eoa 0])
        (otherChecks []) (burnedCheck "0x1" 100 40)
        (raisedCheck "<lambda>" ⟨.NetworkError, "execution reverted"⟩)
      ∧ Helps [] (transferTaxCheck trapped :: otherChecks [])
        (honeypotCheck trapped) tradeUnread :=
  ⟨helps_owner, helps_liquidity, helps_honeypot⟩

/-- The honeypot, unread: no hard fail is left, and one of the three is
why. -/
theorem unread_better_only_if_honeypot :
    ∃ r', scoreReport "0xpeg"
        ([] ++ tradeUnread :: transferTaxCheck trapped :: otherChecks [])
          = .ok r'
      ∧ r'.hardFails = []
      ∧ ((honeypotCheck trapped).hardFail = true
        ∨ ((honeypotCheck trapped).name ∈ mintAxes ∧ ∃ rule rule',
          mintRule ([] ++ honeypotCheck trapped
              :: transferTaxCheck trapped :: otherChecks []) = .ok rule
            ∧ mintRule ([] ++ tradeUnread
              :: transferTaxCheck trapped :: otherChecks []) = .ok rule'
            ∧ rule' < rule)
        ∨ 0 < weightOf (K := ℚ) (honeypotCheck trapped).name
          ∧ (honeypotCheck trapped).score
            < weighted ([] ++ transferTaxCheck trapped :: otherChecks [])) := by
  obtain ⟨hstatus, hunread, r, r', hr, hr', hbetter⟩ := helps_honeypot
  obtain ⟨hnone, hreason⟩ :=
    unread_better_only_if hstatus hunread hr hr' hbetter
  exact ⟨r', hr', hnone, hreason⟩

end Proofstand.BscSentry
