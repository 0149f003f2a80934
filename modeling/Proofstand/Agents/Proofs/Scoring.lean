/-
What a sentry score says of its checks.

The mint rule and the hard fails read names, flags and evidence, never a
score, so over lists that differ in their scores alone the cap and the
penalty are the same. What is left is a weighted mean times that penalty,
rounded, and each of these keeps order (`rawScore_mono`); so do the cap
and the thresholds (`scoreReport_monotone`).

# Lists that differ in scores

`Lifted` relates two checks with everything equal but the score, and the
lists are related entry by entry (`Forall₂`). All that is read by name or
by flag is then equal, found in the same place of both lists: the lemmas
named `*_lifted`. What remains is a monotone function of the scores, by
`weightedMean_mono`, a multiplication with a penalty that is not negative,
and a rounding that keeps order.

A report can fail, where the evidence of a matched function is no text.
Both lists fail then, with the same exception, since the evidence is the
same. So monotonicity is stated of reports that exist, and their existing
is proved to be the same question on both sides (`report_lifted`).
-/
import Proofstand.Agents.BscSentry.Scoring
import Proofstand.Lib.Fallible

namespace Proofstand.BscSentry

open Fallible Rounding WeightedMean

variable {K : Type} [Field K] [LinearOrder K]

-- ================================================ statement vocabulary

/-- CRITICAL < WARN < OK. -/
def rank : SentryVerdict → Nat
  | .CRITICAL => 0
  | .WARN => 1
  | .OK => 2

/-- The same check, with a score in the unit interval that is no less. -/
structure Lifted (c c' : Check K) : Prop where
  name : c.name = c'.name
  status : c.status = c'.status
  evidence : c.evidence = c'.evidence
  hardFail : c.hardFail = c'.hardFail
  nonneg : 0 ≤ c.score
  score_le : c.score ≤ c'.score
  le_one : c'.score ≤ 1

-- ======================================================== what is read

/-- The evidence of the check that counts under a name. -/
def evidenceOf (checks : List (Check K)) (name : String) :
    Option (Dict K) :=
  (byName checks name).map fun c => c.evidence

/-- The mint rule reads two pieces of evidence. -/
theorem mintByEoa_congr {checks checks' : List (Check K)}
    (hdf : evidenceOf checks "dangerous_functions"
      = evidenceOf checks' "dangerous_functions")
    (hown : evidenceOf checks "ownership"
      = evidenceOf checks' "ownership") :
    mintByEoa checks = mintByEoa checks' := by
  unfold evidenceOf at hdf hown
  unfold mintByEoa
  cases hd : byName checks "dangerous_functions" with
  | none =>
      rw [hd] at hdf
      rw [Option.map_eq_none_iff.1 hdf.symm]
  | some df =>
      rw [hd] at hdf
      obtain ⟨df', hd', hevidence⟩ := Option.map_eq_some_iff.1 hdf.symm
      rw [hd']
      cases ho : byName checks "ownership" with
      | none =>
          rw [ho] at hown
          rw [Option.map_eq_none_iff.1 hown.symm]
      | some own =>
          rw [ho] at hown
          obtain ⟨own', ho', howner⟩ := Option.map_eq_some_iff.1 hown.symm
          rw [ho']
          simp only [evidenceTruthy, hevidence, howner]

theorem sourceVerified_congr {checks checks' : List (Check K)}
    (h : evidenceOf checks "source_verified"
      = evidenceOf checks' "source_verified") :
    sourceVerified checks = sourceVerified checks' := by
  have hread : ∀ l : List (Check K), sourceVerified l
      = (evidenceOf l "source_verified").any fun ev =>
        ((ev.lookup "verified").getD .none).truthy := by
    intro l
    rw [sourceVerified, evidenceOf, Option.any_map]
    rfl
  rw [hread, hread, h]

section

variable {checks checks' : List (Check K)}

/-- Lifting a score leaves the evidence, -/
theorem evidenceOf_lifted (h : List.Forall₂ Lifted checks checks')
    (name : String) : evidenceOf checks name = evidenceOf checks' name := by
  have hreverse := List.rel_reverse h
  unfold evidenceOf byName
  generalize checks.reverse = l at hreverse
  generalize checks'.reverse = m at hreverse
  induction hreverse with
  | nil => rfl
  | @cons c c' l m hc _ ih =>
      rw [List.find?_cons, List.find?_cons, ← hc.name]
      by_cases hname : c.name = name
      · simp [hname, hc.evidence]
      · simpa [hname] using ih

/-- so the rule on minting, -/
theorem mintByEoa_lifted (h : List.Forall₂ Lifted checks checks') :
    mintByEoa checks = mintByEoa checks' :=
  mintByEoa_congr (evidenceOf_lifted h _) (evidenceOf_lifted h _)

/-- the source, -/
theorem sourceVerified_lifted (h : List.Forall₂ Lifted checks checks') :
    sourceVerified checks = sourceVerified checks' :=
  sourceVerified_congr (evidenceOf_lifted h _)

/-- and the hard fails. -/
theorem hardFails_lifted (h : List.Forall₂ Lifted checks checks')
    (byEoa : Bool) : hardFails checks byEoa = hardFails checks' byEoa := by
  have hflagged : (checks.filter fun c => c.hardFail).map (fun c => c.name)
      = (checks'.filter fun c => c.hardFail).map fun c => c.name := by
    induction h with
    | nil => rfl
    | @cons c c' l m hc _ ih =>
        rw [List.filter_cons, List.filter_cons, ← hc.hardFail]
        by_cases hfail : c.hardFail = true
        · rw [if_pos hfail, if_pos hfail, List.map_cons, List.map_cons,
            hc.name, ih]
        · rw [if_neg hfail, if_neg hfail, ih]
  rw [hardFails, hardFails, hflagged, sourceVerified_lifted h]

end

-- ============================================================ the score

variable [FloorRing K]

/-- A score is the raw one, capped at 10 under a hard fail. -/
theorem scoreReport_eq_ok {target : String} {checks : List (Check K)}
    {r : Report K} (h : scoreReport target checks = .ok r) :
    ∃ byEoa, mintByEoa checks = .ok byEoa
      ∧ r.hardFails = hardFails checks byEoa
      ∧ (r.hardFails = [] → r.score = rawScore checks byEoa
        ∧ r.verdict = verdictOf r.score)
      ∧ (r.hardFails ≠ [] → r.score = min (rawScore checks byEoa) 10
        ∧ r.verdict = .CRITICAL) := by
  obtain ⟨byEoa, hmint, h⟩ := bind_eq_ok.1 h
  cases h
  refine ⟨byEoa, hmint, rfl, ?_, ?_⟩
  · intro hnone
    rw [← List.isEmpty_iff] at hnone
    dsimp only at hnone ⊢
    rw [if_pos hnone, if_pos hnone]
    exact ⟨rfl, rfl⟩
  · intro hsome
    rw [ne_eq, ← List.isEmpty_iff] at hsome
    dsimp only at hsome ⊢
    rw [if_neg hsome, if_neg hsome]
    exact ⟨rfl, rfl⟩

/-- It fails where going through the matched functions does. -/
theorem scoreReport_eq_error {target : String} {checks : List (Check K)}
    {e : Exc} :
    scoreReport target checks = .error e ↔ mintByEoa checks = .error e := by
  unfold scoreReport
  cases mintByEoa checks with
  | error e' =>
      constructor
      · intro h
        cases h
        rfl
      · intro h
        cases h
        rfl
  | ok byEoa =>
      constructor
      · intro h
        cases h
      · intro h
        cases h

theorem verdictOf_mono {s t : Int} (h : s ≤ t) :
    rank (verdictOf s) ≤ rank (verdictOf t) := by
  unfold verdictOf
  split
  · rw [if_pos (by omega)]
  · split
    · split
      · decide
      · rw [if_pos (by omega)]
    · exact Nat.zero_le _

omit [FloorRing K] in
theorem mem_scored {checks : List (Check K)} {c : Check K} :
    c ∈ scored checks ↔ c ∈ checks ∧ c.status.ran = true
      ∧ 0 < weightOf (K := K) c.name := by
  simp [scored]

variable [IsStrictOrderedRing K]

omit [FloorRing K] in
theorem mintPenalty_mem (checks : List (Check K)) (byEoa : Bool) :
    0 < mintPenalty checks byEoa ∧ mintPenalty checks byEoa ≤ 1 := by
  unfold mintPenalty
  split
  · norm_num
  · norm_num

omit [FloorRing K] in
theorem weighted_mem {checks : List (Check K)}
    (h : ∀ c ∈ checks, 0 ≤ c.score ∧ c.score ≤ 1) :
    0 ≤ weighted checks ∧ weighted checks ≤ 1 := by
  apply weightedMean_mem
  intro e he
  obtain ⟨c, hc, rfl⟩ := List.mem_map.1 he
  obtain ⟨hin, -, hweight⟩ := mem_scored.1 hc
  exact ⟨hweight.le, h c hin⟩

omit [FloorRing K] in
theorem weighted_mono {checks checks' : List (Check K)}
    (h : List.Forall₂ Lifted checks checks') :
    weighted checks ≤ weighted checks' := by
  apply weightedMean_mono
  unfold scored
  induction h with
  | nil => exact .nil
  | @cons c c' l m hc _ ih =>
      rw [List.filter_cons, List.filter_cons, ← hc.name, ← hc.status]
      by_cases hran : (c.status.ran
          && decide (0 < weightOf (K := K) c.name)) = true
      · rw [if_pos hran, if_pos hran, List.map_cons, List.map_cons]
        have hweight : 0 < weightOf (K := K) c.name := by
          simpa using (Bool.and_eq_true_iff.1 hran).2
        exact .cons ⟨by rw [hc.name], hweight.le, hc.score_le⟩ ih
      · rw [if_neg hran, if_neg hran]
        exact ih

theorem rawScore_mem {checks : List (Check K)}
    (h : ∀ c ∈ checks, 0 ≤ c.score ∧ c.score ≤ 1) (byEoa : Bool) :
    0 ≤ rawScore checks byEoa ∧ rawScore checks byEoa ≤ 100 := by
  obtain ⟨hlow, hhigh⟩ := weighted_mem h
  obtain ⟨hpos, hone⟩ := mintPenalty_mem checks byEoa
  have hproduct : weighted checks * mintPenalty checks byEoa ≤ 1 :=
    mul_le_one₀ hhigh hpos.le hone
  apply roundHalfEven_mem
  · push_cast
    positivity
  · push_cast
    linarith

theorem rawScore_mono {checks checks' : List (Check K)}
    (h : List.Forall₂ Lifted checks checks') (byEoa : Bool) :
    rawScore checks byEoa ≤ rawScore checks' byEoa := by
  have hpenalty : mintPenalty checks byEoa = mintPenalty checks' byEoa := by
    unfold mintPenalty
    rw [sourceVerified_lifted h]
  have hpos := (mintPenalty_mem checks' byEoa).1
  apply roundHalfEven_mono
  rw [hpenalty]
  have hmean := mul_le_mul_of_nonneg_right (weighted_mono h) hpos.le
  linarith

-- ============================================================ the whole

omit [IsStrictOrderedRing K] [FloorRing K] in
theorem hardFails_ne_nil {checks : List (Check K)} {byEoa : Bool} :
    hardFails checks byEoa ≠ []
      ↔ (∃ c ∈ checks, c.hardFail = true)
        ∨ byEoa = true ∧ sourceVerified checks = false := by
  cases byEoa <;> cases hverified : sourceVerified checks <;>
    simp [hardFails, hverified]

/-- Lists that differ in their scores alone fail alike, or the report on
the greater scores is the greater one. -/
theorem report_lifted (target : String) {checks checks' : List (Check K)}
    (h : List.Forall₂ Lifted checks checks') :
    (∃ e, scoreReport target checks = .error e
        ∧ scoreReport target checks' = .error e)
      ∨ ∃ r r', scoreReport target checks = .ok r
        ∧ scoreReport target checks' = .ok r'
        ∧ r.score ≤ r'.score ∧ rank r.verdict ≤ rank r'.verdict := by
  have hmint := mintByEoa_lifted h
  cases hscore : scoreReport target checks with
  | error e =>
      refine Or.inl ⟨e, rfl, ?_⟩
      rw [scoreReport_eq_error, ← hmint]
      exact scoreReport_eq_error.1 hscore
  | ok r =>
      cases hscore' : scoreReport target checks' with
      | error e =>
          rw [scoreReport_eq_error, ← hmint, ← scoreReport_eq_error,
            hscore] at hscore'
          cases hscore'
      | ok r' =>
          refine Or.inr ⟨r, r', rfl, rfl, ?_⟩
          obtain ⟨byEoa, hbyEoa, hfails, hclean, hcapped⟩ :=
            scoreReport_eq_ok hscore
          obtain ⟨byEoa', hbyEoa', hfails', hclean', hcapped'⟩ :=
            scoreReport_eq_ok hscore'
          rw [hmint, hbyEoa'] at hbyEoa
          cases hbyEoa
          have hsame : r.hardFails = r'.hardFails := by
            rw [hfails, hfails', hardFails_lifted h]
          have hraw := rawScore_mono h byEoa
          by_cases hnone : r.hardFails = []
          · obtain ⟨hr, hv⟩ := hclean hnone
            obtain ⟨hr', hv'⟩ := hclean' (hsame ▸ hnone)
            have hle : r.score ≤ r'.score := by
              rw [hr, hr']
              exact hraw
            rw [hv, hv']
            exact ⟨hle, verdictOf_mono hle⟩
          · obtain ⟨hr, hv⟩ := hcapped hnone
            obtain ⟨hr', hv'⟩ := hcapped' (hsame ▸ hnone)
            rw [hr, hr', hv, hv']
            exact ⟨min_le_min_right 10 hraw, le_refl _⟩

theorem report_score_mem {target : String} {checks : List (Check K)}
    {r : Report K} (h : ∀ c ∈ checks, 0 ≤ c.score ∧ c.score ≤ 1)
    (hscore : scoreReport target checks = .ok r) :
    0 ≤ r.score ∧ r.score ≤ 100 := by
  obtain ⟨byEoa, -, -, hclean, hcapped⟩ := scoreReport_eq_ok hscore
  obtain ⟨hlow, hhigh⟩ := rawScore_mem h byEoa
  by_cases hnone : r.hardFails = []
  · rw [(hclean hnone).1]
    exact ⟨hlow, hhigh⟩
  · rw [(hcapped hnone).1]
    omega

omit [IsStrictOrderedRing K] in
/-- A hard fail makes the report CRITICAL, at 10 at most. -/
theorem report_critical {target : String} {checks : List (Check K)}
    {r : Report K} (hscore : scoreReport target checks = .ok r)
    (hfail : (∃ c ∈ checks, c.hardFail = true)
      ∨ mintByEoa checks = .ok true ∧ sourceVerified checks = false) :
    r.verdict = .CRITICAL ∧ r.score ≤ 10 := by
  obtain ⟨byEoa, hmint, hfails, -, hcapped⟩ := scoreReport_eq_ok hscore
  have hsome : r.hardFails ≠ [] := by
    rw [hfails, hardFails_ne_nil]
    rcases hfail with hflag | ⟨htrue, hverified⟩
    · exact Or.inl hflag
    · rw [hmint] at htrue
      cases htrue
      exact Or.inr ⟨rfl, hverified⟩
  obtain ⟨hcap, hverdict⟩ := hcapped hsome
  rw [hcap]
  exact ⟨hverdict, min_le_right _ _⟩

/-- Over lists that differ in their scores alone, the report on the
greater scores is the greater one; over any list of scores in the unit
interval the score is in 0..100; and a hard fail, or a mint by an EOA
with the source unverified, means CRITICAL and at most 10. -/
theorem scoreReport_monotone :
    (∀ (target : String) (checks checks' : List (Check K)),
      List.Forall₂ Lifted checks checks' →
      (∃ e, scoreReport target checks = .error e
          ∧ scoreReport target checks' = .error e)
        ∨ ∃ r r', scoreReport target checks = .ok r
          ∧ scoreReport target checks' = .ok r'
          ∧ r.score ≤ r'.score ∧ rank r.verdict ≤ rank r'.verdict)
      ∧ (∀ (target : String) (checks : List (Check K)) (r : Report K),
        (∀ c ∈ checks, 0 ≤ c.score ∧ c.score ≤ 1) →
        scoreReport target checks = .ok r → 0 ≤ r.score ∧ r.score ≤ 100)
      ∧ ∀ (target : String) (checks : List (Check K)) (r : Report K),
        scoreReport target checks = .ok r →
        ((∃ c ∈ checks, c.hardFail = true)
          ∨ mintByEoa checks = .ok true ∧ sourceVerified checks = false) →
        r.verdict = .CRITICAL ∧ r.score ≤ 10 := by
  refine ⟨?_, ?_, ?_⟩
  · intro target checks checks' h
    exact report_lifted target h
  · intro target checks r h hscore
    exact report_score_mem h hscore
  · intro target checks r hscore hfail
    exact report_critical hscore hfail

-- ======================================================= a taxed honeypot

/-- It cannot be sold, and what is bought is taxed. -/
def trap (taxScore : ℚ) : List (Check ℚ) :=
  [{ name := "honeypot", status := .fail, score := 0,
     evidence := [("sellable", .bool false)], hardFail := true },
   { name := "transfer_tax", status := .warn, score := taxScore,
     evidence := [("sellable", .bool false)] }]

/-- A honeypot with a better owner scores no less, and stays CRITICAL. -/
theorem scoreReport_monotone_trap :
    ∃ r r', scoreReport "0xbad" (trap (3 / 10)) = .ok r
      ∧ scoreReport "0xbad" (trap (7 / 10)) = .ok r'
      ∧ r.score ≤ r'.score ∧ rank r.verdict ≤ rank r'.verdict
      ∧ (0 ≤ r'.score ∧ r'.score ≤ 100)
      ∧ r'.verdict = .CRITICAL ∧ r'.score ≤ 10 := by
  have hlifted : List.Forall₂ Lifted (trap (3 / 10)) (trap (7 / 10)) := by
    refine .cons ⟨rfl, rfl, rfl, rfl, ?_, ?_, ?_⟩
      (.cons ⟨rfl, rfl, rfl, rfl, ?_, ?_, ?_⟩ .nil)
    all_goals norm_num
  have hunit : ∀ c ∈ trap (7 / 10), 0 ≤ c.score ∧ c.score ≤ 1 := by
    decide +kernel
  have hmint : mintByEoa (trap (3 / 10)) = .ok false := rfl
  rcases scoreReport_monotone.1 "0xbad" _ _ hlifted with
    ⟨e, he, -⟩ | ⟨r, r', hr, hr', hscore, hverdict⟩
  · rw [scoreReport_eq_error, hmint] at he
    cases he
  · refine ⟨r, r', hr, hr', hscore, hverdict, ?_, ?_⟩
    · exact scoreReport_monotone.2.1 "0xbad" _ r' hunit hr'
    · exact scoreReport_monotone.2.2 "0xbad" _ r' hr'
        (Or.inl ⟨_, List.mem_cons_self, rfl⟩)

end Proofstand.BscSentry
