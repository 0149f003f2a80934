/-
What pcs-yield's ranking says, and what it is measured against.

Every scored pool is ranked or excluded, by whether the sentry called one
of its tokens CRITICAL (`Sifted`), and the winner is the best of the
ranked ones that were screened (`Chosen`). The baseline goes through the
same pools by another key: it keeps the first of the greatest headline
APR (`maxPool_scored`) and reports that pool's net APR. So its value is
one of those the winner's was compared with, unless its pool was left out
or never screened (`ranking_beats_headline`).

# How it goes

The agent's side is two filters and a stable sort, so membership in the
ranking and in the excluded rows is settled first (`mem_ranked_iff`,
`excluded_rows`), and then that the winner is the first best of the pools
that may win (`winner_of_eligible`).
The baseline's side is a loop over the pools in the observed order; its
invariant is that the pool in hand has the greatest headline so far, and
the induction takes any pool to begin with (`topPool_scored`).
-/
import Proofstand.Agents.Proofs.Gate
import Proofstand.Orchestrator.Harness

namespace Proofstand.PcsYield

open Fallible Ranking Baselines Harness

variable {K : Type} [Field K] [LinearOrder K]

-- ================================================ statement vocabulary

/-- Every scored pool once, ranked or excluded: excluded where one of its
tokens is CRITICAL, and the ranked ones in order of their net APR. -/
structure Sifted (w : World K) (d : Data K) (r : YieldRanking K) :
    Prop where
  whole : (r.ranked.map (fun x => x.row)
    ++ r.excluded.map (fun x => x.row)).Perm d.poolsScored
  ranked_iff : ∀ p, (∃ x ∈ r.ranked, x.row = p)
    ↔ p ∈ d.poolsScored ∧ ¬ ∃ t ∈ p.underlyingTokens, Critical w d t
  excluded_iff : ∀ p, (∃ x ∈ r.excluded, x.row = p)
    ↔ p ∈ d.poolsScored ∧ ∃ t ∈ p.underlyingTokens, Critical w d t
  descending : r.ranked.Pairwise fun x y => y.row.netAprPct ≤ x.row.netAprPct

/-- The winner is ranked, without a CRITICAL token, and where a ranked
pool was screened it is screened and none that was has a greater net
APR. -/
structure Chosen (w : World K) (d : Data K) (r : YieldRanking K) :
    Prop where
  screened_iff : ∀ x ∈ r.ranked, x.securityScreened = true
    ↔ ∀ t ∈ x.row.underlyingTokens, t ∈ allowlist ∨ Gated w d t
  safe : ∀ x, r.winner = some x → x ∈ r.ranked
    ∧ ∀ t ∈ x.row.underlyingTokens, ¬ Critical w d t
  best : ∀ y ∈ r.ranked, y.securityScreened = true →
    ∃ x, r.winner = some x ∧ x.securityScreened = true
      ∧ ∀ z ∈ r.ranked, z.securityScreened = true →
        z.row.netAprPct ≤ x.row.netAprPct

-- ========================================================== the ranking

omit [Field K] in
/-- What is ranked: the passing pools, each with its flag. -/
theorem mem_ranked_iff {d : Data K} {x : RankedPool K} :
    x ∈ (PcsYieldAgent.decide d).params.ranked
      ↔ x.row ∈ passing d ∧ x.securityScreened = screened d.sentry x.row := by
  rw [ranked_eq, List.mem_map]
  simp only [pySortedDesc, List.mem_insertionSort]
  constructor
  · intro h
    obtain ⟨p, hp, rfl⟩ := h
    exact ⟨hp, rfl⟩
  · intro h
    obtain ⟨hrow, hflag⟩ := h
    refine ⟨x.row, hrow, ?_⟩
    rw [← hflag]

omit [Field K] in
/-- The rows of what is excluded: the pools that do not pass. -/
theorem excluded_rows (d : Data K) :
    (PcsYieldAgent.decide d).params.excluded.map (fun x => x.row)
      = d.poolsScored.filter fun p => !(badTokens d.sentry p).isEmpty := by
  show List.map _ (excluded d.sentry d.poolsScored) = _
  rw [excluded, List.map_map]
  exact List.map_id _

omit [Field K] in
theorem ranked_rows (d : Data K) :
    (PcsYieldAgent.decide d).params.ranked.map (fun x => x.row)
      = pySortedDesc (fun p => p.netAprPct) (passing d) := by
  rw [ranked_eq, List.map_map]
  exact List.map_id _

omit [Field K] in
/-- What `decide` makes of the pools, if the screening was of this world. -/
theorem sifted_of_sentry {w : World K} {d : Data K}
    (hsentry : d.sentry = (gate w d.gatedTokens).1) :
    Sifted w d (PcsYieldAgent.decide d).params where
  whole := by
    rw [ranked_rows, excluded_rows]
    have hsorted := List.perm_insertionSort
      (fun p q : ScoredPool K => q.netAprPct ≤ p.netAprPct) (passing d)
    exact (hsorted.append_right _).trans (List.filter_append_perm _ _)
  ranked_iff := by
    intro p
    have hpass := mem_passing_iff hsentry (p := p)
    constructor
    · intro h
      obtain ⟨x, hx, rfl⟩ := h
      obtain ⟨hscored, hgood⟩ := hpass.1 (mem_ranked_iff.1 hx).1
      refine ⟨hscored, ?_⟩
      intro h
      obtain ⟨t, ht, hcritical⟩ := h
      exact hgood t ht hcritical
    · intro h
      obtain ⟨hscored, hgood⟩ := h
      refine ⟨⟨p, screened d.sentry p⟩, mem_ranked_iff.2 ⟨?_, rfl⟩, rfl⟩
      exact hpass.2 ⟨hscored, fun t ht hcritical =>
        hgood ⟨t, ht, hcritical⟩⟩
  excluded_iff := by
    intro p
    have hpass := mem_passing_iff hsentry (p := p)
    have hrows : (∃ x ∈ (PcsYieldAgent.decide d).params.excluded, x.row = p)
        ↔ p ∈ d.poolsScored ∧ ¬ p ∈ passing d := by
      rw [← List.mem_map, excluded_rows, List.mem_filter, passing,
        List.mem_filter]
      by_cases hempty : (badTokens d.sentry p).isEmpty = true
      · simp [hempty]
      · simp [hempty]
    rw [hrows, hpass]
    constructor
    · intro h
      obtain ⟨hscored, hnot⟩ := h
      refine ⟨hscored, ?_⟩
      by_contra hnone
      exact hnot ⟨hscored, fun t ht hcritical => hnone ⟨t, ht, hcritical⟩⟩
    · intro h
      obtain ⟨hscored, t, ht, hcritical⟩ := h
      exact ⟨hscored, fun hgood => hgood.2 t ht hcritical⟩
  descending := by
    rw [ranked_eq, List.pairwise_map]
    exact pairwise_sort_desc (passing d)

omit [Field K] in
/-- Where a passing pool was screened, the winner is the first best of
those that were. -/
theorem winner_of_eligible {d : Data K} {p : ScoredPool K}
    (hp : p ∈ eligible d) :
    ∃ x, (PcsYieldAgent.decide d).params.winner = some x
      ∧ x.securityScreened = true
      ∧ ∀ q ∈ eligible d, q.netAprPct ≤ x.row.netAprPct := by
  have hsome : eligible d ≠ [] := List.ne_nil_of_mem hp
  obtain ⟨b, hb⟩ := exists_firstBest
    (fun p : ScoredPool K => p.netAprPct) hsome
  refine ⟨⟨b, screened d.sentry b⟩, ?_, (mem_eligible_iff.1 hb.mem).2, ?_⟩
  · rw [winner_eq_some, if_neg hsome]
    exact ⟨b, rfl, hb⟩
  · intro q hq
    exact hb.le hq

omit [Field K] in
/-- And which it chooses. -/
theorem chosen_of_sentry {w : World K} {d : Data K}
    (hsentry : d.sentry = (gate w d.gatedTokens).1) :
    Chosen w d (PcsYieldAgent.decide d).params where
  screened_iff := by
    intro x hx
    rw [(mem_ranked_iff.1 hx).2]
    exact screened_gated hsentry
  safe := by
    intro x hx
    obtain ⟨hpass, hflag⟩ := winner_passing hx
    exact ⟨mem_ranked_iff.2 ⟨hpass, hflag⟩,
      ((mem_passing_iff hsentry).1 hpass).2⟩
  best := by
    intro y hy hscreened
    obtain ⟨hpass, hflag⟩ := mem_ranked_iff.1 hy
    obtain ⟨x, hx, hflagged, hbest⟩ := winner_of_eligible
      (mem_eligible_iff.2 ⟨hpass, hflag ▸ hscreened⟩)
    refine ⟨x, hx, hflagged, ?_⟩
    intro z hz hzscreened
    obtain ⟨hzpass, hzflag⟩ := mem_ranked_iff.1 hz
    exact hbest z.row (mem_eligible_iff.2 ⟨hzpass, hzflag ▸ hzscreened⟩)

-- ========================================================= the baseline

omit [LinearOrder K] in
/-- A scored pool's headline is the number it was given. -/
theorem headline_scored (p : ScoredPool K) :
    headline p.headlineVal = .ok (.fin p.headlineAprPct) := rfl

/-- The loop of the baseline over scored pools: it moves on to what has a
greater headline. -/
theorem topPool_scored (p : ScoredPool K) (ps : List (ScoredPool K)) :
    topPool p.headlineVal (.fin p.headlineAprPct)
        (ps.map ScoredPool.headlineVal)
      = .ok (ps.foldl (fun best q =>
          if best.headlineAprPct < q.headlineAprPct then q else best)
          p).headlineVal := by
  induction ps generalizing p with
  | nil => rfl
  | cons q ps ih =>
      rw [List.map_cons, topPool, headline_scored, ok_bind, List.foldl_cons]
      by_cases hlt : p.headlineAprPct < q.headlineAprPct
      · have hmore : (PyFloat.fin p.headlineAprPct).lt
            (.fin q.headlineAprPct) = true := decide_eq_true hlt
        rw [if_pos hmore, if_pos hlt, ih]
      · have hless : ¬ (PyFloat.fin p.headlineAprPct).lt
            (.fin q.headlineAprPct) = true := by
          simpa [PyFloat.lt] using hlt
        rw [if_neg hless, if_neg hlt, ih]

/-- It picks the first of the greatest headline. -/
theorem maxPool_scored {ps : List (ScoredPool K)} (h : ps ≠ []) :
    ∃ p, FirstBest (fun p => p.headlineAprPct) p ps
      ∧ maxPool (ps.map ScoredPool.headlineVal) = .ok p.headlineVal := by
  cases ps with
  | nil => exact absurd rfl h
  | cons p ps =>
      refine ⟨_, foldl_firstBest p ps, ?_⟩
      rw [List.map_cons, maxPool, headline_scored, ok_bind, topPool_scored]

/-- And reports that pool's net APR. -/
theorem topHeadlineApr_scored (d : Data K) (m : Manifest K)
    (h : d.poolsScored ≠ []) :
    ∃ p, FirstBest (fun p => p.headlineAprPct) p d.poolsScored
      ∧ topHeadlineApr d.toVal m = .ok (m.result p.netAprPct) := by
  obtain ⟨p, hp, hmax⟩ := maxPool_scored h
  refine ⟨p, hp, ?_⟩
  have hneed : need d.toVal ["pools"] = .ok () := rfl
  have hitem : d.toVal.item "pools"
      = .ok (.list (d.poolsScored.map ScoredPool.headlineVal)) := rfl
  have htruthy : (PyVal.list
      (d.poolsScored.map ScoredPool.headlineVal)).truthy = true := by
    cases hpools : d.poolsScored with
    | nil => exact absurd hpools h
    | cons q qs => rfl
  rw [topHeadlineApr, hneed, ok_bind, hitem, ok_bind, if_pos htruthy]
  show maxPool _ >>= _ = _
  rw [hmax, ok_bind, headline_scored]
  rfl

-- ============================================================ the whole

/-- Whatever was observed: the pools are sifted, the winner is chosen
among them, and the receipt, whenever the baseline runs, has for it the
net APR of the first pool with the greatest headline, which is no more
than the agent's where that pool is screened and not excluded. -/
theorem ranking_beats_headline [FloorRing K] {a : PcsYieldAgent K}
    {lib : Libm K} {s s' : Option (Data K)} {inputs : Dict K} {w : World K}
    {d : Data K} (h : a.observe lib s inputs w = .ok (d, s')) :
    Sifted w d (PcsYieldAgent.decide d).params
      ∧ Chosen w d (PcsYieldAgent.decide d).params
      ∧ ∃ p, FirstBest (fun p => p.headlineAprPct) p d.poolsScored
        ∧ ∀ (sha : PyVal K → String) (tier : Nat)
            (taskHash snapshotHash : String) (w' : World K),
          ∃ out, settle sha lib manifest tier taskHash snapshotHash d.toVal
              (PcsYieldAgent.report (PcsYieldAgent.decide d)) w' = .ok out
            ∧ out.baselineValue = p.netAprPct
            ∧ ((∃ x ∈ (PcsYieldAgent.decide d).params.ranked,
                x.row = p ∧ x.securityScreened = true) →
              out.baselineValue ≤ out.agentValue) := by
  obtain ⟨hsentry, hsome⟩ := observe_eq_ok h
  refine ⟨sifted_of_sentry hsentry, chosen_of_sentry hsentry, ?_⟩
  obtain ⟨p, hp, htop⟩ := topHeadlineApr_scored d manifest hsome
  refine ⟨p, hp, ?_⟩
  intro sha tier taskHash snapshotHash w'
  have hbaseline : runBaseline lib (manifest : Manifest K).baseline d.toVal
      manifest w' = .ok (manifest.result p.netAprPct) := htop
  refine ⟨_, by rw [settle, hbaseline]; rfl, rfl, ?_⟩
  intro h
  obtain ⟨x, hx, rfl, hscreened⟩ := h
  obtain ⟨hpass, hflag⟩ := mem_ranked_iff.1 hx
  have heligible := mem_eligible_iff.2 ⟨hpass, hflag ▸ hscreened⟩
  obtain ⟨b, hb, -, hbest⟩ := winner_of_eligible heligible
  show x.row.netAprPct ≤ (PcsYieldAgent.report _).value
  rw [PcsYieldAgent.report, hb]
  exact hbest x.row heligible

-- ===================================================== two pools, hired

def alpacaWbnb : LlamaPool ℚ where
  pool := "alpaca-wbnb"
  symbol := "ALPACA-WBNB"
  tvlUsd := some 2000000
  apy := some 12
  apyBase := some 12
  underlyingTokens :=
    some ["0x8f0528ce5ef7b51152a59745befdd91d97091d2f",
      "0xbb4cdb9cbd36b01bd1cbaebf2de08d9173bc095c"]
  poolMeta := none

/-- Each has a token with a WARN. -/
def twoPoolWorld : World ℚ :=
  { gateWorld (.ok ⟨.WARN, 60, []⟩) with
    ammPools := .ok [alpacaWbnb, xvsWbnb] }

/-- The baseline takes the one that advertises more, and the agent does
no worse. -/
theorem ranking_beats_headline_two_pools :
    ∃ d s' p out, yieldRouter.observe ratMath none
        [("capital_usd", .int 1000)] twoPoolWorld = .ok (d, s')
      ∧ Sifted twoPoolWorld d (PcsYieldAgent.decide d).params
      ∧ Chosen twoPoolWorld d (PcsYieldAgent.decide d).params
      ∧ FirstBest (fun p => p.headlineAprPct) p d.poolsScored
      ∧ settle (fun _ => "") ratMath manifest 0 "" "" d.toVal
          (PcsYieldAgent.report (PcsYieldAgent.decide d)) twoPoolWorld
        = .ok out
      ∧ out.baselineValue = p.netAprPct
      ∧ out.baselineValue ≤ out.agentValue := by
  obtain ⟨⟨d, s'⟩, hobs, hall⟩ := exists_of_okAnd
    (x := yieldRouter.observe ratMath none [("capital_usd", .int 1000)]
      twoPoolWorld)
    (p := fun out => out.1.poolsScored.all fun p =>
      (badTokens out.1.sentry p).isEmpty && screened out.1.sentry p)
    (by decide +kernel)
  obtain ⟨hsifted, hchosen, p, hp, hsettle⟩ := ranking_beats_headline hobs
  obtain ⟨out, hout, hvalue, hbeats⟩ := hsettle (fun _ => "") 0 "" ""
    twoPoolWorld
  refine ⟨d, s', p, out, hobs, hsifted, hchosen, hp, hout, hvalue, ?_⟩
  obtain ⟨hclean, hscreened⟩ := Bool.and_eq_true_iff.1
    (List.all_eq_true.1 hall p hp.mem)
  exact hbeats ⟨⟨p, screened d.sentry p⟩,
    mem_ranked_iff.2 ⟨List.mem_filter.2 ⟨hp.mem, hclean⟩, rfl⟩, rfl,
    hscreened⟩

end Proofstand.PcsYield
