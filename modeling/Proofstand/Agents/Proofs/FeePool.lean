/-
Which pool the rebalancer reads its fee APR from.

The pools of the pair are ranked by a label first and by TVL second
(`rankKey`), and the first of the greatest is read. The label the code
writes for a fee tier is a hundred times the tier's percentage, so the
first key asks for pools of another tier. What is picked is the right
pool only where that does no harm (`rightPool_iff`).

# Two rankings

The source sorts by whether a pool's label is that of the tier and then by
TVL, and takes the first. The key is the pair of both (`rankKey`), in
lexicographic order, so the first of the highest-ranked is the first of
the greatest by that key (`ranked_first`). The right pool is the same for
the tier's true label. The two texts differ by a factor of a hundred in
every tier, and so the question is when ranking by one text picks what
ranking by the other would.

`Harmless` is the answer, by cases: the two texts are one; or the tier has
its pools, none has the label asked for, and the largest of all is one of
the tier's; or the tier has none, and neither has the label asked for, or
one that has it is the largest. It is a condition on the pools as they are
listed, and both directions are proved.
-/
import Proofstand.Agents.PcsRebalancer.Agent
import Proofstand.Lib.Ranking
import Proofstand.Lib.Rounding
import Proofstand.Lib.Fallible
import Mathlib.Data.Prod.Lex

namespace Proofstand.PcsRebalancer

open Fallible Ranking Rounding

variable {K : Type} [Field K] [LinearOrder K]

-- ============================================================ the labels

/-- A fee tier in hundredths of a basis point, as a percentage with two
decimals. -/
def tierLabel (feeTier : Int) : String :=
  feeTierText (roundHalfEven ((feeTier : ℚ) / 100))

example : feeTierSpacing.map (fun q => tierLabel q.1)
    = ["0.01%", "0.05%", "0.25%", "1.00%"] := by
  decide +kernel

-- the code, on the same tiers
example : feeTierSpacing.map (fun q => feeTierText q.1)
    = ["1.00%", "5.00%", "25.00%", "100.00%"] := by
  decide +kernel

-- =========================================================== the ranking

/-- `p.get("tvlUsd") or 0`. -/
def tvlOf (p : LlamaPool K) : K := p.tvlUsd.getD 0

/-- The key the pools are sorted by. -/
def rankKey (tierText : String) (p : LlamaPool K) : Bool ×ₗ K :=
  toLex (decide (p.poolMeta = some tierText), tvlOf p)

theorem rankBelow_iff (tierText : String) (p q : LlamaPool K) :
    rankBelow tierText p q = true ↔ rankKey tierText p < rankKey tierText q := by
  unfold rankBelow rankKey tvlOf
  rw [Prod.Lex.toLex_lt_toLex]
  by_cases hp : p.poolMeta = some tierText
  · by_cases hq : q.poolMeta = some tierText
    · simp [hp, hq]
    · simp [hp, hq]
  · by_cases hq : q.poolMeta = some tierText
    · simp [hp, hq]
    · simp [hp, hq]

/-- The pool an answer is read from. -/
structure ReadFrom (cands : List (LlamaPool K)) (tierText : String)
    (res : K × String) (top : LlamaPool K) : Prop where
  first : FirstBest (rankKey tierText) top cands
  apr : res.1 = ((top.apyBase.or top.apy).getD 0) / 100
  pool : res.2 = top.pool

/-- An answer is read from the first of the pair's highest-ranked pools. -/
theorem feeAprFromDefillama_eq_ok {w : World K} {token0 token1 : String}
    {feeTier : Int} {res : K × String}
    (h : feeAprFromDefillama w token0 token1 feeTier = .ok res) :
    ∃ pools top, w.llamaPools.read = .ok pools
      ∧ ReadFrom (pools.filter (pairsWith token0.toLower token1.toLower))
        (feeTierText feeTier) res top := by
  obtain ⟨pools, hpools, h⟩ := bind_eq_ok.1 h
  cases hcands : pools.filter (pairsWith token0.toLower token1.toLower) with
  | nil =>
      simp only [hcands] at h
      cases h
  | cons p ps =>
      simp only [hcands] at h
      cases h
      have hfold : (fun best q : LlamaPool K =>
          if rankBelow (feeTierText feeTier) best q then q else best)
          = fun best q => if rankKey (feeTierText feeTier) best
              < rankKey (feeTierText feeTier) q then q else best := by
        funext best q
        simp only [rankBelow_iff]
      refine ⟨pools, _, hpools, ⟨?_, rfl, rfl⟩⟩
      rw [hcands, hfold]
      exact foldl_firstBest p ps

-- ========================================================== the right one

/-- Some pool of the pair has the label. -/
def Labelled (cands : List (LlamaPool K)) (label : String) : Prop :=
  ∃ q ∈ cands, q.poolMeta = some label

/-- The pool to read: of the tier's own pools the one with the largest
TVL, and of all of the pair where the tier has none. -/
structure RightPool (cands : List (LlamaPool K)) (label : String)
    (top : LlamaPool K) : Prop where
  mem : top ∈ cands
  own : Labelled cands label → top.poolMeta = some label
    ∧ ∀ q ∈ cands, q.poolMeta = some label → tvlOf q ≤ tvlOf top
  other : ¬ Labelled cands label → ∀ q ∈ cands, tvlOf q ≤ tvlOf top

/-- Where ranking by the text `asked` finds what `label` stands for. -/
def Harmless (cands : List (LlamaPool K)) (asked label : String) : Prop :=
  asked = label
  ∨ Labelled cands label ∧ ¬ Labelled cands asked
    ∧ (∀ c, FirstBest tvlOf c cands → c.poolMeta = some label)
  ∨ ¬ Labelled cands label ∧ (¬ Labelled cands asked
    ∨ ∃ c ∈ cands, c.poolMeta = some asked ∧ ∀ q ∈ cands, tvlOf q ≤ tvlOf c)

variable {cands : List (LlamaPool K)} {asked label : String}
  {top : LlamaPool K}

/-- The first of the highest-ranked has the label asked for where any has
it, and the largest TVL of those that rank with it. -/
theorem ranked_first (h : FirstBest (rankKey asked) top cands) :
    (Labelled cands asked → top.poolMeta = some asked)
      ∧ ∀ q ∈ cands, (q.poolMeta = some asked ↔ top.poolMeta = some asked) →
        tvlOf q ≤ tvlOf top := by
  have hle : ∀ q ∈ cands, rankKey asked q ≤ rankKey asked top :=
    fun q hq => h.le hq
  constructor
  · intro h
    obtain ⟨q, hq, hlabel⟩ := h
    by_contra hnot
    have hkey := hle q hq
    rw [rankKey, rankKey, Prod.Lex.toLex_le_toLex] at hkey
    simp [hlabel, hnot] at hkey
    exact absurd hkey (by decide)
  · intro q hq hsame
    have hkey := hle q hq
    rw [rankKey, rankKey, Prod.Lex.toLex_le_toLex] at hkey
    rcases hkey with hlt | ⟨-, hval⟩
    · simp [hsame] at hlt
    · exact hval

/-- Without the label asked for, the ranking is by TVL alone. -/
theorem ranked_by_tvl (hnone : ¬ Labelled cands asked)
    (h : FirstBest (rankKey asked) top cands) : FirstBest tvlOf top cands := by
  apply h.of_keys
  intro b hb c hc
  have hb' : ¬ b.poolMeta = some asked := fun hlabel => hnone ⟨b, hb, hlabel⟩
  have hc' : ¬ c.poolMeta = some asked := fun hlabel => hnone ⟨c, hc, hlabel⟩
  rw [rankKey, rankKey, Prod.Lex.toLex_le_toLex]
  simp [hb', hc']

/-- Asking for the label itself finds the right pool. -/
theorem ranked_right (h : FirstBest (rankKey label) top cands) :
    RightPool cands label top := by
  obtain ⟨hown, htvl⟩ := ranked_first h
  refine ⟨h.mem, ?_, ?_⟩
  · intro hsome
    refine ⟨hown hsome, ?_⟩
    intro q hq hlabel
    exact htvl q hq (by simp [hlabel, hown hsome])
  · intro hnone q hq
    apply htvl q hq
    constructor
    · intro hlabel
      exact absurd ⟨q, hq, hlabel⟩ hnone
    · intro hlabel
      exact absurd ⟨top, h.mem, hlabel⟩ hnone

/-- What is ranked first by one text is the right pool of a label exactly
where asking for the text is harmless. -/
theorem rightPool_iff (h : FirstBest (rankKey asked) top cands) :
    RightPool cands label top ↔ Harmless cands asked label := by
  obtain ⟨hasked, htvl⟩ := ranked_first h
  constructor
  · intro hright
    by_cases hsame : asked = label
    · exact Or.inl hsame
    right
    by_cases hlabel : Labelled cands label
    · -- the right pool has its own label, so none can have the other
      have htop := (hright.own hlabel).1
      have hnone : ¬ Labelled cands asked := by
        intro hsome
        have hboth := hasked hsome
        rw [htop] at hboth
        exact hsame (Option.some.inj hboth).symm
      refine Or.inl ⟨hlabel, hnone, ?_⟩
      intro c hc
      rw [hc.unique (ranked_by_tvl hnone h)]
      exact htop
    · refine Or.inr ⟨hlabel, ?_⟩
      by_cases hsome : Labelled cands asked
      · exact Or.inr ⟨top, h.mem, hasked hsome, hright.other hlabel⟩
      · exact Or.inl hsome
  · intro h
    rcases h with rfl | ⟨hlabel, hnone, hfirst⟩ | ⟨hlabel, hwhy⟩
    · exact ranked_right h
    · have hbest := ranked_by_tvl hnone h
      refine ⟨h.mem, ?_, fun hno => absurd hlabel hno⟩
      intro _
      exact ⟨hfirst top hbest, fun q hq _ => hbest.le hq⟩
    · refine ⟨h.mem, fun hyes => absurd hyes hlabel, ?_⟩
      intro _ q hq
      rcases hwhy with hnone | ⟨c, hc, hmeta, hlargest⟩
      · exact (ranked_by_tvl hnone h).le hq
      · have htop := hasked ⟨c, hc, hmeta⟩
        exact (hlargest q hq).trans (htvl c hc (by simp [hmeta, htop]))

/-- Every answer is read from one pool of the pair, and that pool is the
right one for the fee tier exactly where asking for a hundred times its
percentage is harmless. -/
theorem feeApr_rightPool_iff {w : World K} {token0 token1 : String}
    {feeTier : Int} {res : K × String}
    (h : feeAprFromDefillama w token0 token1 feeTier = .ok res) :
    ∃ pools top, w.llamaPools.read = .ok pools
      ∧ ReadFrom (pools.filter (pairsWith token0.toLower token1.toLower))
        (feeTierText feeTier) res top
      ∧ (RightPool (pools.filter (pairsWith token0.toLower token1.toLower))
          (tierLabel feeTier) top
        ↔ Harmless (pools.filter (pairsWith token0.toLower token1.toLower))
          (feeTierText feeTier) (tierLabel feeTier)) := by
  obtain ⟨pools, top, hpools, hfrom⟩ := feeAprFromDefillama_eq_ok h
  exact ⟨pools, top, hpools, hfrom, rightPool_iff hfrom.first⟩

-- ============================================================ two markets

/-- A pool of the example, by its label, its size and its APR. -/
def pairPool (id label : String) (tvl apr : ℚ) : LlamaPool ℚ where
  pool := id
  symbol := "USDT-WBNB"
  tvlUsd := some tvl
  apy := none
  apyBase := some apr
  underlyingTokens := some
    ["0x55d398326f99059ff775485246999027b3197955", wbnb]
  poolMeta := some label

def marketOf (pools : List (LlamaPool ℚ)) : World ℚ :=
  { World.offline with llamaPools := .ok pools }

/-- The 0.05% pool, and a deeper one of the 0.25% tier. -/
def deepOther : List (LlamaPool ℚ) :=
  [pairPool "own" "0.05%" 1000000 18, pairPool "other" "0.25%" 2000000 40]

/-- The 0.05% pool, and a shallower one of the 0.25% tier. -/
def shallowOther : List (LlamaPool ℚ) :=
  [pairPool "own" "0.05%" 1000000 18, pairPool "other" "0.25%" 500000 40]

theorem pairs_of_market (pools : List (LlamaPool ℚ))
    (h : ∀ p ∈ pools, p.underlyingTokens
      = some ["0x55d398326f99059ff775485246999027b3197955", wbnb]) :
    pools.filter (pairsWith
      ("0x55d398326f99059ff775485246999027b3197955".toLower) wbnb.toLower)
        = pools := by
  rw [List.filter_eq_self]
  intro p hp
  have hpair : pairsWith
      ("0x55d398326f99059ff775485246999027b3197955".toLower) wbnb.toLower
      (pairPool "own" "0.05%" 0 0) = true := by decide +kernel
  unfold pairsWith at hpair ⊢
  rw [h p hp]
  exact hpair

/-- The 0.05% tier is asked for as 5.00%, no pool has that label, and the
answer is the deeper pool's forty percent. -/
theorem feeApr_of_other_tier :
    ∃ res : ℚ × String,
      feeAprFromDefillama (marketOf deepOther)
        "0x55d398326f99059ff775485246999027b3197955" wbnb 500 = .ok res
      ∧ res = (2 / 5, "other")
      ∧ Labelled deepOther (tierLabel 500)
      ∧ ¬ ∃ top, RightPool deepOther (tierLabel 500) top
        ∧ res.1 = ((top.apyBase.or top.apy).getD 0) / 100 := by
  have hlabel : tierLabel 500 = "0.05%" := by decide +kernel
  obtain ⟨res, hres, hfacts⟩ := exists_of_okAnd
    (x := feeAprFromDefillama (marketOf deepOther)
      "0x55d398326f99059ff775485246999027b3197955" wbnb 500)
    (p := fun res => decide (res = (2 / 5, "other"))) (by decide +kernel)
  have hvalue := of_decide_eq_true hfacts
  have hown : Labelled deepOther (tierLabel 500) :=
    ⟨_, List.mem_cons_self, by rw [hlabel]; rfl⟩
  refine ⟨res, hres, hvalue, hown, ?_⟩
  intro h
  obtain ⟨top, hright, hapr⟩ := h
  have htop := (hright.own hown).1
  rw [hlabel] at htop
  have hmem := hright.mem
  simp only [deepOther, List.mem_cons, List.not_mem_nil, or_false] at hmem
  rcases hmem with rfl | rfl
  · rw [hvalue] at hapr
    norm_num [pairPool] at hapr
  · simp [pairPool] at htop

/-- Where the tier's pool is the deepest of the pair, it is read. -/
theorem feeApr_rightPool_shallow :
    ∃ res top, feeAprFromDefillama (marketOf shallowOther)
        "0x55d398326f99059ff775485246999027b3197955" wbnb 500 = .ok res
      ∧ ReadFrom shallowOther (feeTierText 500) res top
      ∧ RightPool shallowOther (tierLabel 500) top := by
  obtain ⟨res, hres, -⟩ := exists_of_okAnd
    (x := feeAprFromDefillama (marketOf shallowOther)
      "0x55d398326f99059ff775485246999027b3197955" wbnb 500)
    (p := fun _ => true) (by decide +kernel)
  obtain ⟨pools, top, hpools, hfrom, hiff⟩ := feeApr_rightPool_iff hres
  cases hpools
  have hcands := pairs_of_market shallowOther (by decide +kernel)
  rw [hcands] at hfrom hiff
  refine ⟨res, top, hres, hfrom, hiff.2 (Or.inr (Or.inl ⟨?_, ?_, ?_⟩))⟩
  · exact ⟨_, List.mem_cons_self, by decide +kernel⟩
  · have hnone : ∀ q ∈ shallowOther, q.poolMeta ≠ some (feeTierText 500) := by
      decide +kernel
    intro h
    obtain ⟨q, hq, hlabel⟩ := h
    exact hnone q hq hlabel
  · intro c hc
    have hfirst : FirstBest tvlOf (pairPool "own" "0.05%" 1000000 18)
        shallowOther := .here (by decide +kernel)
    rw [hc.unique hfirst]
    decide +kernel

end Proofstand.PcsRebalancer
