/-
What pcs-yield's gate makes sure of.

`decide()` drops the pools with a CRITICAL token and prefers the screened
ones among the rest. So no winner has a token the sentry called CRITICAL,
and wherever some pool is screened without one, the winner is such a pool
(`winner_vetted`). Where there is none the gate is best-effort: a fork
that does not come up, or a token past the depth and the cap, lets the
best pool through (`unforked_gate_wins`).

A token whose check raised counts as screened. With that, the gate fails
closed exactly where no pool is left, or where one is screened and the
best of these met no error (`failsClosed_iff`).

# What is read from where

The winner is a function of the data: the reports that came back and the
pools' scores. The statements are about the world: what the sentry said of
a token, and whether the fork came up. `observe_eq_ok` is the bridge, and
`isCritical_iff`, `screened_iff` and `mem_passing_iff` read each test of
`decide()` as a fact about the world.

# The exact condition

To fail closed is to have every token of the winner cleared. A screened
pool may still have a token whose check raised, and such a token is not
cleared; so the winner is vouched for exactly if there is none, or if the
best screened pool met no such check. The ranking is by net APR and
stable, so the best screened pool is the head of the screened part of the
ranking (`ranked_screened`).
-/
import Proofstand.Agents.PcsYield.Agent
import Proofstand.Lib.Fallible
import Proofstand.Lib.Ranking

namespace Proofstand.PcsYield

open Fallible Ranking

variable {K : Type}

-- =============================================================== the gate

/-- What the gate has: the report on each of its tokens, if the fork came
up. -/
theorem lookup_gate {w : World K} {tokens : List String} {t : String}
    {e : SentryEntry} :
    (gate w tokens).1.lookup t = some e
      ↔ w.anvilFork = .ok () ∧ t ∈ tokens ∧ e = sentryEntry w t := by
  have hmap : ∀ ts : List String,
      (ts.map fun t => (t, sentryEntry w t)).lookup t
        = if t ∈ ts then some (sentryEntry w t) else none := by
    intro ts
    induction ts with
    | nil => rfl
    | cons u ts ih =>
        rw [List.map_cons, List.lookup_cons, ih]
        by_cases hu : t = u
        · simp [hu]
        · have hbeq : (t == u) = false := by simpa using hu
          simp [hbeq, hu]
  cases tokens with
  | nil => simp [gate]
  | cons u ts =>
      cases hfork : w.anvilFork with
      | error msg => simp [gate, hfork]
      | ok _ =>
          simp only [gate, hfork, hmap]
          by_cases hin : t ∈ u :: ts
          · simp [hin, eq_comm]
          · simp [hin]

/-- A token is critical exactly when its report came back and says so. -/
theorem isCritical_iff {w : World K} {t : String} :
    (sentryEntry w t).isCritical = true
      ↔ ∃ rep, w.sentryReport t = .ok rep ∧ rep.verdict = .CRITICAL := by
  unfold sentryEntry
  cases hrep : w.sentryReport t with
  | error msg => simp [SentryEntry.isCritical]
  | ok rep =>
      obtain ⟨verdict, score, fails⟩ := rep
      cases verdict <;> simp [SentryEntry.isCritical]

variable [Field K] [LinearOrder K]

/-- What an observation has: the gate's answers on the tokens it gated,
and a score for each of the pools, which are not none. -/
theorem observe_eq_ok [FloorRing K] {a : PcsYieldAgent K} {lib : Libm K}
    {s s' : Option (Data K)} {inputs : Dict K} {w : World K} {d : Data K}
    (h : a.observe lib s inputs w = .ok (d, s')) :
    d.sentry = (gate w d.gatedTokens).1 ∧ d.poolsScored ≠ [] := by
  obtain ⟨capitalVal, -, h⟩ := bind_eq_ok.1 h
  obtain ⟨capital, -, h⟩ := bind_eq_ok.1 h
  obtain ⟨horizon, -, h⟩ := bind_eq_ok.1 h
  obtain ⟨pools, -, h⟩ := bind_eq_ok.1 h
  split at h
  case isTrue => cases h
  case isFalse hsome =>
    obtain ⟨gas, -, h⟩ := bind_eq_ok.1 h
    obtain ⟨raw, hraw, h⟩ := bind_eq_ok.1 h
    obtain ⟨scored, hscored, h⟩ := bind_eq_ok.1 h
    cases h
    refine ⟨rfl, ?_⟩
    have hlength : scored.length = pools.length := by
      rw [mapM_length hscored, mapM_length hraw]
    intro hnil
    have hnone : scored = [] := hnil
    apply hsome
    rw [List.isEmpty_iff, ← List.length_eq_zero_iff, ← hlength, hnone]
    rfl

-- ============================================================= the winner

/-- What is left to choose from: pools without a CRITICAL token. -/
def passing (d : Data K) : List (ScoredPool K) :=
  d.poolsScored.filter fun p => (badTokens d.sentry p).isEmpty

/-- Those of them that were screened. -/
def eligible (d : Data K) : List (ScoredPool K) :=
  (passing d).filter fun p => screened d.sentry p

omit [Field K] in
/-- The ranking is the passing pools', in order of their net APR. -/
theorem ranked_eq (d : Data K) :
    (PcsYieldAgent.decide d).params.ranked
      = (pySortedDesc (fun p => p.netAprPct) (passing d)).map
        fun p => ⟨p, screened d.sentry p⟩ := by
  symm
  apply List.map_insertionSort
  intro p _ q _
  exact Iff.rfl

omit [Field K] in
/-- The screened ones of the ranking are the ranking of the screened ones. -/
theorem ranked_screened (d : Data K) :
    ((PcsYieldAgent.decide d).params.ranked.filter
        fun x => x.securityScreened)
      = (pySortedDesc (fun p => p.netAprPct) (eligible d)).map
        fun p => ⟨p, screened d.sentry p⟩ := by
  rw [ranked_eq, List.filter_map]
  show List.map _ (List.filter (fun p => screened d.sentry p) _) = _
  rw [pySortedDesc, filter_sort_desc]
  rfl

omit [Field K] in
/-- The winner is the best screened pool, or else the best of all that
pass. -/
theorem winner_eq_some (d : Data K) {x : RankedPool K} :
    (PcsYieldAgent.decide d).params.winner = some x
      ↔ ∃ p, x = ⟨p, screened d.sentry p⟩
        ∧ FirstBest (fun p => p.netAprPct) p
          (if eligible d = [] then passing d else eligible d) := by
  have hnone : ((PcsYieldAgent.decide d).params.ranked.filter
      fun x => x.securityScreened).isEmpty ↔ eligible d = [] := by
    rw [ranked_screened, List.isEmpty_iff, List.map_eq_nil_iff,
      pySortedDesc, ← List.length_eq_zero_iff, List.length_insertionSort,
      List.length_eq_zero_iff]
  have hhead : ∀ l : List (ScoredPool K),
      ((pySortedDesc (fun p => p.netAprPct) l).map
          fun p => (⟨p, screened d.sentry p⟩ : RankedPool K)).head? = some x
        ↔ ∃ p, x = ⟨p, screened d.sentry p⟩
          ∧ FirstBest (fun p => p.netAprPct) p l := by
    intro l
    rw [List.head?_map, Option.map_eq_some_iff]
    constructor
    · intro h
      obtain ⟨p, hp, rfl⟩ := h
      exact ⟨p, rfl, head?_sort_desc.1 hp⟩
    · intro h
      obtain ⟨p, rfl, hp⟩ := h
      exact ⟨p, head?_sort_desc.2 hp, rfl⟩
  have hwinner : (PcsYieldAgent.decide d).params.winner
      = if ((PcsYieldAgent.decide d).params.ranked.filter
            fun x => x.securityScreened).isEmpty then
          (PcsYieldAgent.decide d).params.ranked.head?
        else ((PcsYieldAgent.decide d).params.ranked.filter
          fun x => x.securityScreened).head? := rfl
  rw [hwinner]
  by_cases hempty : eligible d = []
  · rw [if_pos (hnone.2 hempty), if_pos hempty, ranked_eq]
    exact hhead (passing d)
  · rw [if_neg (fun h => hempty (hnone.1 h)), if_neg hempty,
      ranked_screened]
    exact hhead (eligible d)

omit [Field K] in
/-- The winner is a pool that was not excluded, with its own screening. -/
theorem winner_passing {d : Data K} {x : RankedPool K}
    (hx : (PcsYieldAgent.decide d).params.winner = some x) :
    x.row ∈ passing d
      ∧ x.securityScreened = screened d.sentry x.row := by
  obtain ⟨p, rfl, hp⟩ := (winner_eq_some d).1 hx
  refine ⟨?_, rfl⟩
  by_cases hempty : eligible d = []
  · rw [if_pos hempty] at hp
    exact hp.mem
  · rw [if_neg hempty] at hp
    exact (List.mem_filter.1 hp.mem).1

-- ============================================================== the tokens

/-- A token the gate vouches for: on the allowlist, or gated, with a report
of OK or WARN. -/
def Cleared (w : World K) (d : Data K) (t : String) : Prop :=
  t ∈ allowlist
    ∨ w.anvilFork = .ok () ∧ t ∈ d.gatedTokens
      ∧ ∃ rep, w.sentryReport t = .ok rep
        ∧ (rep.verdict = .OK ∨ rep.verdict = .WARN)

/-- Put to the sentry, on a running fork. -/
def Gated (w : World K) (d : Data K) (t : String) : Prop :=
  w.anvilFork = .ok () ∧ t ∈ d.gatedTokens

/-- Put to the sentry, and called CRITICAL. -/
def Critical (w : World K) (d : Data K) (t : String) : Prop :=
  Gated w d t ∧ ∃ rep, w.sentryReport t = .ok rep ∧ rep.verdict = .CRITICAL

/-- On the allowlist, or put to the sentry and not called CRITICAL. -/
def Vetted (w : World K) (d : Data K) (t : String) : Prop :=
  t ∈ allowlist ∨ Gated w d t
    ∧ ∀ rep, w.sentryReport t = .ok rep →
      rep.verdict = .OK ∨ rep.verdict = .WARN

/-- Whichever pool wins, its tokens are cleared. -/
def FailsClosed (w : World K) (d : Data K) : Prop :=
  ∀ x, (PcsYieldAgent.decide d).params.winner = some x →
    ∀ t ∈ x.row.underlyingTokens, Cleared w d t

/-- No pool passes, or some that pass are screened and the first best of
these has no token whose check raised. -/
def ScreenedBest (d : Data K) : Prop :=
  passing d = []
    ∨ ∃ p, FirstBest (fun p => p.netAprPct) p (eligible d)
      ∧ ∀ t ∈ p.underlyingTokens, t ∉ allowlist →
        ∀ error, d.sentry.lookup t ≠ some (.unknown error)

omit [Field K] [LinearOrder K] in
/-- A pool is screened when each of its tokens is allowed or was put to the
sentry. -/
theorem screened_iff {d : Data K} {p : ScoredPool K} :
    screened d.sentry p = true ↔ ∀ t ∈ p.underlyingTokens,
      t ∈ allowlist ∨ ∃ e, d.sentry.lookup t = some e := by
  simp [screened, Option.isSome_iff_exists]

omit [Field K] [LinearOrder K] in
/-- Screened: each token is on the allowlist or was gated. -/
theorem screened_gated {w : World K} {d : Data K}
    (hsentry : d.sentry = (gate w d.gatedTokens).1) {p : ScoredPool K} :
    screened d.sentry p = true ↔ ∀ t ∈ p.underlyingTokens,
      t ∈ allowlist ∨ Gated w d t := by
  rw [screened_iff, hsentry]
  simp only [lookup_gate]
  constructor
  · intro h t ht
    rcases h t ht with hlisted | ⟨e, hfork, hin, -⟩
    · exact Or.inl hlisted
    · exact Or.inr ⟨hfork, hin⟩
  · intro h t ht
    rcases h t ht with hlisted | ⟨hfork, hin⟩
    · exact Or.inl hlisted
    · exact Or.inr ⟨_, hfork, hin, rfl⟩

omit [Field K] [LinearOrder K] in
/-- Passing: no token was called CRITICAL. -/
theorem mem_passing_iff {w : World K} {d : Data K}
    (hsentry : d.sentry = (gate w d.gatedTokens).1) {p : ScoredPool K} :
    p ∈ passing d ↔ p ∈ d.poolsScored
      ∧ ∀ t ∈ p.underlyingTokens, ¬ Critical w d t := by
  rw [passing, List.mem_filter, List.isEmpty_iff, badTokens,
    List.filter_eq_nil_iff]
  apply and_congr_right'
  apply forall₂_congr
  intro t _
  rw [Option.any_eq_true, hsentry]
  simp only [lookup_gate]
  apply not_congr
  constructor
  · intro h
    obtain ⟨e, ⟨hfork, hin, rfl⟩, hcritical⟩ := h
    exact ⟨⟨hfork, hin⟩, isCritical_iff.1 hcritical⟩
  · intro h
    obtain ⟨⟨hfork, hin⟩, hcritical⟩ := h
    exact ⟨_, ⟨hfork, hin, rfl⟩, isCritical_iff.2 hcritical⟩

omit [Field K] [LinearOrder K] in
theorem mem_eligible_iff {d : Data K} {p : ScoredPool K} :
    p ∈ eligible d ↔ p ∈ passing d ∧ screened d.sentry p = true := by
  rw [eligible, List.mem_filter]

omit [Field K] [LinearOrder K] in
/-- A cleared token was screened, and its check did not raise. -/
theorem Cleared.entry {w : World K} {d : Data K} {t : String}
    (hsentry : d.sentry = (gate w d.gatedTokens).1) (h : Cleared w d t) :
    t ∈ allowlist ∨ ∃ v score fails,
      d.sentry.lookup t = some (.report v score fails) := by
  rcases h with hlisted | ⟨hfork, hgated, rep, hrep, -⟩
  · exact Or.inl hlisted
  · right
    refine ⟨rep.verdict, rep.score, rep.hardFails, ?_⟩
    rw [hsentry, lookup_gate]
    exact ⟨hfork, hgated, by rw [sentryEntry, hrep]⟩

omit [Field K] [LinearOrder K] in
/-- Every token of a pool that passes and was screened is vetted. -/
theorem vetted_of_eligible {w : World K} {d : Data K}
    (hsentry : d.sentry = (gate w d.gatedTokens).1) {p : ScoredPool K}
    (hp : p ∈ eligible d) {t : String} (ht : t ∈ p.underlyingTokens) :
    Vetted w d t := by
  obtain ⟨hpass, hscreened⟩ := mem_eligible_iff.1 hp
  rcases (screened_gated hsentry).1 hscreened t ht with hlisted | hgated
  · exact Or.inl hlisted
  · refine Or.inr ⟨hgated, ?_⟩
    intro rep hrep
    have hgood := ((mem_passing_iff hsentry).1 hpass).2 t ht
    cases hverdict : rep.verdict with
    | OK => exact Or.inl rfl
    | WARN => exact Or.inr rfl
    | CRITICAL => exact absurd ⟨hgated, rep, hrep, hverdict⟩ hgood

omit [Field K] [LinearOrder K] in
/-- A vetted token is cleared, unless its check raised. -/
theorem Vetted.cleared {w : World K} {d : Data K}
    (hsentry : d.sentry = (gate w d.gatedTokens).1) {t : String}
    (h : Vetted w d t)
    (hheard : t ∉ allowlist →
      ∀ error, d.sentry.lookup t ≠ some (.unknown error)) :
    Cleared w d t := by
  by_cases hlisted : t ∈ allowlist
  · exact Or.inl hlisted
  · rcases h with hin | ⟨⟨hfork, hgated⟩, hverdict⟩
    · exact absurd hin hlisted
    · cases hrep : w.sentryReport t with
      | error msg =>
          have hentry : d.sentry.lookup t = some (sentryEntry w t) := by
            rw [hsentry, lookup_gate]
            exact ⟨hfork, hgated, rfl⟩
          rw [sentryEntry, hrep] at hentry
          exact absurd hentry (hheard hlisted _)
      | ok rep =>
          exact Or.inr ⟨hfork, hgated, rep, hrep, hverdict rep hrep⟩

-- ============================================================== the whole

omit [Field K] in
/-- An observation that fails closed has nothing to choose from, or a best
screened pool whose checks all came back, -/
theorem screenedBest_of_failsClosed {w : World K} {d : Data K}
    (hsentry : d.sentry = (gate w d.gatedTokens).1)
    (h : FailsClosed w d) : ScreenedBest d := by
  by_cases hpassing : passing d = []
  · exact Or.inl hpassing
  · right
    by_cases heligible : eligible d = []
    · obtain ⟨p, hp⟩ := exists_firstBest
        (fun p : ScoredPool K => p.netAprPct) hpassing
      have hwinner := (winner_eq_some d).2 ⟨p, rfl, by
        rw [if_pos heligible]
        exact hp⟩
      have hscreened : screened d.sentry p = true := by
        apply screened_iff.2
        intro t ht
        rcases (h _ hwinner t ht).entry hsentry
          with hlisted | ⟨v, score, fails, hentry⟩
        · exact Or.inl hlisted
        · exact Or.inr ⟨_, hentry⟩
      have hin := mem_eligible_iff.2 ⟨hp.mem, hscreened⟩
      rw [heligible] at hin
      cases hin
    · obtain ⟨p, hp⟩ := exists_firstBest
        (fun p : ScoredPool K => p.netAprPct) heligible
      have hwinner := (winner_eq_some d).2 ⟨p, rfl, by
        rw [if_neg heligible]
        exact hp⟩
      refine ⟨p, hp, ?_⟩
      intro t ht hlisted error hentry
      rcases (h _ hwinner t ht).entry hsentry
        with hin | ⟨v, score, fails, hreport⟩
      · exact hlisted hin
      · rw [hreport] at hentry
        cases hentry

omit [Field K] in
/-- and one that has fails closed. -/
theorem failsClosed_of_screenedBest {w : World K} {d : Data K}
    (hsentry : d.sentry = (gate w d.gatedTokens).1)
    (h : ScreenedBest d) : FailsClosed w d := by
  intro x hwinner t ht
  obtain ⟨p, rfl, hp⟩ := (winner_eq_some d).1 hwinner
  rcases h with hnone | ⟨q, hq, hheard⟩
  · have heligible : eligible d = [] := by
      rw [eligible, hnone]
      rfl
    rw [if_pos heligible, hnone] at hp
    cases hp
  · rw [if_neg (List.ne_nil_of_mem hq.mem)] at hp
    obtain rfl := hp.unique hq
    exact (vetted_of_eligible hsentry hp.mem ht).cleared hsentry
      (hheard t ht)

/-- Whatever was observed: no winner has a CRITICAL token, and where some
scored pool has only vetted ones, so has the winner. -/
theorem winner_vetted [FloorRing K] {a : PcsYieldAgent K} {lib : Libm K}
    {s s' : Option (Data K)} {inputs : Dict K} {w : World K} {d : Data K}
    (h : a.observe lib s inputs w = .ok (d, s')) {x : RankedPool K}
    (hx : (PcsYieldAgent.decide d).params.winner = some x) :
    (∀ t ∈ x.row.underlyingTokens, ¬ Critical w d t)
      ∧ ((∃ p ∈ d.poolsScored, ∀ t ∈ p.underlyingTokens,
          (t ∈ allowlist ∨ Gated w d t) ∧ ¬ Critical w d t) →
        ∀ t ∈ x.row.underlyingTokens, Vetted w d t) := by
  have hsentry := (observe_eq_ok h).1
  constructor
  · exact ((mem_passing_iff hsentry).1 (winner_passing hx).1).2
  · intro h
    obtain ⟨q, hq, hvetted⟩ := h
    intro t ht
    obtain ⟨p, rfl, hp⟩ := (winner_eq_some d).1 hx
    have heligible : q ∈ eligible d := by
      rw [mem_eligible_iff, mem_passing_iff hsentry,
        screened_gated hsentry]
      exact ⟨⟨hq, fun t ht => (hvetted t ht).2⟩,
        fun t ht => (hvetted t ht).1⟩
    rw [if_neg (List.ne_nil_of_mem heligible)] at hp
    exact vetted_of_eligible hsentry hp.mem ht

/-- Whatever was observed, the winner's tokens are cleared exactly where
the best screened pool met no failed check, or nothing passes. -/
theorem failsClosed_iff [FloorRing K] {a : PcsYieldAgent K} {lib : Libm K}
    {s s' : Option (Data K)} {inputs : Dict K} {w : World K} {d : Data K}
    (h : a.observe lib s inputs w = .ok (d, s')) :
    FailsClosed w d ↔ ScreenedBest d := by
  have hsentry := (observe_eq_ok h).1
  constructor
  · intro hclosed
    exact screenedBest_of_failsClosed hsentry hclosed
  · intro hbest
    exact failsClosed_of_screenedBest hsentry hbest

-- ========================================================= one pool, hired

def xvs : String := "0xcf6bb5389c92bdda8a3747ddb454cb7a64626c63"

def xvsWbnb : LlamaPool ℚ where
  pool := "xvs-wbnb"
  symbol := "XVS-WBNB"
  tvlUsd := some 1000000
  apy := some 20
  apyBase := some 18
  underlyingTokens :=
    some [xvs, "0xbb4cdb9cbd36b01bd1cbaebf2de08d9173bc095c"]
  poolMeta := none

/-- One pool, and what comes back on the token of it that is gated. -/
def gateWorld (heard : Live SentryReport) : World ℚ :=
  { World.offline with
    gasPriceWei := .ok 1000000000
    spotPrice := fun _ => .ok 600
    ammPools := .ok [xvsWbnb]
    anvilFork := .ok ()
    sentryReport := fun _ => heard }

/-- The constructor's defaults. -/
def yieldRouter : PcsYieldAgent ℚ := ⟨50000, 15⟩

/-- The same, with no fork. -/
def unforkedWorld : World ℚ :=
  { gateWorld (.error "unreachable") with
    anvilFork := .error "anvil did not start" }

/-- With no fork the gate has nothing to say, and the pool is routed
into. -/
theorem unforked_gate_wins :
    ∃ d s' x, yieldRouter.observe ratMath none
        [("capital_usd", .int 1000)] unforkedWorld = .ok (d, s')
      ∧ (PcsYieldAgent.decide d).params.winner = some x
      ∧ ¬ FailsClosed unforkedWorld d := by
  obtain ⟨⟨d, s'⟩, hobs, hwinner⟩ := exists_of_okAnd
    (x := yieldRouter.observe ratMath none [("capital_usd", .int 1000)]
      unforkedWorld)
    (p := fun out => (PcsYieldAgent.decide out.1).params.winner.any
      fun x => x.row.underlyingTokens.contains xvs)
    (by decide +kernel)
  obtain ⟨x, hx, hin⟩ := (Option.any_eq_true _ _).1 hwinner
  refine ⟨d, s', x, hobs, hx, ?_⟩
  intro hclosed
  rcases hclosed x hx xvs (by simpa using hin)
    with hlisted | ⟨hfork, -⟩
  · have hnot : xvs ∉ allowlist := by decide +kernel
    exact hnot hlisted
  · cases hfork

/-- Heard with a WARN, it is routed into on the sentry's word. -/
theorem winner_vetted_with_report :
    ∃ d s' x, yieldRouter.observe ratMath none [("capital_usd", .int 1000)]
        (gateWorld (.ok ⟨.WARN, 60, []⟩)) = .ok (d, s')
      ∧ (PcsYieldAgent.decide d).params.winner = some x
      ∧ (∀ t ∈ x.row.underlyingTokens,
          ¬ Critical (gateWorld (.ok ⟨.WARN, 60, []⟩)) d t)
      ∧ ∀ t ∈ x.row.underlyingTokens,
          Vetted (gateWorld (.ok ⟨.WARN, 60, []⟩)) d t := by
  obtain ⟨⟨d, s'⟩, hobs, hfacts⟩ := exists_of_okAnd
    (x := yieldRouter.observe ratMath none [("capital_usd", .int 1000)]
      (gateWorld (.ok ⟨.WARN, 60, []⟩)))
    (p := fun out => (PcsYieldAgent.decide out.1).params.winner.isSome
      && !(eligible out.1).isEmpty) (by decide +kernel)
  obtain ⟨hwinner, hsome⟩ := Bool.and_eq_true_iff.1 hfacts
  obtain ⟨x, hx⟩ := Option.isSome_iff_exists.1 hwinner
  obtain ⟨q, hq⟩ := List.exists_mem_of_ne_nil (eligible d)
    (by simpa using hsome)
  obtain ⟨hsafe, hvetted⟩ := winner_vetted hobs hx
  refine ⟨d, s', x, hobs, hx, hsafe, hvetted ?_⟩
  have hsentry := (observe_eq_ok hobs).1
  obtain ⟨hpass, hscreened⟩ := mem_eligible_iff.1 hq
  obtain ⟨hscored, hgood⟩ := (mem_passing_iff hsentry).1 hpass
  exact ⟨q, hscored, fun t ht =>
    ⟨(screened_gated hsentry).1 hscreened t ht, hgood t ht⟩⟩

end Proofstand.PcsYield
