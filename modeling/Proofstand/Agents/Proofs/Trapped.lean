/-
The honeypot, and what the sentry makes of it.

Once its deployer has named the pair, nothing anybody else calls brings a
token into it but from the deployer (`locked_run`). So a sell simulated on
such a token fails, whatever happened to it before and in between, and the
report on it is CRITICAL by the honeypot check (`trapped_is_critical`).

The router is code of another repository: the one thing used of it is that
a swap that goes through has moved the amount into the pair by the token's
own `transferFrom` (`RouterMoves`).

# From the contract to the report

Four facts are chained. The lock holds after the deployer has named the
pair, in every history in which it names no other (`locked_run`). Under
the lock nobody but the deployer moves tokens into the pair, by their own
call or on another's behalf. A router's swap that goes through would have
done that, so the trade's sell fails for every trader that is not the
deployer. And a trade that bought and could not sell is a failed honeypot
check, which is a hard fail whatever the other checks say.

The histories are arbitrary lists of calls by arbitrary senders, before
and after the naming, and the amounts and accounts of the trade are the
sentry's own.
-/
import Proofstand.Agents.Proofs.Tokens
import Proofstand.Agents.Proofs.Trade

namespace Proofstand

open Fallible

namespace Tokens

variable {A : Type} [DecidableEq A] [Zero A] {deployer pair : A}

-- ============================================================== the lock

/-- The pair is named, and only its deployer could name another. -/
structure Locked (deployer pair : A) (t : Token A) : Prop where
  owner : t.owner = deployer
  named : t.pair = pair

omit [DecidableEq A] [Zero A] in
/-- No transaction of the list names another pair. -/
def Settled (deployer : A) (txs : List (Tx A)) : Prop :=
  ∀ p, (deployer, Call.setPair p) ∉ txs

/-- Nobody but the deployer transfers into the pair. -/
theorem Locked.source {t t' : Token A} {source : A} {value : Uint256}
    {events : List (Event A)} (h : Locked deployer pair t) (hpair : pair ≠ 0)
    (htransfer : HoneypotToken.internalTransfer t source pair value
      = .ok (t', events)) : source = deployer := by
  obtain ⟨hsell, -, -⟩ := honeypot_eq_ok htransfer
  by_contra hother
  have hset : t.pair ≠ 0 := by
    rw [h.named]
    exact hpair
  simp [Token.isSell, h.named, h.owner, hpair, hother] at hsell

/-- And so no one on another's behalf. -/
theorem Locked.transferFrom_fails {t : Token A} {sender source : A}
    {value : Uint256} {out : Executed A} (h : Locked deployer pair t)
    (hpair : pair ≠ 0) (hsource : source ≠ deployer) :
    exec HoneypotToken.internalTransfer t sender
      (.transferFrom source pair value) ≠ .ok out := by
  intro hexec
  obtain ⟨allowance, hinner⟩ := transferFrom_eq_ok hexec
  have hlocked : Locked deployer pair { t with allowance := allowance } :=
    ⟨h.owner, h.named⟩
  exact hsource (hlocked.source hpair hinner)

/-- A transfer leaves the owner and the pair as they are. -/
theorem honeypot_storage {t t' : Token A} {source target : A}
    {value : Uint256} {events : List (Event A)}
    (h : HoneypotToken.internalTransfer t source target value
      = .ok (t', events)) : t'.owner = t.owner ∧ t'.pair = t.pair := by
  obtain ⟨-, hmove, -⟩ := honeypot_eq_ok h
  obtain ⟨hsame, -, -⟩ := move_eq_ok hmove
  rw [hsame]
  exact ⟨rfl, rfl⟩

/-- A transaction that does not name a pair leaves the lock, and logs
nothing into the pair but from the deployer. -/
theorem Locked.apply {d : Deployed A} {tx : Tx A}
    (h : Locked deployer pair d.token) (hpair : pair ≠ 0)
    (htx : ∀ p, tx ≠ (deployer, .setPair p)) :
    Locked deployer pair (apply .HoneypotToken d tx).token
      ∧ ∃ events, (apply .HoneypotToken d tx).logs = d.logs ++ events
        ∧ ∀ source value, Event.transfer source pair value ∈ events →
          source = deployer := by
  obtain ⟨sender, call⟩ := tx
  unfold Tokens.apply
  dsimp only
  cases hexec : exec Contract.HoneypotToken.internalTransfer d.token sender
      call with
  | error e =>
      refine ⟨h, [], (List.append_nil _).symm, ?_⟩
      intro source value hin
      cases hin
  | ok out =>
      obtain ⟨t', events⟩ := out
      refine ⟨?_, events, rfl, ?_⟩
      · cases call with
        | setPair p =>
            obtain ⟨hsender, -, -⟩ := setPair_eq_ok hexec
            rw [h.owner] at hsender
            rw [hsender] at htx
            exact absurd rfl (htx p)
        | approve spender value =>
            cases hexec
            exact ⟨h.owner, h.named⟩
        | transfer target value =>
            obtain ⟨howner, hnamed⟩ := honeypot_storage hexec
            exact ⟨howner.trans h.owner, hnamed.trans h.named⟩
        | transferFrom source target value =>
            obtain ⟨allowance, hinner⟩ := transferFrom_eq_ok hexec
            obtain ⟨howner, hnamed⟩ := honeypot_storage hinner
            exact ⟨howner.trans h.owner, hnamed.trans h.named⟩
      · intro source value hin
        cases call with
        | setPair p =>
            obtain ⟨-, -, rfl⟩ := setPair_eq_ok hexec
            cases hin
        | approve spender value' =>
            cases hexec
            simp at hin
        | transfer target value' =>
            obtain ⟨-, -, rfl⟩ := honeypot_eq_ok hexec
            simp only [List.mem_singleton, Event.transfer.injEq] at hin
            obtain ⟨rfl, rfl, rfl⟩ := hin
            exact h.source hpair hexec
        | transferFrom source' target value' =>
            obtain ⟨allowance, hinner⟩ := transferFrom_eq_ok hexec
            obtain ⟨-, -, rfl⟩ := honeypot_eq_ok hinner
            simp only [List.mem_singleton, Event.transfer.injEq] at hin
            obtain ⟨rfl, rfl, rfl⟩ := hin
            have hlocked : Locked deployer pair
                { d.token with allowance := allowance } :=
              ⟨h.owner, h.named⟩
            exact hlocked.source hpair hinner

/-- A locked token stays locked while nobody names another pair, and nobody
but the deployer sells to it. -/
theorem Locked.foldl {d : Deployed A} {txs : List (Tx A)}
    (h : Locked deployer pair d.token) (hpair : pair ≠ 0)
    (hsettled : Settled deployer txs) :
    Locked deployer pair (txs.foldl (Tokens.apply .HoneypotToken) d).token
      ∧ ∃ events,
        (txs.foldl (Tokens.apply .HoneypotToken) d).logs = d.logs ++ events
        ∧ ∀ source value, Event.transfer source pair value ∈ events →
          source = deployer := by
  induction txs using List.reverseRecOn with
  | nil =>
      refine ⟨h, [], (List.append_nil _).symm, ?_⟩
      intro source value hin
      cases hin
  | append_singleton txs tx ih =>
      have hbefore : Settled deployer txs := fun p hin =>
        hsettled p (List.mem_append_left _ hin)
      have htx : ∀ p, tx ≠ (deployer, .setPair p) := by
        intro p heq
        exact hsettled p (List.mem_append_right _ (by rw [heq]; simp))
      obtain ⟨hlocked, events, hlogs, hevents⟩ := ih hbefore
      obtain ⟨hlocked', events', hlogs', hevents'⟩ :=
        hlocked.apply hpair htx
      rw [List.foldl_append]
      refine ⟨hlocked', events ++ events', ?_, ?_⟩
      · rw [← List.append_assoc, ← hlogs]
        exact hlogs'
      · intro source value hin
        rcases List.mem_append.1 hin with hin | hin
        · exact hevents source value hin
        · exact hevents' source value hin

/-- After the deployer has named the pair, and as long as it names no
other, the lock is on. -/
theorem locked_run (supply : Uint256) (before after : List (Tx A)) (hpair : pair ≠ 0)
    (hsettled : Settled deployer after) :
    let d := history .HoneypotToken deployer supply
      (before ++ [(deployer, .setPair pair)])
    let d' := history .HoneypotToken deployer supply
      (before ++ (deployer, .setPair pair) :: after)
    Locked deployer pair d'.token
      ∧ ∃ events, d'.logs = d.logs ++ events
        ∧ ∀ source value, Event.transfer source pair value ∈ events →
          source = deployer := by
  intro d d'
  have hd : Locked deployer pair d.token := by
    have howner := (accounted_run .HoneypotToken deployer supply before).owner
    show Locked deployer pair (history .HoneypotToken deployer supply
      (before ++ [(deployer, .setPair pair)])).token
    have hnamed : exec Contract.HoneypotToken.internalTransfer
        (history .HoneypotToken deployer supply before).token deployer
          (.setPair pair)
        = .ok ({ (history .HoneypotToken deployer supply before).token with
            pair := pair }, []) := by
      simp [exec, setPair, require, howner, Bind.bind, Except.bind, pure,
        Except.pure]
    unfold history at howner hnamed ⊢
    rw [List.foldl_append]
    simp only [List.foldl_cons, List.foldl_nil, Tokens.apply]
    rw [hnamed]
    exact ⟨howner, rfl⟩
  have hsplit : d' = after.foldl (Tokens.apply .HoneypotToken) d := by
    show history _ _ _ (before ++ ([(deployer, .setPair pair)] ++ after)) = _
    rw [← List.append_assoc]
    exact List.foldl_append
  rw [hsplit]
  exact hd.foldl hpair hsettled

end Tokens

namespace BscSentry

open Tokens

variable {K : Type} [Field K] [LinearOrder K]
variable {f : Fork} {r : Trade} {token : String} {traderIndex : Nat}
  {amountWbnb : String} {p : Parties} {amountIn : Int}

-- ====================================================== a sell that fails

/-- Where the swap back never goes through, the token is not sellable. -/
theorem sellBack_blocked {res res' : ForkSimResult K} {amount : Int}
    (hsell : ∀ gas, r.sell amount [p.token, p.wbnb] p.trader ≠ .ok gas)
    (h : sellBack r p res amount = .ok res') :
    res'.sellable = some false ∧ res'.buyable = res.buyable
      ∧ res'.pairFound = res.pairFound := by
  unfold sellBack at h
  split at h
  · cases h
    exact ⟨rfl, rfl, rfl⟩
  · dsimp only at h
    obtain ⟨before, -, h⟩ := bind_eq_ok.1 h
    cases hswap : r.sell amount [p.token, p.wbnb] p.trader with
    | error e =>
        rw [hswap] at h
        cases h
        refine ⟨rfl, ?_, ?_⟩
        · dsimp only
          split <;> rfl
        · dsimp only
          split <;> rfl
    | ok gas => exact absurd hswap (hsell gas)

/-- Where no sell goes through, a trade that has bought is reported as not
sellable. -/
theorem buyAndSell_blocked {res res' : ForkSimResult K}
    (hsell : ∀ amount gas,
      r.sell amount [p.token, p.wbnb] p.trader ≠ .ok gas)
    (h : buyAndSell r p res amountIn = .ok res')
    (hbought : res'.buyable = some true) : res'.sellable = some false := by
  unfold buyAndSell at h
  dsimp only at h
  obtain ⟨before, -, h⟩ := bind_eq_ok.1 h
  split at h
  · cases h
    cases hbought
  · obtain ⟨after, -, h⟩ := bind_eq_ok.1 h
    split at h
    case isTrue => exact (sellBack_blocked (hsell _) h).1
    case isFalse hnone =>
        cases h
        have hflag : some (decide (0 < (after : Int) - before)) = some true :=
          hbought
        exact absurd (of_decide_eq_true (Option.some.inj hflag)) hnone

/-- A trade that brought tokens has found a pair. -/
theorem simulateTrade_bought {res : ForkSimResult K}
    (h : simulateTrade f r token traderIndex amountWbnb = .ok res)
    (hbought : res.buyable = some true) :
    res.pairFound = true
      ∧ ∃ p res₀ amountIn, partiesOf f r token traderIndex = .ok p
        ∧ buyAndSell r p res₀ amountIn = .ok res := by
  unfold simulateTrade at h
  obtain ⟨p, hp, h⟩ := bind_eq_ok.1 h
  obtain ⟨head, -, h⟩ := bind_eq_ok.1 h
  dsimp only at h
  obtain ⟨pair, -, h⟩ := bind_eq_ok.1 h
  obtain ⟨n, -, h⟩ := bind_eq_ok.1 h
  split at h
  · cases h
    cases hbought
  · obtain ⟨amountIn, -, h⟩ := bind_eq_ok.1 h
    obtain ⟨-, -, h⟩ := bind_eq_ok.1 h
    obtain ⟨hfound, -⟩ := buyAndSell_cases h
    exact ⟨hfound, p, _, amountIn, hp, h⟩

section Report

variable [FloorRing K] [IsStrictOrderedRing K]

/-- The honeypot check of such a trade fails the report. -/
theorem report_of_unsellable {sim : ForkSimResult K} {target : String}
    {source : Option (ContractSource K)} (hfound : sim.pairFound = true)
    (hbought : sim.buyable = some true)
    (hsellable : sim.sellable = some false) :
    ∃ report, scoreReport target (runChecks f target sim source) = .ok report
      ∧ report.verdict = .CRITICAL ∧ report.score ≤ 10
      ∧ "honeypot" ∈ report.hardFails := by
  obtain ⟨report, hreport, -⟩ := report_of_runChecks f target sim source
  have hcheck : honeypotCheck sim ∈ runChecks f target sim source := by
    refine List.mem_append_left _ ?_
    rw [checksFromSim, hfound]
    exact List.mem_cons_self
  have hfails : (honeypotCheck sim).name = "honeypot"
      ∧ (honeypotCheck sim).hardFail = true := by
    rw [honeypotCheck, if_pos ⟨hbought, hsellable⟩]
    exact ⟨rfl, rfl⟩
  obtain ⟨hverdict, hscore⟩ :=
    report_critical hreport (Or.inl ⟨_, hcheck, hfails.2⟩)
  obtain ⟨byEoa, -, hlist, -⟩ := scoreReport_eq_ok hreport
  refine ⟨report, hreport, hverdict, hscore, ?_⟩
  rw [hlist, hardFails]
  refine List.mem_append_left _ (List.mem_map.2 ⟨_, ?_, hfails.1⟩)
  exact List.mem_filter.2 ⟨hcheck, hfails.2⟩

-- ============================================================= the verdict

variable {A : Type} [DecidableEq A] [Zero A]

/-- A swap back that goes through has had the router move the amount from
the trader into the pair. -/
def RouterMoves (address : String → A) (r : Trade) (p : Parties)
    (t : Token A) (pair : A) : Prop :=
  ∀ amount gas, r.sell amount [p.token, p.wbnb] p.trader = .ok gas →
    ∃ (value : Uint256) (out : Executed A), (value.val : Int) = amount
      ∧ exec HoneypotToken.internalTransfer t (address p.router)
        (.transferFrom (address p.trader) pair value) = .ok out

/-- Whatever was called on the honeypot before its deployer named the pair,
and whatever but another pair since: when the sentry buys some of it for an
account that is not the deployer, it finds that it cannot sell, and with
any source and any other answers of the fork the report is CRITICAL, at
most 10, with the honeypot among the hard fails. -/
theorem trapped_is_critical (address : String → A) {deployer pair : A}
    {supply : Uint256} {before after : List (Tx A)} {sim : ForkSimResult K}
    (hpair : pair ≠ 0) (hsettled : Settled deployer after)
    (hrouter : ∀ p, partiesOf f r token traderIndex = .ok p →
      RouterMoves address r p
        (history .HoneypotToken deployer supply
          (before ++ (deployer, .setPair pair) :: after)).token pair)
    (htrader : ∀ p, partiesOf f r token traderIndex = .ok p →
      address p.trader ≠ deployer)
    (hsim : simulateTrade f r token traderIndex amountWbnb = .ok sim)
    (hbought : sim.buyable = some true) :
    sim.sellable = some false
      ∧ ∀ f target source, ∃ report,
        scoreReport target (runChecks f target sim source) = .ok report
          ∧ report.verdict = .CRITICAL ∧ report.score ≤ 10
          ∧ "honeypot" ∈ report.hardFails := by
  obtain ⟨hfound, p, res₀, amountIn, hp, hrun⟩ :=
    simulateTrade_bought hsim hbought
  obtain ⟨hlocked, -⟩ :=
    locked_run supply before after hpair hsettled
  have hsell : ∀ amount gas,
      r.sell amount [p.token, p.wbnb] p.trader ≠ .ok gas := by
    intro amount gas hswap
    obtain ⟨value, out, -, hmoved⟩ := hrouter p hp amount gas hswap
    exact hlocked.transferFrom_fails hpair (htrader p hp) hmoved
  have hsellable := buyAndSell_blocked hsell hrun hbought
  exact ⟨hsellable, fun f target source =>
    report_of_unsellable hfound hbought hsellable⟩

end Report

-- ================================================================ a witness

/-- A fair trade, but for the sell. -/
def trappedTrade : Trade :=
  { fairTrade with sell := fun _ _ _ => .error "HONEYPOT: sells disabled" }

/-- The trader and the router of that trade; anyone else is the
deployer. -/
def trappedAddress (s : String) : Fin 5 :=
  if s = "0xa1" then 3 else if s = routerAddress then 4 else 1

/-- A buy out of the pair, and the trader's approval. -/
def trappedTxs : List (Tx (Fin 5)) :=
  [(2, .transfer 3 (.ofNat 1000)), (3, .approve 4 .max)]

theorem trapped_fair :
    ∃ sim, simulateTrade (K := ℚ) paired trappedTrade "0x70" 1 "1" = .ok sim
      ∧ sim.sellable = some false
      ∧ ∃ report, scoreReport "0x70" (runChecks paired "0x70" sim none)
          = .ok report
        ∧ report.verdict = .CRITICAL ∧ "honeypot" ∈ report.hardFails := by
  obtain ⟨sim, hsim, hbought⟩ := exists_of_okAnd
    (x := simulateTrade (K := ℚ) paired trappedTrade "0x70" 1 "1")
    (p := fun sim => sim.buyable == some true) (by decide +kernel)
  have hparties : ∀ p, partiesOf paired trappedTrade "0x70" 1 = .ok p →
      p.trader = "0xa1" := by
    intro p hp
    cases hp
    rfl
  -- the seed of the pair before it is named, a buy and an approval after
  have hrouter : ∀ p, partiesOf paired trappedTrade "0x70" 1 = .ok p →
      RouterMoves trappedAddress trappedTrade p
        (history .HoneypotToken 1 (.ofNat 10000)
          ([(1, .transfer 2 (.ofNat 5000))]
            ++ (1, .setPair 2) :: trappedTxs)).token 2 := by
    intro p _ amount gas hswap
    cases hswap
  have htrader : ∀ p, partiesOf paired trappedTrade "0x70" 1 = .ok p →
      trappedAddress p.trader ≠ 1 := by
    intro p hp
    rw [hparties p hp]
    decide +kernel
  obtain ⟨hsellable, hreport⟩ := trapped_is_critical trappedAddress
    (by decide) (by simp [Settled, trappedTxs]) hrouter htrader hsim
    (beq_iff_eq.1 hbought)
  obtain ⟨report, hr, hverdict, -, hfails⟩ := hreport paired "0x70" none
  exact ⟨sim, hsim, hsellable, report, hr, hverdict, hfails⟩

end BscSentry

end Proofstand
