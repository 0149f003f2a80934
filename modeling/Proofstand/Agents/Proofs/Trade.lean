/-
What the tax axis of a simulated trade rests on.

Once a pair is found the axis is scored, whatever became of the trade
(`transferTaxCheck_ran`): a tax that was never measured counts as none.
And what was bought is what was quoted until a buy has gone through
(`bought_iff`). So the report says only what was measured
exactly when there was no pair to trade on, or the trade went there and
back with a quote for each way (`trade_measured_iff`).

# What the code knows and what happened

`Trade` is what the chain answers to each call, and `Deal`, `BuyDone`,
`SellDone` and `Bought` say what happened by the balances. The report has
fields for both, and the question is when they agree. `simulateTrade` is
taken apart by where it stopped: no pair, a buy that failed, an approval
or a sell that failed, or all the way (`simulateTrade_cases`).

The field for what was bought is filled from the quote before the buy and
overwritten after it, so a failing buy leaves the quote. The taxes are
compared to quotes as well, and a missing tax is read as none by the check
behind it, which scores the axis because a pair was found.
-/
import Proofstand.Agents.BscSentry.Gather
import Proofstand.Agents.Proofs.Checks

namespace Proofstand.BscSentry

open Fallible

variable {K : Type} [Field K] [LinearOrder K]
variable {f : Fork} {r : Trade} {token : String} {traderIndex : Nat}
  {amountWbnb : String} {p : Parties} {amountIn : Int}

-- ================================================ statement vocabulary

/-- Who trades, and for how much. -/
structure Deal (f : Fork) (r : Trade) (token : String) (traderIndex : Nat)
    (amountWbnb : String) (p : Parties) (amountIn : Int) : Prop where
  parties : partiesOf f r token traderIndex = .ok p
  amount : r.toWei amountWbnb = .ok amountIn

/-- The factory has no pair of the token with WBNB. -/
def NoPair (f : Fork) (r : Trade) (token : String) (traderIndex : Nat) :
    Prop :=
  ∃ p pair, partiesOf f r token traderIndex = .ok p
    ∧ f.getPair p.token p.wbnb = .ok pair ∧ intBase16 pair = .ok 0

/-- The buy went through, from a balance to a balance. -/
def BuyDone (r : Trade) (p : Parties) (amountIn : Int)
    (before after : Nat) : Prop :=
  (∃ gas, r.buy amountIn [p.wbnb, p.token] p.trader = .ok gas)
    ∧ r.tokenBefore p.trader = .ok before
    ∧ r.tokenAfter p.trader = .ok after

/-- And so did the sell of an amount. -/
def SellDone (r : Trade) (p : Parties) (amount : Int)
    (before after : Nat) : Prop :=
  r.approveToken p.router maxU = .ok ()
    ∧ (∃ gas, r.sell amount [p.token, p.wbnb] p.trader = .ok gas)
    ∧ r.wbnbBefore p.trader = .ok before
    ∧ r.wbnbAfter p.trader = .ok after

/-- How many tokens were bought: none without a pair or by a buy that
reverted, else the increase of the balance. -/
inductive Bought (f : Fork) (r : Trade) (token : String) (traderIndex : Nat)
    (amountWbnb : String) : Int → Prop
  | noPair : NoPair f r token traderIndex →
      Bought f r token traderIndex amountWbnb 0
  | reverted {p : Parties} {amountIn : Int} {e : String} :
      ¬ NoPair f r token traderIndex →
      Deal f r token traderIndex amountWbnb p amountIn →
      r.buy amountIn [p.wbnb, p.token] p.trader = .error e →
      Bought f r token traderIndex amountWbnb 0
  | completed {p : Parties} {amountIn : Int} {before after : Nat} :
      ¬ NoPair f r token traderIndex →
      Deal f r token traderIndex amountWbnb p amountIn →
      BuyDone r p amountIn before after →
      Bought f r token traderIndex amountWbnb ((after : Int) - before)

/-- Both taxes were measured: tokens came in against a quote, and WBNB
came back against one. -/
def Measured (f : Fork) (r : Trade) (token : String) (traderIndex : Nat)
    (amountWbnb : String) : Prop :=
  ¬ NoPair f r token traderIndex
    ∧ ∃ p amountIn before after wbnbBefore wbnbAfter expectedBuy expectedSell,
      Deal f r token traderIndex amountWbnb p amountIn
        ∧ lastAmount (r.quoteBuy amountIn [p.wbnb, p.token])
          = .ok expectedBuy
        ∧ expectedBuy ≠ 0
        ∧ BuyDone r p amountIn before after
        ∧ before < after
        ∧ lastAmount (r.quoteSell ((after : Int) - before) [p.token, p.wbnb])
          = .ok expectedSell
        ∧ expectedSell ≠ 0
        ∧ SellDone r p ((after : Int) - before) wbnbBefore wbnbAfter
        ∧ wbnbBefore ≤ wbnbAfter

/-- The tax axis is `unknown`, and carries no weight in a report. -/
def Unscored [FloorRing K] (sim : ForkSimResult K) : Prop :=
  (∀ c ∈ checksFromSim sim, c.name = "transfer_tax" → c.status = .unknown)
    ∧ ∀ f target source report,
      scoreReport target (runChecks f target sim source) = .ok report →
        "transfer_tax" ∉ report.scoredAxes

-- ============================================== what a trade leaves alone

/-- The sell touches neither the pair nor what was bought. -/
theorem sellBack_keeps {res res' : ForkSimResult K} {amount : Int}
    (h : sellBack r p res amount = .ok res') :
    res'.pairFound = res.pairFound ∧ res'.boughtRaw = res.boughtRaw := by
  unfold sellBack at h
  split at h
  · cases h
    exact ⟨rfl, rfl⟩
  · dsimp only at h
    obtain ⟨before, -, h⟩ := bind_eq_ok.1 h
    split at h
    · cases h
      constructor
      · split <;> rfl
      · split <;> rfl
    · obtain ⟨after, -, h⟩ := bind_eq_ok.1 h
      cases h
      constructor
      · unfold sold
        split <;> rfl
      · unfold sold
        split <;> rfl

/-- What is bought is the quote, until a buy has gone through. -/
theorem buyAndSell_cases {res res' : ForkSimResult K}
    (h : buyAndSell r p res amountIn = .ok res') :
    res'.pairFound = res.pairFound
      ∧ ((∃ e, r.buy amountIn [p.wbnb, p.token] p.trader = .error e
          ∧ res'.boughtRaw = (quoted res
            (lastAmount (r.quoteBuy amountIn [p.wbnb, p.token]))).boughtRaw)
        ∨ ∃ before after, BuyDone r p amountIn before after
          ∧ res'.boughtRaw = (after : Int) - before) := by
  have hquoted : ∀ quote, (quoted res quote).pairFound = res.pairFound := by
    intro quote
    unfold quoted
    split <;> rfl
  unfold buyAndSell at h
  dsimp only at h
  obtain ⟨before, hbefore, h⟩ := bind_eq_ok.1 h
  split at h
  case h_1 e hbuy =>
      cases h
      exact ⟨hquoted _, Or.inl ⟨e, hbuy, rfl⟩⟩
  case h_2 gas hbuy =>
      obtain ⟨after, hafter, h⟩ := bind_eq_ok.1 h
      have hdone : BuyDone r p amountIn before after :=
        ⟨⟨gas, hbuy⟩, Live.read_eq_ok.1 hbefore,
          Live.read_eq_ok.1 hafter⟩
      split at h
      case isTrue =>
          obtain ⟨hpair, hbought⟩ := sellBack_keeps h
          exact ⟨hpair.trans (hquoted _),
            Or.inr ⟨before, after, hdone, hbought⟩⟩
      case isFalse =>
          cases h
          exact ⟨hquoted _, Or.inr ⟨before, after, hdone, rfl⟩⟩

/-- A trade that returns found no pair, or it found one and bought on
it. -/
theorem simulateTrade_cases {res : ForkSimResult K}
    (h : simulateTrade f r token traderIndex amountWbnb = .ok res) :
    (NoPair f r token traderIndex ∧ res.pairFound = false
        ∧ res.boughtRaw = 0)
      ∨ (¬ NoPair f r token traderIndex ∧ res.pairFound = true
        ∧ ∃ p amountIn, Deal f r token traderIndex amountWbnb p amountIn
          ∧ ((∃ e, r.buy amountIn [p.wbnb, p.token] p.trader = .error e
              ∧ res.boughtRaw = (lastAmount
                (r.quoteBuy amountIn [p.wbnb, p.token])).toOption.getD 0)
            ∨ ∃ before after, BuyDone r p amountIn before after
              ∧ res.boughtRaw = (after : Int) - before)) := by
  unfold simulateTrade at h
  obtain ⟨p, hp, h⟩ := bind_eq_ok.1 h
  obtain ⟨head, -, h⟩ := bind_eq_ok.1 h
  dsimp only at h
  obtain ⟨pair, hpair, h⟩ := bind_eq_ok.1 h
  obtain ⟨n, hn, h⟩ := bind_eq_ok.1 h
  split at h
  case isTrue hzero =>
      cases h
      rw [hzero] at hn
      exact Or.inl ⟨⟨p, pair, hp, Live.read_eq_ok.1 hpair, hn⟩, rfl, rfl⟩
  case isFalse hnot =>
      obtain ⟨amountIn, hamount, h⟩ := bind_eq_ok.1 h
      obtain ⟨-, -, h⟩ := bind_eq_ok.1 h
      obtain ⟨hfound, hbought⟩ := buyAndSell_cases h
      have hpaired : ¬ NoPair f r token traderIndex := by
        intro h
        obtain ⟨p', pair', hp', hpair', hn'⟩ := h
        rw [hp] at hp'
        cases hp'
        rw [Live.read_eq_ok.1 hpair] at hpair'
        cases hpair'
        rw [hn] at hn'
        cases hn'
        exact hnot rfl
      refine Or.inr ⟨hpaired, hfound, p, amountIn, ⟨hp, hamount⟩, ?_⟩
      rcases hbought with ⟨e, hbuy, hraw⟩ | hdone
      · refine Or.inl ⟨e, hbuy, hraw.trans ?_⟩
        unfold quoted
        cases lastAmount (r.quoteBuy amountIn [p.wbnb, p.token]) with
        | ok n => rfl
        | error e => rfl
      · exact Or.inr hdone

-- ================================================== the axis in a report

variable [FloorRing K]

/-- On a pair, the tax axis is scored whatever was measured. -/
theorem transferTaxCheck_ran (sim : ForkSimResult K) :
    (transferTaxCheck sim).name = "transfer_tax"
      ∧ (transferTaxCheck sim).status ≠ .unknown := by
  unfold transferTaxCheck
  dsimp only
  split_ifs <;> exact ⟨rfl, nofun⟩

variable [IsStrictOrderedRing K]

/-- Without a pair it is not. -/
theorem unscored_of_noPair {sim : ForkSimResult K}
    (h : sim.pairFound = false) : Unscored sim := by
  have hunknown : ∀ c ∈ checksFromSim sim,
      c.name = "transfer_tax" → c.status = .unknown := by
    intro c hc _
    unfold checksFromSim at hc
    rw [h] at hc
    simp only [Bool.not_false, if_true, List.mem_cons, List.not_mem_nil,
      or_false] at hc
    rcases hc with rfl | rfl
    · rfl
    · rfl
  refine ⟨hunknown, ?_⟩
  intro f target source report hreport hin
  obtain ⟨byEoa, -, hreport⟩ := bind_eq_ok.1 hreport
  cases hreport
  obtain ⟨c, hc, hname⟩ := List.mem_map.1 hin
  obtain ⟨hmem, hran, -⟩ := mem_scored.1 hc
  rcases runChecks_cases hmem with hsim | rfl | hdf | hother
  · rw [hunknown c hsim hname] at hran
    cases hran
  · rw [checkSourceVerified_name] at hname
    exact absurd hname (by decide)
  · rw [checkDangerousFunctions_name hdf] at hname
    exact absurd hname (by decide)
  · rw [hname] at hother
    exact absurd hother (by decide)

/-- A trade is not scored where no pair was found. -/
theorem unscored_iff {sim : ForkSimResult K} :
    Unscored sim ↔ sim.pairFound = false := by
  refine ⟨?_, unscored_of_noPair⟩
  intro h
  obtain ⟨hunknown, -⟩ := h
  by_contra hfound
  obtain ⟨hname, hran⟩ := transferTaxCheck_ran sim
  refine hran (hunknown _ ?_ hname)
  unfold checksFromSim
  rw [Bool.not_eq_false] at hfound
  rw [hfound]
  exact List.mem_cons_of_mem _ List.mem_cons_self

-- ======================================================= when it holds

/-- The result reports the tokens that were bought, and scores the tax
axis only on two measured taxes. -/
def Honest (f : Fork) (r : Trade) (token : String) (traderIndex : Nat)
    (amountWbnb : String) (res : ForkSimResult K) : Prop :=
  Bought f r token traderIndex amountWbnb res.boughtRaw
    ∧ (¬ Measured f r token traderIndex amountWbnb → Unscored res)

/-- The deal is what the fork and the trade say it is. -/
theorem Deal.unique {p' : Parties} {amountIn' : Int}
    (h : Deal f r token traderIndex amountWbnb p amountIn)
    (h' : Deal f r token traderIndex amountWbnb p' amountIn') :
    p = p' ∧ amountIn = amountIn' := by
  have hp := h.parties.symm.trans h'.parties
  have hamount := h.amount.symm.trans h'.amount
  cases hp
  cases hamount
  exact ⟨rfl, rfl⟩

/-- A buy that went through has not failed. -/
theorem BuyDone.not_failed {before after : Nat} {e : String}
    (h : BuyDone r p amountIn before after) :
    r.buy amountIn [p.wbnb, p.token] p.trader ≠ .error e := by
  obtain ⟨⟨gas, hgas⟩, -⟩ := h
  rw [hgas]
  exact nofun

omit [FloorRing K] [IsStrictOrderedRing K] in
/-- What was bought is right, unless a buy reverted that had a quote. -/
theorem bought_iff {res : ForkSimResult K}
    (h : simulateTrade f r token traderIndex amountWbnb = .ok res) :
    Bought f r token traderIndex amountWbnb res.boughtRaw
      ↔ ∀ p amountIn e, ¬ NoPair f r token traderIndex →
        Deal f r token traderIndex amountWbnb p amountIn →
        r.buy amountIn [p.wbnb, p.token] p.trader = .error e →
          (lastAmount
            (r.quoteBuy amountIn [p.wbnb, p.token])).toOption.getD 0 = 0 := by
  rcases simulateTrade_cases h with
    ⟨hnone, -, hraw⟩ | ⟨hpair, -, p, amountIn, hdeal, hbuy⟩
  · refine ⟨fun _ p amountIn e hpair => absurd hnone hpair, fun _ => ?_⟩
    rw [hraw]
    exact .noPair hnone
  · rcases hbuy with ⟨e, hfailed, hraw⟩ | ⟨before, after, hdone, hraw⟩
    · constructor
      · intro hbought p' amountIn' e' _ hdeal' _
        obtain ⟨rfl, rfl⟩ := hdeal.unique hdeal'
        generalize res.boughtRaw = n at hbought hraw
        cases hbought with
        | noPair hnone => exact absurd hnone hpair
        | reverted _ _ _ => exact_mod_cast hraw.symm
        | completed _ hdeal'' hdone =>
            obtain ⟨rfl, rfl⟩ := hdeal.unique hdeal''
            exact absurd hfailed hdone.not_failed
      · intro hquote
        rw [hraw, hquote p amountIn e hpair hdeal hfailed]
        exact .reverted hpair hdeal hfailed
    · refine ⟨fun _ p' amountIn' e' _ hdeal' hfailed => ?_, fun _ => ?_⟩
      · obtain ⟨rfl, rfl⟩ := hdeal.unique hdeal'
        exact absurd hfailed hdone.not_failed
      · rw [hraw]
        exact .completed hpair hdeal hdone

/-- What is reported is so exactly where there is no pair, or both halves of
the trade were measured. -/
theorem trade_measured_iff {res : ForkSimResult K}
    (h : simulateTrade f r token traderIndex amountWbnb = .ok res) :
    Honest f r token traderIndex amountWbnb res
      ↔ NoPair f r token traderIndex
        ∨ Measured f r token traderIndex amountWbnb := by
  rcases simulateTrade_cases h with
    ⟨hnone, hfound, hraw⟩ | ⟨hpair, hfound, p, amountIn, hdeal, hbuy⟩
  · refine ⟨fun _ => Or.inl hnone, fun _ => ⟨?_, fun _ => ?_⟩⟩
    · rw [hraw]
      exact .noPair hnone
    · exact unscored_of_noPair hfound
  · have hscored : ¬ Unscored res := by
      rw [unscored_iff, hfound]
      exact nofun
    constructor
    · intro h
      obtain ⟨-, hunscored⟩ := h
      by_contra hnot
      exact hscored (hunscored fun hmeasured => hnot (Or.inr hmeasured))
    · intro h
      rcases h with hnone | hmeasured
      · exact absurd hnone hpair
      · refine ⟨?_, fun hnot => absurd hmeasured hnot⟩
        obtain ⟨-, p', amountIn', before', after', -, -, -, -, hdeal', -, -,
          hdone', -⟩ := hmeasured
        obtain ⟨rfl, rfl⟩ := hdeal.unique hdeal'
        rcases hbuy with ⟨e, hfailed, -⟩ | ⟨before, after, hdone, hraw⟩
        · exact absurd hfailed hdone'.not_failed
        · rw [hraw]
          exact .completed hpair hdeal hdone

-- ========================================================== two trades

/-- A fork with a pair for every token, and nothing else to say. -/
def paired : Fork where
  toChecksumAddress := .ok
  ownerCall _ _ := .error "execution reverted"
  getCode _ _ := .ok []
  getStorageAt _ _ := .ok []
  blockNumber := .ok 100
  getPair _ _ := .ok "0x9a"
  totalSupply _ := .ok 0
  balanceOf _ _ := .ok 0

/-- Ten of WBNB for a hundred tokens, and ten back. -/
def fairTrade : Trade where
  accounts := .ok ["0xa0", "0xa1"]
  toWei _ := .ok 10
  wbnbFunds _ := .ok 100
  deposit _ _ := .ok 1
  approveWbnb _ _ := .ok 1
  quoteBuy _ _ := .ok [10, 100]
  tokenBefore _ := .ok 0
  tokenAfter _ := .ok 100
  buy _ _ _ := .ok 1
  approveToken _ _ := .ok ()
  quoteSell _ _ := .ok [100, 10]
  wbnbBefore _ := .ok 0
  wbnbAfter _ := .ok 10
  sell _ _ _ := .ok 1

/-- The same, when the token does not let itself be bought. -/
def blockedTrade : Trade :=
  { fairTrade with buy := fun _ _ _ => .error "execution reverted" }

theorem trade_measured_fair :
    ∃ res, simulateTrade (K := ℚ) paired fairTrade "0x70" 1 "1" = .ok res
      ∧ Honest paired fairTrade "0x70" 1 "1" res := by
  obtain ⟨res, h, hfound⟩ := exists_of_okAnd
    (x := simulateTrade (K := ℚ) paired fairTrade "0x70" 1 "1")
    (p := fun res => res.pairFound) (by decide +kernel)
  have hmeasured : Measured paired fairTrade "0x70" 1 "1" := by
    rcases simulateTrade_cases h with ⟨-, hnone, -⟩ | ⟨hpair, -⟩
    · rw [hfound] at hnone
      cases hnone
    · exact ⟨hpair, ⟨"0x70", wbnbAddress, "0xa1", routerAddress⟩, 10, 0, 100,
        0, 10, 100, 10, ⟨rfl, rfl⟩, rfl, by decide, ⟨⟨1, rfl⟩, rfl, rfl⟩,
        by decide, rfl, by decide, ⟨rfl, ⟨1, rfl⟩, rfl, rfl⟩, by decide⟩
  exact ⟨res, h, (trade_measured_iff h).2 (Or.inr hmeasured)⟩

/-- Nothing was bought, the report says a hundred tokens were, and the
tax axis passes with a tax of nothing. -/
theorem blocked_buy_scored :
    ∃ res, simulateTrade (K := ℚ) paired blockedTrade "0x70" 1 "1" = .ok res
      ∧ ¬ Honest paired blockedTrade "0x70" 1 "1" res
      ∧ res.boughtRaw = 100
      ∧ (transferTaxCheck res).status = .pass := by
  obtain ⟨res, h, hsays⟩ := exists_of_okAnd
    (x := simulateTrade (K := ℚ) paired blockedTrade "0x70" 1 "1")
    (p := fun res => decide (res.pairFound = true ∧ res.boughtRaw = 100
      ∧ (transferTaxCheck res).status = .pass)) (by decide +kernel)
  obtain ⟨hfound, hraw, hpass⟩ := of_decide_eq_true hsays
  refine ⟨res, h, ?_, hraw, hpass⟩
  intro h
  obtain ⟨hbought, -⟩ := h
  rcases simulateTrade_cases h with
    ⟨-, hnone, -⟩ | ⟨hpair, -, p, amountIn, hdeal, hbuy⟩
  · rw [hfound] at hnone
    cases hnone
  · have hzero := (bought_iff h).1 hbought p amountIn "execution reverted"
      hpair hdeal rfl
    cases hzero

end Proofstand.BscSentry
