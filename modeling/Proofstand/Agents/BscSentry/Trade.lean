/-
`bsc_sentry/fork.py`: the trade simulated on a fork, bought and sold back.

Every call of it is made once, on a chain the calls before it have
changed, so what the chain says is one answer a call (`Trade`). A quote
that fails leaves a note, a buy, an approval or a sell that fails ends
the trade with what is known so far, and any other failure is raised.

Of a transaction that goes through the code keeps the gas; what it brought
is read off balances, as the difference of two reads around it. `taxPct`
holds that against the quote, and is none where there was no quote. The
field for the tokens bought is filled from the quote first and from the
balances after the buy, so it holds the quote wherever a trade ended in
between.
-/
import Proofstand.Agents.BscSentry.Checks

namespace Proofstand

namespace BscSentry

variable {K : Type} [Field K] [LinearOrder K]

/-- `1 << 256`, less one. -/
def maxU : Nat := 2 ^ 256 - 1

/-- `reference.contract("pancakeV2Router")`. -/
def routerAddress : String := "0x10ED43C718714eb63d5aA57B78B54704E256024E"

/-- What the chain answers to each call of a simulated trade. -/
structure Trade where
  /-- `w3.eth.accounts` -/
  accounts : Live (List String)
  /-- `w3.to_wei(amount, "ether")` -/
  toWei : String → Py Int
  /-- WBNB's `balanceOf(trader)`, at first -/
  wbnbFunds : String → Live Nat
  /-- gas of `deposit()`, from the trader, of a value -/
  deposit : String → Int → Live Int
  /-- gas of WBNB's `approve(router, amount)` -/
  approveWbnb : String → Nat → Live Int
  /-- `getAmountsOut(amount, path)`, before the buy -/
  quoteBuy : Int → List String → Live (List Nat)
  /-- the token's `balanceOf(trader)`, before the buy and after it -/
  tokenBefore : String → Live Nat
  tokenAfter : String → Live Nat
  /-- gas of the swap of an amount along a path, to the trader -/
  buy : Int → List String → String → Live Int
  /-- the token's `approve(router, amount)` -/
  approveToken : String → Nat → Live Unit
  /-- `getAmountsOut(amount, path)`, before the sell -/
  quoteSell : Int → List String → Live (List Nat)
  /-- WBNB's `balanceOf(trader)`, before the sell and after it -/
  wbnbBefore : String → Live Nat
  wbnbAfter : String → Live Nat
  /-- gas of the swap back -/
  sell : Int → List String → String → Live Int

/-- `amounts[-1]`, as it fails inside a `try`. -/
def lastAmount (quote : Live (List Nat)) : Live Nat :=
  match quote with
  | .error e => .error e
  | .ok amounts =>
      match amounts.getLast? with
      | some n => .ok n
      | none => .error "list index out of range"

/-- What is missing of the amount quoted, where there is a quote to hold
it against. -/
def taxPct (expected : Nat) (got : Int) : Option K :=
  if expected ≠ 0 ∧ 0 ≤ got then some (max 0 (1 - (got : K) / expected))
  else none

/-- The two tokens of a trade, its trader and the router. -/
structure Parties where
  token : String
  wbnb : String
  trader : String
  router : String

/-- `res.bought_raw`, from the quote. -/
def quoted (res : ForkSimResult K) (quote : Live Nat) : ForkSimResult K :=
  match quote with
  | .ok n => { res with boughtRaw := n }
  | .error e =>
      { res with notes := res.notes ++ ["getAmountsOut(buy) failed: " ++ e] }

/-- The result, once `bought` tokens have come in. -/
def bought (res : ForkSimResult K) (gas : Int) (expectedBuy : Nat)
    (bought : Int) : ForkSimResult K :=
  { res with
    gasBuy := some gas
    boughtRaw := bought
    buyable := some (decide (0 < bought))
    buyTaxPct := taxPct expectedBuy bought
    notes :=
      if 0 < bought then res.notes
      else res.notes ++ ["buy returned 0 tokens"] }

/-- And once `got` WBNB has come back. -/
def sold (res : ForkSimResult K) (gas : Int) (expectedSell : Nat)
    (got : Int) : ForkSimResult K :=
  { res with
    gasSell := some gas
    soldForWbnbRaw := got
    sellable := some (decide (0 < got))
    sellTaxPct := taxPct expectedSell got
    notes :=
      if 0 < got then res.notes
      else res.notes ++ ["sell tx succeeded but returned 0 WBNB"] }

/-- The sell of `amount` tokens. -/
def sellBack (r : Trade) (p : Parties) (res : ForkSimResult K)
    (amount : Int) : Py (ForkSimResult K) :=
  match r.approveToken p.router maxU with
  | .error e =>
      .ok { res with
            sellable := some false
            sellRevert := some ("approve() reverted: " ++ cutText 200 e) }
  | .ok () => do
      let quote := lastAmount (r.quoteSell amount [p.token, p.wbnb])
      let res :=
        match quote with
        | .ok _ => res
        | .error e =>
            { res with
              notes := res.notes ++ ["getAmountsOut(sell) failed: " ++ e] }
      let before ← (r.wbnbBefore p.trader).read
      match r.sell amount [p.token, p.wbnb] p.trader with
      | .error e =>
          pure { res with
                 sellable := some false, sellRevert := some (cutText 300 e) }
      | .ok gas => do
          let after ← (r.wbnbAfter p.trader).read
          pure (sold res gas (quote.toOption.getD 0)
            ((after : Int) - before))

/-- The buy for `amountIn` WBNB, and the sell of what it brought. -/
def buyAndSell (r : Trade) (p : Parties) (res : ForkSimResult K)
    (amountIn : Int) : Py (ForkSimResult K) := do
  let quote := lastAmount (r.quoteBuy amountIn [p.wbnb, p.token])
  let res := quoted res quote
  let before ← (r.tokenBefore p.trader).read
  match r.buy amountIn [p.wbnb, p.token] p.trader with
  | .error e =>
      pure { res with
             buyable := some false, buyRevert := some (cutText 300 e) }
  | .ok gas => do
      let after ← (r.tokenAfter p.trader).read
      let amount : Int := (after : Int) - before
      let res := bought res gas (quote.toOption.getD 0) amount
      if 0 < amount then sellBack r p res amount else pure res

/-- WBNB for the trader, and the router's allowance over it. -/
def fund (r : Trade) (p : Parties) (amountIn : Int) : Py Unit := do
  let funds ← (r.wbnbFunds p.trader).read
  if (funds : Int) < amountIn then do
    let _gas ← (r.deposit p.trader (amountIn * 4)).read
  let _gas ← (r.approveWbnb p.router maxU).read

/-- `accounts[trader_index]`. -/
def traderOf (r : Trade) (traderIndex : Nat) : Py String := do
  let accounts ← r.accounts.read
  match accounts[traderIndex]? with
  | some trader => pure trader
  | none => raise .IndexError "list index out of range"

/-- The addresses of a trade: the token, the wrapped coin, the trader and the
router. -/
def partiesOf (f : Fork) (r : Trade) (token : String) (traderIndex : Nat) :
    Py Parties := do
  let token ← f.toChecksumAddress token
  let trader ← traderOf r traderIndex
  let wbnb ← f.toChecksumAddress wbnbAddress
  let router ← f.toChecksumAddress routerAddress
  pure ⟨token, wbnb, trader, router⟩

/-- `simulate_trade`: a buy, an approval and a sell on the fork, with what
each of them moved; a step that fails ends it. -/
def simulateTrade (f : Fork) (r : Trade) (token : String)
    (traderIndex : Nat) (amountWbnb : String) : Py (ForkSimResult K) := do
  let p ← partiesOf f r token traderIndex
  let head ← f.blockNumber.read
  let res : ForkSimResult K :=
    { target := p.token, pairFound := false, forkBlock := some head }
  let pair ← (f.getPair p.token p.wbnb).read
  let n ← intBase16 pair
  if n = 0 then
    pure { res with
           notes := ["no PancakeSwap v2 pair with WBNB — cannot simulate a "
             ++ "trade"] }
  else do
    let amountIn ← r.toWei amountWbnb
    fund r p amountIn
    buyAndSell r p { res with pairFound := true } amountIn

end BscSentry

end Proofstand
