/-
`contracts/test/HoneypotToken.sol` and `HighTaxToken.sol`: the two tokens
the sentry is tested with.

Addresses are of any type with a zero. Arithmetic is Solidity's checked
one, on values below `2 ^ 256`; a call that reverts leaves the storage as
it was. `name`, `symbol` and `decimals` are left out, no code reads them.

# What differs

The two contracts share their storage and their calls and differ in
`_transfer`: one refuses a sell, the other taxes it and burns the tax. A
sell is a transfer into the named pair from anyone but the owner. Both
check the balance first, and an allowance of `2 ^ 256 - 1` is never
reduced.
-/
import Mathlib.Data.Fintype.BigOperators
import Mathlib.Tactic

namespace Proofstand.Tokens

-- =================================================================== uint256

/-- A `uint256`, with its bound. -/
structure Uint256 where
  val : Nat
  isLt : val < 2 ^ 256
  deriving DecidableEq

/-- Why a call reverts. -/
inductive Revert
  | require (msg : String)
  | panic
  deriving DecidableEq, Repr

namespace Uint256

/-- A literal. -/
def ofNat (n : Nat) : Uint256 :=
  ⟨n % 2 ^ 256, Nat.mod_lt _ (Nat.two_pow_pos 256)⟩

/-- The zero amount, and every slot that was never written. -/
def zero : Uint256 := ⟨0, Nat.two_pow_pos 256⟩

/-- `type(uint256).max`. -/
def max : Uint256 := ⟨2 ^ 256 - 1, Nat.sub_one_lt (Nat.two_pow_pos 256).ne'⟩

/-- Checked addition: from 2^256 on it reverts with a panic. -/
def add (a b : Uint256) : Except Revert Uint256 :=
  if h : a.val + b.val < 2 ^ 256 then .ok ⟨a.val + b.val, h⟩
  else .error .panic

/-- Checked subtraction: below zero it reverts with a panic. -/
def sub (a b : Uint256) : Except Revert Uint256 :=
  if b.val ≤ a.val then
    .ok ⟨a.val - b.val, lt_of_le_of_lt (Nat.sub_le _ _) a.isLt⟩
  else .error .panic

/-- A product with a literal. -/
def mul (a : Uint256) (n : Nat) : Except Revert Uint256 :=
  if h : a.val * n < 2 ^ 256 then .ok ⟨a.val * n, h⟩ else .error .panic

/-- A quotient by a literal. -/
def div (a : Uint256) (n : Nat) : Uint256 :=
  ⟨a.val / n, lt_of_le_of_lt (Nat.div_le_self _ _) a.isLt⟩

end Uint256

-- =================================================================== storage

variable {A : Type} [DecidableEq A] [Zero A]

/-- The storage of either token. -/
structure Token (A : Type) where
  totalSupply : Uint256
  owner : A
  pair : A
  balanceOf : A → Uint256
  allowance : A → A → Uint256

/-- The two events of a token. -/
inductive Event (A : Type)
  | transfer (source target : A) (value : Uint256)
  | approval (owner spender : A) (value : Uint256)

/-- What a call that goes through leaves, and what it logs. -/
abbrev Executed (A : Type) := Token A × List (Event A)

/-- `require(cond, msg)`. -/
def require (cond : Bool) (msg : String) : Except Revert Unit :=
  if cond then .ok () else .error (.require msg)

/-- `constructor`. -/
def deployed (sender : A) (supply : Uint256) : Executed A :=
  ({ totalSupply := supply
     owner := sender
     pair := 0
     balanceOf := Function.update (fun _ => .zero) sender supply
     allowance := fun _ _ => .zero },
    [.transfer 0 sender supply])

/-- A transfer into the pair from anyone but the owner. -/
def Token.isSell (t : Token A) (source target : A) : Bool :=
  t.pair ≠ 0 ∧ target = t.pair ∧ source ≠ t.owner

/-- `balanceOf[from] -= out; balanceOf[to] += back`. -/
def Token.move (t : Token A) (source target : A) (out back : Uint256) :
    Except Revert (Token A) := do
  let left ← (t.balanceOf source).sub out
  let debited := Function.update t.balanceOf source left
  let more ← (debited target).add back
  pure { t with balanceOf := Function.update debited target more }

namespace HoneypotToken

/-- `_transfer`. -/
def internalTransfer (t : Token A) (source target : A) (value : Uint256) :
    Except Revert (Executed A) := do
  require (value.val ≤ (t.balanceOf source).val) "balance"
  require (!t.isSell source target) "HONEYPOT: sells disabled"
  let t ← t.move source target value value
  pure (t, [.transfer source target value])

end HoneypotToken

namespace HighTaxToken

/-- `sellTaxBps`: 40 %. -/
def sellTaxBps : Nat := 4000

/-- The tax of a transfer. -/
def taxOf (t : Token A) (source target : A) (value : Uint256) :
    Except Revert Uint256 :=
  if t.isSell source target then
    (value.mul sellTaxBps).map fun scaled => scaled.div 10000
  else .ok .zero

/-- `_transfer`. -/
def internalTransfer (t : Token A) (source target : A) (value : Uint256) :
    Except Revert (Executed A) := do
  require (value.val ≤ (t.balanceOf source).val) "balance"
  let tax ← taxOf t source target value
  let back ← value.sub tax
  let t ← t.move source target value back
  if 0 < tax.val then do
    let supply ← t.totalSupply.sub tax
    pure ({ t with totalSupply := supply },
      [.transfer source 0 tax, .transfer source target back])
  else pure (t, [.transfer source target back])

end HighTaxToken

-- ===================================================================== calls

/-- A call from outside. -/
inductive Call (A : Type)
  | setPair (p : A)
  | approve (spender : A) (value : Uint256)
  | transfer (target : A) (value : Uint256)
  | transferFrom (source target : A) (value : Uint256)

/-- `_transfer` of either. -/
abbrev Inner (A : Type) :=
  Token A → A → A → Uint256 → Except Revert (Executed A)

/-- `setPair`, the deployer's to call. -/
def setPair (t : Token A) (sender p : A) : Except Revert (Executed A) := do
  require (sender = t.owner) "only owner"
  pure ({ t with pair := p }, [])

/-- `allowance[holder][spender] = value`. -/
def Token.allow (t : Token A) (holder spender : A) (value : Uint256) :
    Token A :=
  { t with
    allowance :=
      Function.update t.allowance holder
        (Function.update (t.allowance holder) spender value) }

/-- `approve`: the allowance is the value, whatever it was before. -/
def approve (t : Token A) (sender spender : A) (value : Uint256) :
    Executed A :=
  (t.allow sender spender value, [.approval sender spender value])

/-- `transferFrom`: spends the allowance, unless it is the largest amount,
and transfers. -/
def transferFrom (inner : Inner A) (t : Token A)
    (sender source target : A) (value : Uint256) :
    Except Revert (Executed A) := do
  let a := t.allowance source sender
  require (value.val ≤ a.val) "allowance"
  if a ≠ .max then do
    let left ← a.sub value
    inner (t.allow source sender left) source target value
  else inner t source target value

/-- A call's effect, or its revert. -/
def exec (inner : Inner A) (t : Token A) (sender : A) :
    Call A → Except Revert (Executed A)
  | .setPair p => setPair t sender p
  | .approve spender value => .ok (approve t sender spender value)
  | .transfer target value => inner t sender target value
  | .transferFrom source target value =>
      transferFrom inner t sender source target value

/-- The two contracts. -/
inductive Contract
  | HoneypotToken
  | HighTaxToken
  deriving DecidableEq, Repr

/-- `_transfer`, in which the two contracts differ. -/
def Contract.internalTransfer : Contract → Inner A
  | .HoneypotToken => HoneypotToken.internalTransfer
  | .HighTaxToken => HighTaxToken.internalTransfer

/-- A token and all it has logged. -/
structure Deployed (A : Type) where
  token : Token A
  logs : List (Event A)

/-- A transaction, by its sender. -/
abbrev Tx (A : Type) := A × Call A

/-- A transaction on the chain: a call that reverts changes nothing and emits
nothing. -/
def apply (c : Contract) (d : Deployed A) (tx : Tx A) : Deployed A :=
  match exec c.internalTransfer d.token tx.1 tx.2 with
  | .ok (t, events) => ⟨t, d.logs ++ events⟩
  | .error _ => d

/-- A token after some transactions, from its constructor. -/
def history (c : Contract) (deployer : A) (supply : Uint256)
    (txs : List (Tx A)) : Deployed A :=
  txs.foldl (apply c)
    ⟨(deployed deployer supply).1, (deployed deployer supply).2⟩

end Proofstand.Tokens
