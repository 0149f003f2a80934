/-
Balances and the log of what was transferred.

`Books` says that a balance is what the log says it is: what came in less
what went out, and the total for the account the total is issued from.
The balances then sum to the total (`Books.sum_eq`), and the books are kept
by a transfer (`Books.transfer`) and by a return to the issuer that
reduces the total (`Books.burn`).

# Natural numbers

The equation of `Books` adds on both sides and subtracts on neither, so it
says the same of natural numbers as of integers, and an amount that is not
there can not be sent. A transfer from an account to itself is no
exception: the account is on both sides.

# The issuer

The total is one more entry on the side of what came in, for one account.
A mint is then no case of its own: it is the state before the first
transfer, with an empty log. A return to the issuer reduces the total by
as much as the log says came in, which keeps the issuer's own equation.

That no balance can overflow where the total can not is `Books.add_le`:
two accounts hold at most the total between them.
-/
import Mathlib.Tactic
import Mathlib.Data.Fintype.BigOperators

namespace Proofstand.TransferLog

variable {A : Type} [DecidableEq A]

/-- Source, target, amount. -/
abbrev Entry (A : Type) := A × A × Nat

/-- What the log takes out of an account. -/
def sent (log : List (Entry A)) (a : A) : Nat :=
  (log.map fun e => if a = e.1 then e.2.2 else 0).sum

/-- What it puts into one. -/
def received (log : List (Entry A)) (a : A) : Nat :=
  (log.map fun e => if a = e.2.1 then e.2.2 else 0).sum

@[simp] theorem sent_nil (a : A) : sent [] a = 0 := rfl

@[simp] theorem received_nil (a : A) : received [] a = 0 := rfl

@[simp] theorem sent_append (log log' : List (Entry A)) (a : A) :
    sent (log ++ log') a = sent log a + sent log' a := by
  simp [sent]

@[simp] theorem received_append (log log' : List (Entry A)) (a : A) :
    received (log ++ log') a = received log a + received log' a := by
  simp [received]

@[simp] theorem sent_cons (e : Entry A) (log : List (Entry A)) (a : A) :
    sent (e :: log) a = (if a = e.1 then e.2.2 else 0) + sent log a := by
  simp [sent]

@[simp] theorem received_cons (e : Entry A) (log : List (Entry A)) (a : A) :
    received (e :: log) a
      = (if a = e.2.1 then e.2.2 else 0) + received log a := by
  simp [received]

-- ================================================================ the books

/-- Every balance is what the log makes it, where `total` is issued
from `issuer`. -/
def Books (balance : A → Nat) (log : List (Entry A)) (issuer : A)
    (total : Nat) : Prop :=
  ∀ a, balance a + sent log a
    = received log a + if a = issuer then total else 0

section Sums

variable [Fintype A]

/-- Every amount goes out of one account. -/
theorem sum_sent (log : List (Entry A)) :
    ∑ a, sent log a = (log.map fun e => e.2.2).sum := by
  induction log with
  | nil => simp
  | cons e log ih =>
      simp only [sent_cons, Finset.sum_add_distrib, ih, List.map_cons,
        List.sum_cons]
      simp

/-- And into one. -/
theorem sum_received (log : List (Entry A)) :
    ∑ a, received log a = (log.map fun e => e.2.2).sum := by
  induction log with
  | nil => simp
  | cons e log ih =>
      simp only [received_cons, Finset.sum_add_distrib, ih, List.map_cons,
        List.sum_cons]
      simp

/-- Where the books agree the balances sum to what was issued. -/
theorem Books.sum_eq {balance : A → Nat} {log : List (Entry A)}
    {issuer : A} {total : Nat} (h : Books balance log issuer total) :
    ∑ a, balance a = total := by
  have hsum : ∑ a, (balance a + sent log a)
      = ∑ a, (received log a + if a = issuer then total else 0) :=
    Finset.sum_congr rfl fun a _ => h a
  simp only [Finset.sum_add_distrib, sum_sent, sum_received,
    Finset.sum_ite_eq', Finset.mem_univ, if_true] at hsum
  omega

/-- Two accounts hold no more than the total. -/
theorem Books.add_le {balance : A → Nat} {log : List (Entry A)}
    {issuer : A} {total : Nat} (h : Books balance log issuer total)
    {a b : A} (hab : a ≠ b) : balance a + balance b ≤ total := by
  rw [← h.sum_eq, ← Finset.sum_pair hab]
  exact Finset.sum_le_sum_of_subset (Finset.subset_univ _)

end Sums

variable {balance balance' : A → Nat} {log : List (Entry A)} {issuer : A}
  {total total' : Nat}

/-- `amount` goes from one account to another. -/
theorem Books.transfer (h : Books balance log issuer total)
    (source target : A) (amount : Nat)
    (hmoved : ∀ a, balance' a + (if a = source then amount else 0)
      = balance a + if a = target then amount else 0) :
    Books balance' (log ++ [(source, target, amount)]) issuer total := by
  intro a
  have hold := h a
  have hnew := hmoved a
  simp only [sent_append, received_append, sent_cons, received_cons,
    sent_nil, received_nil]
  omega

/-- `amount` goes back to the issuer, and out of the total. -/
theorem Books.burn (h : Books balance log issuer total)
    (source : A) (amount : Nat) (htotal : total' + amount = total)
    (hmoved : ∀ a, balance' a + (if a = source then amount else 0)
      = balance a) :
    Books balance' (log ++ [(source, issuer, amount)]) issuer total' := by
  intro a
  have hold := h a
  have hnew := hmoved a
  simp only [sent_append, received_append, sent_cons, received_cons,
    sent_nil, received_nil]
  by_cases hissuer : a = issuer
  · simp only [hissuer, if_true] at hold hnew ⊢
    omega
  · simp only [hissuer, if_false] at hold hnew ⊢
    omega

end Proofstand.TransferLog
