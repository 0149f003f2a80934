/-
The books of the sentry's two test tokens.

Whatever is called on either, by whom and in which order, its balances are
the ones its `Transfer` events tell, and so sum to its `totalSupply`
(`accounted_run`): a sell of the taxed one burns the tax, and logs it as a
transfer to the zero address. Nothing reverts on an overflow but the
product in that tax (`exec_panic`).

# The invariant

`Accounted` ties a storage to its log: the balances are what the log makes
them, the owner is the deployer, and the total is at most what was
constructed, and just that on the honeypot. One lemma for each of the two
transfers (`honeypot_eq_ok`, `highTax_eq_ok`) says what moved; a call is a
transfer or moves nothing, and the run is an induction over transactions,
in which a call that reverts changes nothing.

# Overflow

No sum can overflow where the balances sum to the total, so the only
arithmetic left is the product of a sold value with the tax. It overflows
for values above a bound (`Overflows`), the call reverts, and the books
are as they were.
-/
import Proofstand.Lib.TransferLog
import Proofstand.Lib.Fallible
import Proofstand.Agents.BscSentry.Tokens

namespace Proofstand.Tokens

open TransferLog Fallible

variable {A : Type} [DecidableEq A] [Zero A]

-- ================================================ statement vocabulary

/-- What an event moves. -/
def Event.entry? : Event A → Option (Entry A)
  | .transfer source target value => some (source, target, value.val)
  | .approval _ _ _ => none

/-- The `Transfer` events of a log. -/
def transfersOf (events : List (Event A)) : List (Entry A) :=
  events.filterMap Event.entry?

def Token.balance (t : Token A) (a : A) : Nat := (t.balanceOf a).val

/-- A contract's state, held against its events and its constructor. -/
structure Accounted (c : Contract) (deployer : A) (supply : Uint256)
    (d : Deployed A) : Prop where
  owner : d.token.owner = deployer
  books : Books d.token.balance (transfersOf d.logs) 0
    d.token.totalSupply.val
  bounded : d.token.totalSupply.val ≤ supply.val
  fixed : c = .HoneypotToken → d.token.totalSupply = supply

-- ================================================================ the parts

omit [DecidableEq A] [Zero A] in
theorem transfersOf_append (events events' : List (Event A)) :
    transfersOf (events ++ events')
      = transfersOf events ++ transfersOf events' :=
  List.filterMap_append

theorem Uint256.add_eq_ok {a b c : Uint256} (h : a.add b = .ok c) :
    c.val = a.val + b.val := by
  unfold Uint256.add at h
  split at h
  · cases h
    rfl
  · cases h

theorem Uint256.sub_eq_ok {a b c : Uint256} (h : a.sub b = .ok c) :
    c.val + b.val = a.val := by
  unfold Uint256.sub at h
  split at h
  case isTrue hle =>
      cases h
      exact Nat.sub_add_cancel hle
  case isFalse => cases h

theorem require_eq_ok {cond : Bool} {msg : String} :
    require cond msg = .ok () ↔ cond = true := by
  cases cond with
  | true => exact ⟨fun _ => rfl, fun _ => rfl⟩
  | false => exact ⟨nofun, nofun⟩

omit [Zero A] in
/-- `out` leaves one account, `back` comes to the other, and nothing else
changes. -/
theorem move_eq_ok {t t' : Token A} {source target : A}
    {out back : Uint256} (h : t.move source target out back = .ok t') :
    t' = { t with balanceOf := t'.balanceOf }
      ∧ out.val ≤ t.balance source
      ∧ ∀ a, t'.balance a + (if a = source then out.val else 0)
        = t.balance a + if a = target then back.val else 0 := by
  obtain ⟨left, hleft, h⟩ := bind_eq_ok.1 h
  obtain ⟨more, hmore, h⟩ := bind_eq_ok.1 h
  cases h
  have hout := Uint256.sub_eq_ok hleft
  have hback := Uint256.add_eq_ok hmore
  refine ⟨rfl, ?_, ?_⟩
  · rw [Token.balance]
    omega
  · intro a
    simp only [Token.balance, Function.update_apply] at hback ⊢
    by_cases hsource : a = source
    · by_cases htarget : a = target
      · have hsame : target = source := htarget.symm.trans hsource
        simp only [hsource, hsame, if_true] at hback ⊢
        omega
      · have hother : ¬source = target := fun e => htarget (hsource.trans e)
        simp only [hsource, hother, if_true, if_false]
        omega
    · by_cases htarget : a = target
      · have hother : ¬target = source := fun e => hsource (htarget.trans e)
        simp only [htarget, hother, if_true, if_false] at hback ⊢
        omega
      · simp only [hsource, htarget, if_false]

-- ============================================================ one transfer

section Inner

variable {c : Contract} {t t' : Token A} {source target : A}
  {value : Uint256} {events : List (Event A)}

/-- A transfer of the honeypot that went through is no sell, and moved the
whole value. -/
theorem honeypot_eq_ok
    (h : HoneypotToken.internalTransfer t source target value
      = .ok (t', events)) :
    t.isSell source target = false
      ∧ t.move source target value value = .ok t'
      ∧ events = [.transfer source target value] := by
  obtain ⟨-, -, h⟩ := bind_eq_ok.1 h
  obtain ⟨⟨⟩, hsell, h⟩ := bind_eq_ok.1 h
  obtain ⟨moved, hmove, h⟩ := bind_eq_ok.1 h
  cases h
  refine ⟨?_, hmove, rfl⟩
  simpa using require_eq_ok.1 hsell

/-- A transfer of the taxed token, burning the tax if there is one. -/
theorem highTax_eq_ok
    (h : HighTaxToken.internalTransfer t source target value
      = .ok (t', events)) :
    ∃ tax back moved, HighTaxToken.taxOf t source target value = .ok tax
      ∧ back.val + tax.val = value.val
      ∧ t.move source target value back = .ok moved
      ∧ ((0 < tax.val ∧ ∃ left,
            left.val + tax.val = moved.totalSupply.val
            ∧ t' = { moved with totalSupply := left }
            ∧ events = [.transfer source 0 tax,
              .transfer source target back])
        ∨ (tax.val = 0 ∧ t' = moved
            ∧ events = [.transfer source target back])) := by
  obtain ⟨-, -, h⟩ := bind_eq_ok.1 h
  obtain ⟨tax, htax, h⟩ := bind_eq_ok.1 h
  obtain ⟨back, hback, h⟩ := bind_eq_ok.1 h
  obtain ⟨moved, hmove, h⟩ := bind_eq_ok.1 h
  refine ⟨tax, back, moved, htax, Uint256.sub_eq_ok hback, hmove, ?_⟩
  split at h
  case isTrue hpos =>
      obtain ⟨left, hleft, h⟩ := bind_eq_ok.1 h
      cases h
      exact Or.inl ⟨hpos, left, Uint256.sub_eq_ok hleft, rfl, rfl⟩
  case isFalse hnone =>
      cases h
      exact Or.inr ⟨by omega, rfl, rfl⟩

end Inner

/-- One transfer keeps the books, and changes neither the owner nor what
was constructed but by a burn. -/
theorem internalTransfer_accounts {c : Contract} {deployer : A}
    {supply : Uint256} {t t' : Token A} {logs events : List (Event A)}
    {source target : A} {value : Uint256}
    (hd : Accounted c deployer supply ⟨t, logs⟩)
    (h : c.internalTransfer t source target value = .ok (t', events)) :
    Accounted c deployer supply ⟨t', logs ++ events⟩ := by
  cases c with
  | HoneypotToken =>
      obtain ⟨-, hmove, rfl⟩ := honeypot_eq_ok h
      obtain ⟨hsame, -, hmoved⟩ := move_eq_ok hmove
      have htotal : t'.totalSupply = t.totalSupply := by rw [hsame]
      have howner : t'.owner = t.owner := by rw [hsame]
      refine ⟨howner.trans hd.owner, ?_, ?_, fun hc => ?_⟩
      · show Books t'.balance (transfersOf (logs ++ _)) 0 t'.totalSupply.val
        rw [transfersOf_append, htotal]
        exact hd.books.transfer source target value.val hmoved
      · show t'.totalSupply.val ≤ supply.val
        rw [htotal]
        exact hd.bounded
      · exact htotal.trans (hd.fixed hc)
  | HighTaxToken =>
      obtain ⟨tax, back, moved, -, hsplit, hmove, hend⟩ := highTax_eq_ok h
      obtain ⟨hsame, hleft, hmoved⟩ := move_eq_ok hmove
      have htotal : moved.totalSupply = t.totalSupply := by rw [hsame]
      have howner : moved.owner = t.owner := by rw [hsame]
      rcases hend with ⟨hpos, left, hburned, rfl, rfl⟩ | ⟨hnone, rfl, rfl⟩
      · -- the balances between the two events: the tax gone, the rest
        -- still to go
        have hbetween : Books
            (fun a => t.balance a - if a = source then tax.val else 0)
            (transfersOf logs ++ [(source, 0, tax.val)]) 0 left.val := by
          refine hd.books.burn source tax.val ?_ ?_
          · rw [hburned, htotal]
          · intro a
            by_cases ha : a = source
            · simp only [ha, if_true]
              omega
            · simp [ha]
        refine ⟨howner.trans hd.owner, ?_, ?_, nofun⟩
        · show Books moved.balance (transfersOf (logs ++ _)) 0 left.val
          have hlog : transfersOf (logs ++ [.transfer source 0 tax,
                .transfer source target back])
              = (transfersOf logs ++ [(source, 0, tax.val)])
                ++ [(source, target, back.val)] := by
            rw [transfersOf_append, List.append_assoc]
            rfl
          rw [hlog]
          refine hbetween.transfer source target back.val ?_
          intro a
          have ha := hmoved a
          by_cases hs : a = source
          · simp only [hs, if_true] at ha ⊢
            omega
          · simp only [hs, if_false] at ha ⊢
            omega
        · have hbound : t.totalSupply.val ≤ supply.val := hd.bounded
          rw [htotal] at hburned
          show left.val ≤ supply.val
          omega
      · refine ⟨howner.trans hd.owner, ?_, ?_, nofun⟩
        · show Books t'.balance (transfersOf (logs ++ _)) 0
            t'.totalSupply.val
          rw [transfersOf_append, htotal]
          refine hd.books.transfer source target back.val ?_
          intro a
          have ha := hmoved a
          have hback : back.val = value.val := by omega
          rw [← hback] at ha
          exact ha
        · show t'.totalSupply.val ≤ supply.val
          rw [htotal]
          exact hd.bounded

-- ================================================================== any call

omit [Zero A] in
/-- A pair was set by the owner, and nothing else was. -/
theorem setPair_eq_ok {t t' : Token A} {sender p : A}
    {events : List (Event A)}
    (h : setPair t sender p = .ok (t', events)) :
    sender = t.owner ∧ t' = { t with pair := p } ∧ events = [] := by
  obtain ⟨⟨⟩, howner, h⟩ := bind_eq_ok.1 h
  cases h
  exact ⟨by simpa using require_eq_ok.1 howner, rfl, rfl⟩

omit [Zero A] in
/-- A transfer on someone's behalf is a transfer, from a storage that
differs in that allowance alone. -/
theorem transferFrom_eq_ok {inner : Inner A} {t t' : Token A}
    {sender source target : A} {value : Uint256} {events : List (Event A)}
    (h : transferFrom inner t sender source target value
      = .ok (t', events)) :
    ∃ allowance,
      inner { t with allowance := allowance } source target value
        = .ok (t', events) := by
  obtain ⟨⟨⟩, -, h⟩ := bind_eq_ok.1 h
  split at h
  · obtain ⟨left, -, h⟩ := bind_eq_ok.1 h
    exact ⟨_, h⟩
  · exact ⟨t.allowance, h⟩

/-- A call that goes through keeps the accounts, -/
theorem exec_accounts {c : Contract} {deployer : A} {supply : Uint256}
    {t t' : Token A} {logs events : List (Event A)} {sender : A}
    {call : Call A} (hd : Accounted c deployer supply ⟨t, logs⟩)
    (h : exec c.internalTransfer t sender call = .ok (t', events)) :
    Accounted c deployer supply ⟨t', logs ++ events⟩ := by
  cases call with
  | setPair p =>
      obtain ⟨-, rfl, rfl⟩ := setPair_eq_ok h
      rw [List.append_nil]
      exact ⟨hd.owner, hd.books, hd.bounded, hd.fixed⟩
  | approve spender value =>
      cases h
      refine ⟨hd.owner, ?_, hd.bounded, hd.fixed⟩
      show Books t.balance (transfersOf (logs ++ _)) 0 t.totalSupply.val
      rw [transfersOf_append]
      show Books t.balance (transfersOf logs ++ []) 0 t.totalSupply.val
      rw [List.append_nil]
      exact hd.books
  | transfer target value => exact internalTransfer_accounts hd h
  | transferFrom source target value =>
      obtain ⟨allowance, hinner⟩ := transferFrom_eq_ok h
      refine internalTransfer_accounts ?_ hinner
      exact ⟨hd.owner, hd.books, hd.bounded, hd.fixed⟩

/-- so does any transaction, -/
theorem apply_accounts {c : Contract} {deployer : A} {supply : Uint256}
    {d : Deployed A} (hd : Accounted c deployer supply d) (tx : Tx A) :
    Accounted c deployer supply (apply c d tx) := by
  unfold apply
  cases h : exec c.internalTransfer d.token tx.1 tx.2 with
  | error e => exact hd
  | ok out => exact exec_accounts hd h

/-- and the constructor opens them. -/
theorem deployed_accounts (c : Contract) (deployer : A) (supply : Uint256) :
    Accounted c deployer supply
      ⟨(deployed deployer supply).1, (deployed deployer supply).2⟩ := by
  refine ⟨rfl, ?_, le_refl _, fun _ => rfl⟩
  intro a
  show (Function.update (fun _ => Uint256.zero) deployer supply a).val
      + sent [(0, deployer, supply.val)] a
    = received [(0, deployer, supply.val)] a + if a = 0 then supply.val else 0
  simp only [sent_cons, sent_nil, received_cons, received_nil,
    Function.update_apply]
  by_cases ha : a = deployer
  · simp only [ha, if_true]
    omega
  · simp only [ha, if_false]
    simp [Uint256.zero]

/-- So they hold after any transactions. -/
theorem accounted_run (c : Contract) (deployer : A) (supply : Uint256)
    (txs : List (Tx A)) :
    Accounted c deployer supply (history c deployer supply txs) := by
  unfold history
  induction txs using List.reverseRecOn with
  | nil => exact deployed_accounts c deployer supply
  | append_singleton txs tx ih =>
      rw [List.foldl_append]
      exact apply_accounts ih tx

-- =================================================================== panics

/-- The transfer a call asks for, as far as its allowance goes. -/
def asked (t : Token A) (sender : A) : Call A → Option (A × A × Uint256)
  | .setPair _ => none
  | .approve _ _ => none
  | .transfer target value => some (sender, target, value)
  | .transferFrom source target value =>
      if value.val ≤ (t.allowance source sender).val then
        some (source, target, value)
      else none

/-- A sell of more than the tax can be computed of. -/
def Overflows (c : Contract) (t : Token A) (source target : A)
    (value : Uint256) : Prop :=
  c = .HighTaxToken ∧ t.isSell source target = true
    ∧ value.val ≤ t.balance source
    ∧ 2 ^ 256 ≤ value.val * HighTaxToken.sellTaxBps

section Panics

variable [Fintype A] {c : Contract} {t : Token A} {source target : A}
  {value : Uint256}

omit [Zero A] in
/-- Where the books agree a covered move goes through: no sum exceeds the
supply. -/
theorem move_ok {log : List (Entry A)} {issuer : A} {back : Uint256}
    (hbooks : Books t.balance log issuer t.totalSupply.val)
    (hout : value.val ≤ t.balance source) (hback : back.val ≤ value.val) :
    ∃ t', t.move source target value back = .ok t' := by
  obtain ⟨left, hleft⟩ : ∃ left, (t.balanceOf source).sub value = .ok left :=
    ⟨_, if_pos hout⟩
  have hsub := Uint256.sub_eq_ok hleft
  have hroom : (Function.update t.balanceOf source left target).val
      + back.val < 2 ^ 256 := by
    by_cases hsame : target = source
    · have hbound := (t.balanceOf source).isLt
      rw [hsame, Function.update_self]
      omega
    · have hsum := hbooks.add_le hsame
      have hbound := t.totalSupply.isLt
      rw [Function.update_of_ne hsame]
      unfold Token.balance at hout hsum
      omega
  have hadd : (Function.update t.balanceOf source left target).add back
      = .ok ⟨_, hroom⟩ := dif_pos hroom
  unfold Token.move
  rw [hleft, ok_bind]
  dsimp only
  rw [hadd]
  exact ⟨_, rfl⟩

omit [Fintype A] in
/-- A transfer that is not covered fails on that. -/
theorem internalTransfer_uncovered
    (h : ¬value.val ≤ t.balance source) :
    c.internalTransfer t source target value
      = .error (.require "balance") := by
  have hfirst : require (decide (value.val ≤ (t.balanceOf source).val))
      "balance" = .error (.require "balance") := by
    have hshort : ¬value.val ≤ (t.balanceOf source).val := h
    rw [decide_eq_false hshort]
    rfl
  cases c with
  | HoneypotToken =>
      show HoneypotToken.internalTransfer t source target value = _
      rw [HoneypotToken.internalTransfer, hfirst]
      rfl
  | HighTaxToken =>
      show HighTaxToken.internalTransfer t source target value = _
      rw [HighTaxToken.internalTransfer, hfirst]
      rfl

theorem honeypot_never_panics {log : List (Entry A)}
    (hbooks : Books t.balance log 0 t.totalSupply.val) :
    HoneypotToken.internalTransfer t source target value
      ≠ .error .panic := by
  by_cases hcovered : value.val ≤ t.balance source
  · have hfirst : require (decide (value.val ≤ (t.balanceOf source).val))
        "balance" = .ok () := require_eq_ok.2 (decide_eq_true hcovered)
    obtain ⟨t', ht'⟩ : ∃ t', t.move source target value value = .ok t' :=
      move_ok hbooks hcovered (le_refl _)
    rw [HoneypotToken.internalTransfer, hfirst, ok_bind, ht']
    cases t.isSell source target with
    | true => exact nofun
    | false => exact nofun
  · show Contract.HoneypotToken.internalTransfer t source target value ≠ _
    rw [internalTransfer_uncovered hcovered]
    exact nofun

/-- With the tax computed, nothing is left that can fail. -/
theorem highTax_ok {log : List (Entry A)} {tax : Uint256}
    (hbooks : Books t.balance log 0 t.totalSupply.val)
    (hcovered : value.val ≤ t.balance source)
    (htax : HighTaxToken.taxOf t source target value = .ok tax)
    (hle : tax.val ≤ value.val) :
    ∃ out, HighTaxToken.internalTransfer t source target value = .ok out := by
  have hfirst : require (decide (value.val ≤ (t.balanceOf source).val))
      "balance" = .ok () := require_eq_ok.2 (decide_eq_true hcovered)
  obtain ⟨back, hback⟩ : ∃ back, value.sub tax = .ok back := ⟨_, if_pos hle⟩
  have hsplit := Uint256.sub_eq_ok hback
  obtain ⟨moved, hmoved⟩ : ∃ moved,
      t.move source target value back = .ok moved :=
    move_ok hbooks hcovered (by omega)
  obtain ⟨hsame, -, -⟩ := move_eq_ok hmoved
  have htotal : moved.totalSupply = t.totalSupply := by rw [hsame]
  have hheld : t.balance source ≤ t.totalSupply.val := by
    rw [← hbooks.sum_eq]
    exact Finset.single_le_sum (fun a _ => Nat.zero_le _)
      (Finset.mem_univ source)
  rw [HighTaxToken.internalTransfer, hfirst, ok_bind, htax, ok_bind, hback,
    ok_bind, hmoved, ok_bind]
  by_cases hpos : 0 < tax.val
  · have hburn : moved.totalSupply.sub tax = .ok
        ⟨moved.totalSupply.val - tax.val,
          lt_of_le_of_lt (Nat.sub_le _ _) moved.totalSupply.isLt⟩ := by
      refine if_pos ?_
      rw [htotal]
      omega
    rw [if_pos hpos, hburn]
    exact ⟨_, rfl⟩
  · rw [if_neg hpos]
    exact ⟨_, rfl⟩

omit [Fintype A] in
/-- The tax is no more than is sold, where it can be computed. -/
theorem taxOf_eq (value : Uint256) (hsell : t.isSell source target = true) :
    HighTaxToken.taxOf t source target value
      = if h : value.val * HighTaxToken.sellTaxBps < 2 ^ 256 then
          .ok (Uint256.div ⟨_, h⟩ 10000)
        else .error .panic := by
  rw [HighTaxToken.taxOf, if_pos hsell, Uint256.mul]
  split <;> rfl

/-- A transfer overflows where the tax of a covered sell does, -/
theorem internalTransfer_panic_iff {log : List (Entry A)}
    (hbooks : Books t.balance log 0 t.totalSupply.val) :
    c.internalTransfer t source target value = .error .panic
      ↔ Overflows c t source target value := by
  by_cases hcovered : value.val ≤ t.balance source
  · cases c with
    | HoneypotToken =>
        exact ⟨fun h => absurd h (honeypot_never_panics hbooks),
          fun h => absurd h.1 nofun⟩
    | HighTaxToken =>
        show HighTaxToken.internalTransfer t source target value = _ ↔ _
        cases hsell : t.isSell source target with
        | false =>
            have htax : HighTaxToken.taxOf t source target value
                = .ok .zero := by
              rw [HighTaxToken.taxOf, hsell]
              rfl
            obtain ⟨out, hout⟩ :=
              highTax_ok hbooks hcovered htax (Nat.zero_le _)
            rw [hout]
            refine ⟨nofun, fun h => ?_⟩
            rw [h.2.1] at hsell
            cases hsell
        | true =>
            have htax := taxOf_eq value hsell
            by_cases hfits : value.val * HighTaxToken.sellTaxBps < 2 ^ 256
            · rw [dif_pos hfits] at htax
              have hle : value.val * HighTaxToken.sellTaxBps / 10000
                  ≤ value.val := by
                rw [HighTaxToken.sellTaxBps]
                omega
              obtain ⟨out, hout⟩ := highTax_ok hbooks hcovered htax hle
              rw [hout]
              exact ⟨nofun, fun h => absurd hfits (not_lt.2 h.2.2.2)⟩
            · rw [dif_neg hfits] at htax
              have hfirst : require
                  (decide (value.val ≤ (t.balanceOf source).val)) "balance"
                    = .ok () := require_eq_ok.2 (decide_eq_true hcovered)
              rw [HighTaxToken.internalTransfer, hfirst, ok_bind, htax]
              exact ⟨fun _ => ⟨rfl, hsell, hcovered, not_lt.1 hfits⟩,
                fun _ => rfl⟩
  · rw [internalTransfer_uncovered hcovered]
    exact ⟨nofun, fun h => absurd h.2.2.1 hcovered⟩

/-- and a call where the transfer it asks for does. -/
theorem exec_panic_iff {log : List (Entry A)} {sender : A} {call : Call A}
    (hbooks : Books t.balance log 0 t.totalSupply.val) :
    exec c.internalTransfer t sender call = .error .panic
      ↔ ∃ source target value,
          asked t sender call = some (source, target, value)
            ∧ Overflows c t source target value := by
  cases call with
  | setPair p =>
      constructor
      · intro h
        by_cases howner : sender = t.owner
        · simp [exec, setPair, require, howner] at h
        · simp [exec, setPair, require, howner, Bind.bind, Except.bind] at h
      · intro h
        obtain ⟨s, g, v, hasked, -⟩ := h
        cases hasked
  | approve spender value =>
      constructor
      · intro h
        cases h
      · intro h
        obtain ⟨s, g, v, hasked, -⟩ := h
        cases hasked
  | transfer target value =>
      show c.internalTransfer t sender target value = _ ↔ _
      rw [internalTransfer_panic_iff hbooks]
      constructor
      · intro h
        exact ⟨_, _, _, rfl, h⟩
      · intro h
        obtain ⟨s, g, v, hasked, h⟩ := h
        cases hasked
        exact h
  | transferFrom source target value =>
      show transferFrom c.internalTransfer t sender source target value = _
        ↔ _
      by_cases hallowed : value.val ≤ (t.allowance source sender).val
      · have hfirst : require
            (decide (value.val ≤ (t.allowance source sender).val))
              "allowance" = .ok () :=
          require_eq_ok.2 (decide_eq_true hallowed)
        -- the allowance is no part of what a transfer looks at
        have hinner : transferFrom c.internalTransfer t sender source target
              value = .error .panic
            ↔ Overflows c t source target value := by
          unfold transferFrom
          dsimp only
          rw [hfirst, ok_bind]
          by_cases hmax : t.allowance source sender = .max
          · rw [if_neg (not_not.2 hmax)]
            exact internalTransfer_panic_iff hbooks
          · obtain ⟨left, hleft⟩ : ∃ left,
                (t.allowance source sender).sub value = .ok left :=
              ⟨_, if_pos hallowed⟩
            rw [if_pos hmax, hleft]
            exact internalTransfer_panic_iff
              (t := t.allow source sender left) hbooks
        rw [hinner]
        constructor
        · intro h
          exact ⟨_, _, _, if_pos hallowed, h⟩
        · intro h
          obtain ⟨s, g, v, hasked, h⟩ := h
          rw [asked, if_pos hallowed] at hasked
          cases hasked
          exact h
      · have hfirst : require
            (decide (value.val ≤ (t.allowance source sender).val))
              "allowance" = .error (.require "allowance") := by
          rw [decide_eq_false hallowed]
          rfl
        unfold transferFrom
        dsimp only
        rw [hfirst]
        constructor
        · intro h
          cases h
        · intro h
          obtain ⟨s, g, v, hasked, -⟩ := h
          rw [asked, if_neg hallowed] at hasked
          cases hasked

/-- After any transactions, on either contract: the balances sum to the
total supply, which is at most what was constructed, and exactly that on
the honeypot; every balance is what the `Transfer` events make it; and a
call overflows only where it sells, allowed and covered, more of the
taxed token than its tax can be computed of. -/
theorem books_balance (c : Contract) (deployer : A) (supply : Uint256)
    (txs : List (Tx A)) :
    let d := history c deployer supply txs
    ∑ a, d.token.balance a = d.token.totalSupply.val
      ∧ d.token.totalSupply.val ≤ supply.val
      ∧ (c = .HoneypotToken → d.token.totalSupply = supply)
      ∧ (∀ a, d.token.balance a + sent (transfersOf d.logs) a
          = received (transfersOf d.logs) a
            + if a = 0 then d.token.totalSupply.val else 0)
      ∧ ∀ sender call,
          exec c.internalTransfer d.token sender call = .error .panic
            ↔ ∃ source target value,
                asked d.token sender call = some (source, target, value)
                  ∧ Overflows c d.token source target value := by
  intro d
  have hd : Accounted c deployer supply d :=
    accounted_run c deployer supply txs
  exact ⟨hd.books.sum_eq, hd.bounded, hd.fixed, hd.books,
    fun sender call => exec_panic_iff hd.books⟩

end Panics

-- ================================================================== a witness

/-- Ten thousand of the taxed token, a pair, a buy and a sell. -/
def soldOnce : List (Tx (Fin 4)) :=
  [(1, .setPair 2), (1, .transfer 2 (.ofNat 5000)),
    (2, .transfer 3 (.ofNat 1000)), (3, .transfer 2 (.ofNat 1000))]

/-- The tax is out of the total, and in the log as sent to the zero
address. -/
theorem books_balance_sold :
    let d := history .HighTaxToken 1 (.ofNat 10000) soldOnce
    ∑ a, d.token.balance a = 9600
      ∧ d.token.balance 0 = 0
      ∧ sent (transfersOf d.logs) 0 = 10000
      ∧ received (transfersOf d.logs) 0 = 400 := by
  intro d
  have htotal : d.token.totalSupply.val = 9600 := by decide +kernel
  obtain ⟨hsum, -, -, hbooks, -⟩ :=
    books_balance .HighTaxToken (1 : Fin 4) (.ofNat 10000) soldOnce
  have hzero : d.token.balance 0 + sent (transfersOf d.logs) 0
      = received (transfersOf d.logs) 0 + 9600 := by
    rw [← htotal]
    exact hbooks 0
  have hreceived : received (transfersOf d.logs) 0 = 400 := by
    decide +kernel
  have hsent : sent (transfersOf d.logs) 0 = 10000 := by decide +kernel
  exact ⟨hsum.trans htotal, by omega, hsent, hreceived⟩

end Proofstand.Tokens
