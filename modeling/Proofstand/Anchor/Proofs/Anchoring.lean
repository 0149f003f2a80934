/-
Rows, events and recomputed trees agree, in every reachable state.

A commitment `(batchId, root, count)` is right about a table when the
batch has rows, their recomputed root is `root` and there are `count` of
them (`Committed`). `submit_batch` builds only right ones, and a right
one stays right, because the leaves of a batch with rows never change:
so every call waiting to be sent, every transaction waiting to be mined
and every event logged is right (`ChainInv`), whichever of its steps
`submit_batch` gets to.

# The invariant

`Inv` is the database's invariant and `ChainInv` together. The first says
which rows can still change: those of no batch, and no others
(`Stable`, in `System.lean`). The second speaks of three places a
commitment can be in: the built call a client has in hand, the
transactions pending, and the log. One lemma for each kind of step says
where its commitments come from (`ChainStep`), so `chainInv_step` has the
same two cases everywhere: a commitment that was there before, and the one
that was just built from the committed rows of a settled batch.

# Interleavings

Nothing is assumed of the order of steps. The clients are any number, a
call may stop after any of its statements, and a transaction may be mined
long after its sender has raised.

# Served and anchored

That a served root is anchored is not an invariant, it is a matter of the
moment. `proofFor_anchored_iff` says exactly of which moments: those in
which the receipt's batch has its event.
-/
import Proofstand.Anchor.Proofs.System

namespace Proofstand.Anchor

open Hex Transition

-- ====================================================== the built call

theorem batchIdToUint_inj {b b' : Uuid}
    (h : batchIdToUint b = batchIdToUint b') : b = b' := Fin.ext h

/-- A root read back from its text. -/
theorem fromhex_hex0x (bs : Bytes) :
    fromhex ((hex0x bs).toList.drop 2) = .ok bs := by
  have hdrop : (hex0x bs).toList.drop 2 = encodeHex bs := by
    rw [hex0x, String.toList_ofList]
    rfl
  rw [hdrop]
  exact fromhex_of_hexPairs (hexPairs_encodeHex bs)

theorem hex0x_inj {bs bs' : Bytes} (h : hex0x bs = hex0x bs') : bs = bs' := by
  have hread := fromhex_hex0x bs
  rw [h, fromhex_hex0x] at hread
  injection hread with heq
  exact heq.symm

/-- What was built holds the batch's id, its root and its count. -/
theorem buildCall_ok {K : Keccak} {bid : Uuid} {sender anchor : Address}
    {leaves : List String} {job : Job}
    (h : buildCall K bid sender anchor leaves = .ok job) :
    leaves ≠ [] ∧ job.bid = bid
      ∧ merkleRoot (byteNodes K) leaves = .ok (hex0x job.rootBytes)
      ∧ job.root = hex0x job.rootBytes ∧ job.count = leaves.length := by
  unfold buildCall at h
  split at h
  case isTrue => cases h
  case isFalse hne =>
    have hne' : leaves ≠ [] := fun hnil => hne (by rw [hnil]; rfl)
    obtain ⟨root, hroot, h⟩ := Fallible.bind_eq_ok.1 h
    obtain ⟨level, top, -, -, rfl⟩ :=
      merkleRoot_eq_ok (byteNodes K) hne' hroot
    have hread : fromhex ((hex0x top).toList.drop 2) = .ok top :=
      fromhex_hex0x top
    obtain ⟨bs, hbs, h⟩ := Fallible.bind_eq_ok.1 h
    have hbs' : fromhex ((hex0x top).toList.drop 2) = .ok bs := hbs
    rw [hread] at hbs'
    cases hbs'
    cases h
    exact ⟨hne', rfl, hroot, rfl, rfl⟩

-- ==================================================== right commitments

/-- The commitment is that of a batch with rows in the table. -/
def Committed (K : Keccak) (t : Table) (batchId : Nat) (root : Bytes)
    (count : Nat) : Prop :=
  ∃ b, batchIdToUint b = batchId ∧ batchLeaves t b ≠ []
    ∧ merkleRoot (byteNodes K) (batchLeaves t b) = .ok (hex0x root)
    ∧ count = (batchLeaves t b).length

/-- A batch has one root and one count. -/
theorem committed_agree {K : Keccak} {t : Table} {b count count' : Nat}
    {root root' : Bytes} (h : Committed K t b root count)
    (h' : Committed K t b root' count') : root = root' ∧ count = count' := by
  obtain ⟨bid, hid, -, hroot, hcount⟩ := h
  obtain ⟨bid', hid', -, hroot', hcount'⟩ := h'
  obtain rfl := batchIdToUint_inj (hid.trans hid'.symm)
  rw [hroot] at hroot'
  injection hroot' with heq
  exact ⟨hex0x_inj heq, hcount.trans hcount'.symm⟩

/-- A commitment stays true of a table in which the batch's rows stay. -/
theorem committed_stable {K : Keccak} {s s' : State} (hs : DbInv s)
    (hst : Stable s s') {batchId count : Nat} {root : Bytes}
    (h : Committed K s.table batchId root count) :
    Committed K s'.table batchId root count := by
  obtain ⟨b, hid, hne, hroot, hcount⟩ := h
  have hleaves := (hst.settled b (settled_of_leaves hs hne)).2
  refine ⟨b, hid, ?_, ?_, ?_⟩
  · rw [hleaves]
    exact hne
  · rw [hleaves]
    exact hroot
  · rw [hleaves]
    exact hcount

-- ============================================================ the chain

/-- The chain side of a step: where a built call, a pending transaction
or an event can come from, and that events stay. -/
structure ChainStep (K : Keccak) (s s' : State) : Prop where
  built : ∀ c job, s'.clients c = .rooted job → s.clients c = .rooted job
    ∨ ∃ sender anchor, buildCall K job.bid sender anchor
        (batchLeaves s'.table job.bid) = .ok job
  pending : ∀ p ∈ s'.chain.pending, p ∈ s.chain.pending
    ∨ ∃ c job, s.clients c = .rooted job ∧ p.2 = job.call
  anchored : ∀ addr b root count ts,
    (addr, Event.batchAnchored b root count ts) ∈ s'.chain.logs →
      (addr, Event.batchAnchored b root count ts) ∈ s.chain.logs
        ∨ ∃ p ∈ s.chain.pending,
            p.2.batchId = b ∧ p.2.root = root ∧ p.2.count = count
  logs : ∀ e ∈ s.chain.logs, e ∈ s'.chain.logs

/-- A client with a root was there before another's move. -/
theorem rooted_of_move {s : State} {c c' : ClientId} {pc : Pc} {job : Job}
    (hnew : ∀ job, pc ≠ .rooted job) (h : s.move c pc c' = .rooted job) :
    s.clients c' = .rooted job := by
  by_cases hc : c' = c
  · subst hc
    rw [move_self] at h
    exact absurd h (hnew job)
  · rwa [move_of_ne s pc hc] at h

/-- A step that leaves the chain alone and builds no call. -/
theorem chainStep_move {K : Keccak} {s s' : State} {c : ClientId} {pc : Pc}
    (hchain : s'.chain = s.chain) (hclients : s'.clients = s.move c pc)
    (hnew : ∀ job, pc ≠ .rooted job) : ChainStep K s s' where
  built := by
    intro c' job hpc
    rw [hclients] at hpc
    exact Or.inl (rooted_of_move hnew hpc)
  pending := fun p hp => Or.inl (hchain ▸ hp)
  anchored := fun _ _ _ _ _ h => Or.inl (hchain ▸ h)
  logs := fun e he => hchain ▸ he

/-- A step that only touches the chain. -/
theorem chainStep_chain {K : Keccak} {s : State} {chain : Chain}
    (hpending : ∀ p ∈ chain.pending, p ∈ s.chain.pending)
    (hanchored : ∀ addr b root count ts,
      (addr, Event.batchAnchored b root count ts) ∈ chain.logs →
        (addr, Event.batchAnchored b root count ts) ∈ s.chain.logs
          ∨ ∃ p ∈ s.chain.pending,
              p.2.batchId = b ∧ p.2.root = root ∧ p.2.count = count)
    (hlogs : ∀ e ∈ s.chain.logs, e ∈ chain.logs) :
    ChainStep K s { s with chain := chain } where
  built := fun _ _ hpc => Or.inl hpc
  pending := fun p hp => Or.inl (hpending p hp)
  anchored := hanchored
  logs := hlogs

/-- The event of a mined call is the call's. -/
theorem execute_anchored {ch : Chain} {call : AnchorCall} {ts ts' : Nat}
    {addr : Address} {b count : Nat} {root : Bytes}
    (h : (addr, Event.batchAnchored b root count ts') ∈ (ch.execute call ts).2) :
    call.batchId = b ∧ call.root = root ∧ call.count = count := by
  unfold Chain.execute at h
  split at h
  · cases h
  · split at h
    case h_2 => cases h
    case h_1 event hok =>
      unfold ReceiptAnchor.anchor at hok
      split at hok
      case isFalse => cases hok
      case isTrue =>
        cases hok
        cases List.mem_singleton.1 h
        exact ⟨rfl, rfl, rfl⟩

/-- Mining executes a call that was sent, or fails it. -/
theorem chainStep_mine {K : Keccak} {s : State} {hash : TxHash} {ts : Nat}
    {chain : Chain} (h : s.chain.mine hash ts = some chain) :
    ChainStep K s { s with chain := chain } := by
  unfold Chain.mine at h
  split at h
  case h_1 => cases h
  case h_2 hash' call hfind =>
    cases h
    refine chainStep_chain ?_ ?_ ?_
    · intro p hp
      exact List.mem_of_mem_filter hp
    · intro addr b root count ts' he
      rcases List.mem_append.1 he with he | he
      · exact Or.inr ⟨_, List.mem_of_find?_eq_some hfind, execute_anchored he⟩
      · exact Or.inl he
    · intro e he
      exact List.mem_append_right _ he

theorem chainStep_deploy {K : Keccak} {s : State} {addr deployer : Address}
    {chain : Chain} (h : s.chain.deploy addr deployer = some chain) :
    ChainStep K s { s with chain := chain } := by
  unfold Chain.deploy at h
  split at h
  case h_1 => cases h
  case h_2 =>
    cases h
    refine chainStep_chain (fun _ h => h) ?_ ?_
    · intro addr' b root count ts he
      rcases List.mem_cons.1 he with he | he
      · cases he
      · exact Or.inl he
    · intro e he
      exact List.mem_cons_of_mem _ he

theorem chainStep_setWriter {K : Keccak} {s : State}
    {addr sender writer : Address} {allowed : Bool} {chain : Chain}
    (h : s.chain.setWriter addr sender writer allowed = some chain) :
    ChainStep K s { s with chain := chain } := by
  unfold Chain.setWriter at h
  split at h
  case h_1 => cases h
  case h_2 c _ =>
    split at h
    case h_1 => cases h
    case h_2 c' event hok =>
      cases h
      have hevent : event = .writerSet writer allowed := by
        unfold ReceiptAnchor.setWriter at hok
        split at hok
        · cases hok
        · cases hok
          rfl
      refine chainStep_chain (fun _ h => h) ?_ ?_
      · intro addr' b root count ts he
        rw [hevent] at he
        rcases List.mem_cons.1 he with he | he
        · cases he
        · exact Or.inl he
      · intro e he
        exact List.mem_cons_of_mem _ he

/-- A client's call is pending from the moment it is sent. -/
theorem chainStep_send {K : Keccak} {s : State} {c : ClientId} {hash : TxHash}
    {job : Job} {chain : Chain} (hpc : s.clients c = .rooted job)
    (h : s.chain.send hash job.call = some chain) :
    ChainStep K s
      { s with clients := s.move c (.sent job hash), chain := chain } := by
  unfold Chain.send at h
  split at h
  case isTrue => cases h
  case isFalse =>
    cases h
    refine ⟨?_, ?_, fun _ _ _ _ _ h => Or.inl h, fun _ h => h⟩
    · intro c' job' hrooted
      exact Or.inl (rooted_of_move (fun _ h => by cases h) hrooted)
    · intro p hp
      rcases List.mem_cons.1 hp with rfl | hp
      · exact Or.inr ⟨c, job, hpc, rfl⟩
      · exact Or.inl hp

/-- The call a client builds is built from the rows of its batch. -/
theorem chainStep_built {K : Keccak} {s : State} {c : ClientId} {bid : Uuid}
    {sender anchor : Address} {job : Job}
    (h : buildCall K bid sender anchor (batchLeaves s.table bid) = .ok job) :
    ChainStep K s (s.setPc c (.rooted job)) := by
  refine ⟨?_, fun _ h => Or.inl h, fun _ _ _ _ _ h => Or.inl h,
    fun _ h => h⟩
  intro c' job' hrooted
  change s.move c _ c' = _ at hrooted
  by_cases hc : c' = c
  · subst hc
    rw [move_self] at hrooted
    cases hrooted
    refine Or.inr ⟨sender, anchor, ?_⟩
    rw [(buildCall_ok h).2.1]
    exact h
  · rw [move_of_ne s _ hc] at hrooted
    exact Or.inl hrooted

theorem step_chain {K : Keccak} {s s' : State} {a : Action}
    (h : step K s a = some s') : ChainStep K s s' := by
  cases step_effect h with
  | insert hid =>
      exact ⟨fun _ _ h => Or.inl h, fun _ h => Or.inl h,
        fun _ _ _ _ _ h => Or.inl h, fun _ h => h⟩
  | callCreate hrest => exact chainStep_move rfl rfl nofun
  | tooFew hpc hfew => exact chainStep_move rfl rfl nofun
  | counted hpc henough => exact chainStep_move rfl rfl nofun
  | update hpc hfresh hfree => exact chainStep_move rfl rfl nofun
  | commit hpc => exact chainStep_move rfl rfl nofun
  | callSubmit hrest => exact chainStep_move rfl rfl nofun
  | built hpc hbuild => exact chainStep_built hbuild
  | unbuilt hpc hbuild => exact chainStep_move rfl rfl nofun
  | send hpc hsend => exact chainStep_send hpc hsend
  | confirmed hpc hrcpt hstatus => exact chainStep_move rfl rfl nofun
  | reverted hpc hrcpt hstatus => exact chainStep_move rfl rfl nofun
  | record hpc => exact chainStep_move rfl rfl nofun
  | crash hbusy => exact chainStep_move rfl rfl nofun
  | deploy hdeploy => exact chainStep_deploy hdeploy
  | setWriter hset => exact chainStep_setWriter hset
  | mine hmine => exact chainStep_mine hmine

-- ======================================================== the invariant

/-- Every commitment under way or logged is right. -/
structure ChainInv (K : Keccak) (s : State) : Prop where
  built : ∀ c job, s.clients c = .rooted job →
    Committed K s.table job.call.batchId job.call.root job.call.count
  pending : ∀ p ∈ s.chain.pending,
    Committed K s.table p.2.batchId p.2.root p.2.count
  anchored : ∀ addr b root count ts,
    (addr, Event.batchAnchored b root count ts) ∈ s.chain.logs →
      Committed K s.table b root count

/-- What was built stays the batch's root while the batch settles, and only
what was built is sent, mined and logged. -/
theorem chainInv_step {K : Keccak} {s s' : State} (hs : DbInv s)
    (hc : ChainInv K s) (hst : Stable s s') (h : ChainStep K s s') :
    ChainInv K s' where
  built := by
    intro c job hpc
    rcases h.built c job hpc with hold | ⟨sender, anchor, hbuild⟩
    · exact committed_stable hs hst (hc.built c job hold)
    · obtain ⟨hne, -, hroot, -, hcount⟩ := buildCall_ok hbuild
      exact ⟨job.bid, rfl, hne, hroot, hcount⟩
  pending := by
    intro p hp
    rcases h.pending p hp with hold | ⟨c, job, hpc, hcall⟩
    · exact committed_stable hs hst (hc.pending p hold)
    · rw [hcall]
      exact committed_stable hs hst (hc.built c job hpc)
  anchored := by
    intro addr b root count ts he
    rcases h.anchored addr b root count ts he with hold | ⟨p, hp, rfl, rfl, rfl⟩
    · exact committed_stable hs hst (hc.anchored addr b root count ts hold)
    · exact committed_stable hs hst (hc.pending p hp)

/-- What holds of every reachable state. -/
structure Inv (K : Keccak) (s : State) : Prop where
  db : DbInv s
  chain : ChainInv K s
  returned : ∀ p ∈ s.returned, Settled s p.1

/-- It holds at the start, -/
theorem inv_init (K : Keccak) : Inv K init where
  db := dbInv_init
  chain :=
    { built := fun _ _ h => by cases h
      pending := fun _ h => by cases h
      anchored := fun _ _ _ _ _ h => by cases h }
  returned := fun _ h => by cases h

/-- every step keeps it, -/
theorem inv_step {K : Keccak} {s s' : State} {a : Action} (hs : Inv K s)
    (h : step K s a = some s') : Inv K s' where
  db := dbInv_step hs.db (step_db h)
  chain := chainInv_step hs.db hs.chain (stable_step hs.db (step_db h))
    (step_chain h)
  returned := returned_settled_step hs.db hs.returned (step_db h)

/-- and so does every run. -/
theorem inv_run {K : Keccak} {s s' : State} {acts : List Action}
    (hs : Inv K s) (hrun : run (step K) s acts = some s') : Inv K s' :=
  run_invariant inv_step hs hrun

/-- Events stay. -/
theorem logs_run {K : Keccak} {s s' : State} {acts : List Action}
    (hs : Inv K s) (hrun : run (step K) s acts = some s') :
    ∀ e ∈ s.chain.logs, e ∈ s'.chain.logs :=
  run_stable (R := fun s s' => ∀ e ∈ s.chain.logs, e ∈ s'.chain.logs)
    inv_step (fun _ _ h => h) (fun h h' e he => h' e (h e he))
    (fun _ h => (step_chain h).logs) hs hrun

-- ============================================================= batches

/-- The row a later SELECT by id returns still has its batch. -/
theorem batchId_run {K : Keccak} {s s' : State} {acts : List Action}
    (hs : DbInv s) (hrun : run (step K) s acts = some s') {r : Receipt}
    (hr : r ∈ s.table) {b : Uuid} (hb : r.batchId = some b) :
    (selectById s'.table r.id).map (·.batchId) = some (some b) := by
  obtain ⟨r', hr', hid, -, hbatch⟩ := (stable_run hs hrun).rows r hr
  have hs' := dbInv_run hs hrun
  rw [← hid, selectById_eq hs'.ids hr', Option.map_some, hbatch b hb]

/-- A row's leaf stays among its batch's leaves. -/
theorem leaf_mem_run {K : Keccak} {s s' : State} {acts : List Action}
    (hs : DbInv s) (hrun : run (step K) s acts = some s') {r : Receipt}
    (hr : r ∈ s.table) {b : Uuid} (hb : r.batchId = some b) :
    r.merkleLeaf.hex ∈ batchLeaves s'.table b := by
  rw [((stable_run hs hrun).settled b (settled_of_mem hs hr hb)).2]
  exact mem_batchLeaves.2 ⟨r, hr, hb, rfl⟩

/-- Over every run: a batch id once set stays, the leaves of a returned
batch stay, and every event logged is the commitment of its batch at
every later state, with an accepted proof for each of its receipts. The
row and the leaves behind a proof may be read at different moments. -/
theorem anchored_batches (K : Keccak) {acts acts' acts'' : List Action}
    {s s' s'' : State} (hrun : run (step K) init acts = some s)
    (hrun' : run (step K) s acts' = some s')
    (hrun'' : run (step K) s' acts'' = some s'') :
    (∀ r ∈ s.table, ∀ b, r.batchId = some b →
        (selectById s'.table r.id).map (·.batchId) = some (some b))
      ∧ (∀ p ∈ s.returned, batchLeaves s'.table p.1 = batchLeaves s.table p.1)
      ∧ ∀ addr batchId root count ts,
          (addr, Event.batchAnchored batchId root count ts) ∈ s.chain.logs →
          ∃ b, batchIdToUint b = batchId
            ∧ count = (batchRows s'.table b).length
            ∧ merkleRoot (byteNodes K) (batchLeaves s'.table b)
                = .ok (hex0x root)
            ∧ ∀ r ∈ s'.table, r.batchId = some b → ∃ proof,
                proofFor K s'.table s''.table r.id
                    = .ok (some proof, some (hex0x root))
                  ∧ verifyProof (byteNodes K) r.merkleLeaf.hex proof
                      (hex0x root) = .ok true := by
  have hs := inv_run (inv_init K) hrun
  have hs' := inv_run hs hrun'
  refine ⟨fun r hr b hb => batchId_run hs.db hrun' hr hb, ?_, ?_⟩
  · intro p hp
    exact ((stable_run hs.db hrun').settled p.1 (hs.returned p hp)).2
  · intro addr batchId root count ts he
    obtain ⟨b, hid, hne, hroot, hcount⟩ :=
      hs'.chain.anchored addr batchId root count ts (logs_run hs hrun' _ he)
    refine ⟨b, hid, hcount.trans (batchLeaves_length _ b), hroot, ?_⟩
    intro r hr hb
    obtain ⟨proof, root', hroot', hproof, hverify⟩ :=
      proofFor_batched K hs'.db.ids hr hb (leaf_mem_run hs'.db hrun'' hr hb)
    have hleaves := ((stable_run hs'.db hrun'').settled b
      (settled_of_mem hs'.db hr hb)).2
    have heq : root' = hex0x root := by
      rw [hleaves, hroot] at hroot'
      injection hroot' with h
      exact h.symm
    rw [heq] at hproof hverify
    exact ⟨proof, hproof, hverify⟩

/-- Two receipts of one moment and one leaf value, anchored together by
a client that crashed before `anchored_tx`. -/
theorem anchored_batches_shared_leaf :
    ∃ s, run (step .everyOther) init
        [.insert 2 5 (.ofDigit 10), .insert 1 5 (.ofDigit 10),
          .callCreate 0 1, .count 0, .update 0 7, .commit 0, .deploy 100 9,
          .callSubmit 0 7 9 100, .readLeaves 0, .send 0 [1], .mine [1] 1000,
          .crash 0 ⟨.NetworkError, ""⟩] = some s
      ∧ ∃ r ∈ s.table, r.id = 1 ∧ ∃ proof root,
          (100, Event.batchAnchored 7 root 2 1000) ∈ s.chain.logs
            ∧ proofFor .everyOther s.table s.table r.id
                = .ok (some proof, some (hex0x root))
            ∧ verifyProof (byteNodes .everyOther) r.merkleLeaf.hex proof
                (hex0x root) = .ok true := by
  obtain ⟨s, hs, hfacts⟩ := (Option.any_eq_true
    (fun s => s.chain.logs.contains
        (100, Event.batchAnchored 7 (List.replicate 32 170) 2 1000)
      && s.table.any fun r => r.id = 1 && r.batchId = some 7)
    (run (step .everyOther) init
      [.insert 2 5 (.ofDigit 10), .insert 1 5 (.ofDigit 10),
        .callCreate 0 1, .count 0, .update 0 7, .commit 0, .deploy 100 9,
        .callSubmit 0 7 9 100, .readLeaves 0, .send 0 [1], .mine [1] 1000,
        .crash 0 ⟨.NetworkError, ""⟩])).1 (by decide +kernel)
  rw [Bool.and_eq_true, List.contains_iff_mem, List.any_eq_true] at hfacts
  obtain ⟨hlogs, r, hr, hrow⟩ := hfacts
  obtain ⟨hid, hbatch⟩ : r.id = 1 ∧ r.batchId = some 7 := by simpa using hrow
  obtain ⟨b, hb, -, -, hproofs⟩ :=
    (anchored_batches .everyOther hs (run_nil _ s) (run_nil _ s)).2.2
      100 7 _ 2 1000 hlogs
  have hb7 : b = 7 := batchIdToUint_inj hb
  obtain ⟨proof, hproof, hverify⟩ := hproofs r hr (hbatch.trans (by rw [hb7]))
  exact ⟨s, hs, r, hr, hid, proof, _, hlogs, hproof, hverify⟩

-- ======================================================= served roots

/-- A root is served for exactly the batched receipts, so what is served
is anchored exactly when the receipt has no batch yet or its batch has
an event. The row is read at `s`, its batch's leaves at `s'`. -/
theorem proofFor_anchored_iff (K : Keccak) {acts acts' : List Action}
    {s s' : State} (hrun : run (step K) init acts = some s)
    (hrun' : run (step K) s acts' = some s') (id : Uuid) :
    (∀ proof root, proofFor K s.table s'.table id = .ok (proof, some root) →
        ∃ r ∈ s.table, r.id = id ∧ ∃ b, r.batchId = some b
          ∧ ∃ addr rootBytes count ts, hex0x rootBytes = root
            ∧ (addr, Event.batchAnchored (batchIdToUint b) rootBytes count ts)
                ∈ s'.chain.logs)
      ↔ ∀ r ∈ s.table, r.id = id → ∀ b, r.batchId = some b →
          ∃ addr rootBytes count ts,
            (addr, Event.batchAnchored (batchIdToUint b) rootBytes count ts)
              ∈ s'.chain.logs := by
  have hs := inv_run (inv_init K) hrun
  have hs' := inv_run hs hrun'
  constructor
  · intro hserved r hr hid b hb
    obtain ⟨proof, root, -, hproof, -⟩ :=
      proofFor_batched K hs.db.ids hr hb (leaf_mem_run hs.db hrun' hr hb)
    rw [hid] at hproof
    obtain ⟨r', hr', hid', b', hb', addr, rootBytes, count, ts, -, he⟩ :=
      hserved (some proof) root hproof
    have hrr : r' = r := eq_of_id_eq hs.db.ids hr' hr (hid'.trans hid.symm)
    rw [hrr, hb] at hb'
    cases hb'
    exact ⟨addr, rootBytes, count, ts, he⟩
  · intro hevent proof root hproof
    obtain ⟨r, hr, hid, b, hb, -, hroot⟩ := proofFor_root K hproof
    obtain ⟨addr, rootBytes, count, ts, he⟩ := hevent r hr hid b hb
    obtain ⟨b', hid', -, hroot', -⟩ :=
      hs'.chain.anchored addr _ rootBytes count ts he
    rw [batchIdToUint_inj hid', hroot] at hroot'
    injection hroot' with heq
    exact ⟨r, hr, hid, b, hb, addr, rootBytes, count, ts, heq.symm, he⟩

/-- A receipt batched and not anchored: a root is served, and no event
exists at all. -/
theorem proofFor_before_anchor :
    ∃ s proof root, run (step .everyOther) init
        [.insert 1 5 (.ofDigit 10), .callCreate 0 1, .count 0, .update 0 7,
          .commit 0] = some s
      ∧ proofFor .everyOther s.table s.table 1 = .ok (some proof, some root)
      ∧ s.chain.logs = [] := by
  obtain ⟨s, hs, hfacts⟩ := (Option.any_eq_true
    (fun s => s.chain.logs.isEmpty
      && s.table.any fun r => r.id = 1 && r.batchId = some 7)
    (run (step .everyOther) init
      [.insert 1 5 (.ofDigit 10), .callCreate 0 1, .count 0, .update 0 7,
        .commit 0])).1 (by decide +kernel)
  rw [Bool.and_eq_true, List.isEmpty_iff, List.any_eq_true] at hfacts
  obtain ⟨hlogs, r, hr, hrow⟩ := hfacts
  obtain ⟨hid, hbatch⟩ : r.id = 1 ∧ r.batchId = some 7 := by simpa using hrow
  have hdb := (inv_run (inv_init .everyOther) hs).db
  obtain ⟨proof, root, -, hproof, -⟩ :=
    proofFor_batched .everyOther hdb.ids hr hbatch
      (mem_batchLeaves.2 ⟨r, hr, hbatch, rfl⟩)
  rw [hid] at hproof
  exact ⟨s, proof, root, hs, hproof, hlogs⟩

/-- The same receipt once its batch is anchored. -/
theorem proofFor_anchored_after :
    ∃ s, run (step .everyOther) init
        [.insert 1 5 (.ofDigit 10), .callCreate 0 1, .count 0, .update 0 7,
          .commit 0, .deploy 100 9, .callSubmit 0 7 9 100, .readLeaves 0,
          .send 0 [1], .mine [1] 1000] = some s
      ∧ ∀ proof root,
          proofFor .everyOther s.table s.table 1 = .ok (proof, some root) →
          ∃ r ∈ s.table, r.id = 1 ∧ ∃ b, r.batchId = some b
            ∧ ∃ addr rootBytes count ts, hex0x rootBytes = root
              ∧ (addr, Event.batchAnchored (batchIdToUint b) rootBytes count ts)
                  ∈ s.chain.logs := by
  obtain ⟨s, hs, hfacts⟩ := (Option.any_eq_true
    (fun s => s.chain.logs.contains
        (100, Event.batchAnchored 7 (List.replicate 32 170) 1 1000)
      && s.table.all fun r => r.batchId = some 7)
    (run (step .everyOther) init
      [.insert 1 5 (.ofDigit 10), .callCreate 0 1, .count 0, .update 0 7,
        .commit 0, .deploy 100 9, .callSubmit 0 7 9 100, .readLeaves 0,
        .send 0 [1], .mine [1] 1000])).1 (by decide +kernel)
  rw [Bool.and_eq_true, List.contains_iff_mem, List.all_eq_true] at hfacts
  refine ⟨s, hs, (proofFor_anchored_iff .everyOther hs (run_nil _ s) 1).2 ?_⟩
  intro r hr _ b hb
  have hb7 : some b = some 7 := hb.symm.trans (of_decide_eq_true (hfacts.2 r hr))
  cases hb7
  exact ⟨100, _, 1, 1000, hfacts.1⟩

end Proofstand.Anchor
