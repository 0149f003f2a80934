/-
What one more pipeline run recovers: nothing a run before it dropped.

`create_batch` selects receipts without a batch, so a receipt whose batch
was committed is only ever anchored by the run that committed it. While
that run is on its way its batch is in flight (`State.flight`); a step
that takes a batch with receipts out of flight without recording it
strands them (`Stranded`), and nothing afterwards touches them again.
Conversely, if every step finishes what it ends (`finishes`), a batched
receipt is anchored or in flight (`Covered`), and a last undisturbed run
is left with exactly the receipts `create_batch` selects.

# One step

`FlightStep` is what a step of the pipeline does to flights and rows, said
once: it keeps them, takes a fresh batch into flight, lands one, drops one,
or concerns no flight. The invariants are proved from it.

# Two ends of one equivalence

`batched_anchored_iff` needs both directions over whole histories. If
every step finishes what it ends, `Covered` is kept step by step. If some
step does not, the receipts of that batch are stranded by it, and
`stranded_step` carries that to the end. The same two facts decide what a
later run can do: it selects receipts without a batch only, and these are
all it anchors.

# The last run

`batch_table` and `submit_table` follow an undisturbed run through its
statements; `count_cases` is where it may return early, and what it would
leave behind then is fewer receipts than `min_size`, none of them in a
batch.
-/
import Proofstand.Anchor.Pipeline
import Proofstand.Anchor.Proofs.Anchoring

namespace Proofstand.Anchor

open Transition

-- =============================================================== one step

/-- A step of the pipeline is one of the system. -/
theorem step_of_pipelineStep {K : Keccak} {s s' : State} {a : Action}
    (h : pipelineStep K s a = some s') :
    pipelined s a = true ∧ step K s a = some s' := by
  unfold pipelineStep at h
  split at h
  case isTrue hp => exact ⟨hp, h⟩
  case isFalse => cases h

/-- What a pipeline step does to the batches in flight and to the rows
behind them. -/
inductive FlightStep (s : State) (a : Action) (s' : State) : Prop
  | stay (hflight : ∀ c, s'.flight c = s.flight c)
      (hold : ∀ r ∈ s.table, r ∈ s'.table)
      (hnew : ∀ r ∈ s'.table, r ∈ s.table
        ∨ (r.batchId = none ∧ r.anchoredTx = none))
      (hfin : finishes s a = true)
  | drop (c : ClientId) (b : Uuid) (hat : s.flight c = some b)
      (hflight : ∀ c', s'.flight c' = if c' = c then none else s.flight c')
      (htable : s'.table = s.table)
      (hfin : finishes s a = (batchRows s.table b).isEmpty)
  | take (c : ClientId) (b : Uuid) (m : Int) (hpc : s.clients c = .updated m b)
      (hflight : ∀ c', s'.flight c' = if c' = c then some b else s.flight c')
      (htable : s'.table = assignBatch s.table (fun id => s.locks id = some c) b)
      (hsettled : Settled s' b) (hfin : finishes s a = true)
  | close (c : ClientId) (b : Uuid) (tx : String) (hat : s.flight c = some b)
      (hflight : ∀ c', s'.flight c' = if c' = c then none else s.flight c')
      (htable : s'.table = setAnchored s.table b tx)
      (hfin : finishes s a = true)

theorem flight_of_pc {s : State} {c : ClientId} {pc : Pc}
    (h : s.clients c = pc) : s.flight c = pc.flight := by
  rw [State.flight, h]

theorem flight_of_move {s s' : State} {c : ClientId} (pc : Pc)
    (hclients : s'.clients = s.move c pc) (c' : ClientId) :
    s'.flight c' = if c' = c then pc.flight else s.flight c' := by
  rw [State.flight, hclients]
  by_cases h : c' = c
  · rw [h, move_self, if_pos rfl]
  · rw [move_of_ne s pc h, if_neg h]
    rfl

/-- A client whose batch in flight, if any, stays its own. -/
theorem flightStep_keep {s s' : State} {a : Action} {c : ClientId} {pc : Pc}
    (hclients : s'.clients = s.move c pc) (hpc : pc.flight = s.flight c)
    (htable : s'.table = s.table) (hfin : finishes s a = true) :
    FlightStep s a s' := by
  refine .stay (fun c' => ?_) (by rw [htable]; exact fun _ h => h)
    (by rw [htable]; exact fun _ h => Or.inl h) hfin
  rw [flight_of_move pc hclients]
  split
  case isTrue h => rw [hpc, h]
  case isFalse => rfl

/-- A client that leaves its call, with whatever it had in flight. -/
theorem flightStep_leave {s s' : State} {a : Action} {c : ClientId} {pc : Pc}
    (hclients : s'.clients = s.move c pc) (hpc : pc.flight = none)
    (htable : s'.table = s.table)
    (hfin : finishes s a
      = (s.flight c).all fun b => (batchRows s.table b).isEmpty) :
    FlightStep s a s' := by
  cases hat : s.flight c with
  | none =>
      rw [hat] at hfin
      exact flightStep_keep hclients (hpc.trans hat.symm) htable hfin
  | some b =>
      rw [hat] at hfin
      refine .drop c b hat (fun c' => ?_) htable hfin
      rw [flight_of_move pc hclients, hpc]

/-- What happens on the chain alone leaves the flights as they are. -/
theorem flightStep_chain (s : State) {a : Action} (chain : Chain)
    (hfin : finishes s a = true) :
    FlightStep s a { s with chain := chain } :=
  .stay (fun _ => rfl) (fun _ h => h) (fun _ h => Or.inl h) hfin

/-- `submit_batch` cannot raise before it sends, but on an empty batch. -/
theorem buildCall_error {K : Keccak} {t : Table} {bid : Uuid}
    {sender anchor : Address} {exc : Exc}
    (h : buildCall K bid sender anchor (batchLeaves t bid) = .error exc) :
    batchRows t bid = [] := by
  by_contra hne
  have hleaves : batchLeaves t bid ≠ [] := by
    intro hnil
    rw [← List.length_eq_zero_iff, batchLeaves_length] at hnil
    exact hne (List.length_eq_zero_iff.1 hnil)
  obtain ⟨level, hlevel, -⟩ := level_of_batch t bid
  obtain ⟨top, htop⟩ := exists_top (byteNodes K) hleaves hlevel
  have hroot : merkleRoot (byteNodes K) (batchLeaves t bid)
      = .ok (hex0x top) := merkleRoot_eq (byteNodes K) hleaves hlevel htop
  rw [buildCall, if_neg (by simpa using hleaves), hroot] at h
  change (do let rootBytes ← fromhex ((hex0x top).toList.drop 2)
             pure (⟨bid, sender, anchor, hex0x top, rootBytes,
               (batchLeaves t bid).length⟩ : Job) : Py Job) = _ at h
  rw [fromhex_hex0x] at h
  cases h

theorem step_flight {K : Keccak} {s s' : State} {a : Action} (hs : DbInv s)
    (h : pipelineStep K s a = some s') : FlightStep s a s' := by
  obtain ⟨hp, h⟩ := step_of_pipelineStep h
  cases step_effect h with
  | insert hid =>
      refine .stay (fun _ => rfl) (fun _ h => List.mem_append_left _ h) ?_ rfl
      intro r hr
      rcases List.mem_append.1 hr with hr | hr
      · exact Or.inl hr
      · rw [List.mem_singleton.1 hr]
        exact Or.inr ⟨rfl, rfl⟩
  | callCreate hrest => exact flightStep_leave rfl rfl rfl rfl
  | tooFew hpc hfew =>
      exact flightStep_keep rfl (flight_of_pc hpc).symm rfl rfl
  | counted hpc henough =>
      exact flightStep_keep rfl (flight_of_pc hpc).symm rfl rfl
  | update hpc hfresh hfree =>
      exact flightStep_keep rfl (flight_of_pc hpc).symm rfl rfl
  | @commit c m bid hpc =>
      exact .take c bid m hpc (flight_of_move (.created bid) rfl) rfl
        (settled_commit hs hpc rfl rfl) rfl
  | callSubmit hrest =>
      refine flightStep_keep rfl ?_ rfl rfl
      rw [pipelined] at hp
      split at hp
      case h_2 => cases hp
      case h_1 b hpc =>
        rw [flight_of_pc hpc, of_decide_eq_true hp]
        rfl
  | built hpc hbuild =>
      refine flightStep_keep rfl ?_ rfl rfl
      rw [flight_of_pc hpc]
      exact congrArg some (buildCall_ok hbuild).2.1
  | unbuilt hpc hbuild =>
      refine flightStep_leave rfl rfl rfl ?_
      rw [flight_of_pc hpc, Pc.flight, Option.all_some, buildCall_error hbuild]
      rfl
  | send hpc hsend =>
      exact flightStep_keep rfl (flight_of_pc hpc).symm rfl rfl
  | confirmed hpc hrcpt hstatus =>
      refine flightStep_keep rfl (flight_of_pc hpc).symm rfl ?_
      rw [finishes, hpc]
      simp [hrcpt, hstatus]
  | reverted hpc hrcpt hstatus =>
      refine flightStep_leave rfl rfl rfl ?_
      rw [finishes, hpc, flight_of_pc hpc]
      simp [hrcpt, hstatus, Pc.flight]
  | @record c job hash block out hpc =>
      exact .close c job.bid (txText hash) (flight_of_pc hpc)
        (flight_of_move (.submitted _) rfl) rfl rfl
  | crash hbusy => exact flightStep_leave rfl rfl rfl rfl
  | deploy hdeploy => exact flightStep_chain s _ rfl
  | setWriter hset => exact flightStep_chain s _ rfl
  | mine hmine => exact flightStep_chain s _ rfl

-- ============================================================ invariants

/-- Receipts without a batch are not anchored, nor are those in flight;
a batch is in flight with one client only, and settled. -/
structure FlightInv (s : State) : Prop where
  unbatched : ∀ r ∈ s.table, r.batchId = none → r.anchoredTx = none
  flying : ∀ c b, s.flight c = some b → ∀ r ∈ s.table, r.batchId = some b →
    r.anchoredTx = none
  inj : ∀ c c' b, s.flight c = some b → s.flight c' = some b → c = c'
  settled : ∀ c b, s.flight c = some b → Settled s b

theorem flightInv_init : FlightInv init where
  unbatched := fun _ h => by cases h
  flying := fun _ _ h => by cases h
  inj := fun _ _ _ h => by cases h
  settled := fun _ _ h => by cases h

/-- After a client lost its flight the others still have theirs. -/
theorem flight_of_dropped {s s' : State} {c c' : ClientId} {b : Uuid}
    (hflight : ∀ c', s'.flight c' = if c' = c then none else s.flight c')
    (h : s'.flight c' = some b) : c' ≠ c ∧ s.flight c' = some b := by
  rw [hflight] at h
  split at h
  case isTrue => cases h
  case isFalse hne => exact ⟨hne, h⟩

/-- A client without its flight leaves what holds of the others. -/
theorem flightInv_dropped {s s' : State} {c : ClientId} (hf : FlightInv s)
    (hst : Stable s s')
    (hflight : ∀ c', s'.flight c' = if c' = c then none else s.flight c')
    (hunbatched : ∀ r ∈ s'.table, r.batchId = none → r.anchoredTx = none)
    (hflying : ∀ c' b, c' ≠ c → s.flight c' = some b → ∀ r ∈ s'.table,
      r.batchId = some b → r.anchoredTx = none) : FlightInv s' where
  unbatched := hunbatched
  flying := by
    intro c' b h
    obtain ⟨hne, h⟩ := flight_of_dropped hflight h
    exact hflying c' b hne h
  inj := by
    intro c₁ c₂ b h₁ h₂
    exact hf.inj c₁ c₂ b (flight_of_dropped hflight h₁).2
      (flight_of_dropped hflight h₂).2
  settled := by
    intro c' b h
    exact (hst.settled b (hf.settled c' b (flight_of_dropped hflight h).2)).1

/-- A row of an assigned table: one that was unbatched, or an old one. -/
theorem mem_assigned {s s' : State} {c : ClientId} {b : Uuid} (hs : DbInv s)
    (htable : s'.table = assignBatch s.table (fun id => s.locks id = some c) b)
    {r : Receipt} (hr : r ∈ s'.table) :
    ∃ r₀ ∈ s.table, r.anchoredTx = r₀.anchoredTx
      ∧ ((r₀.batchId = none ∧ r.batchId = some b) ∨ r = r₀) := by
  rw [htable] at hr
  rcases mem_assignBatch.1 hr with ⟨r₀, hr₀, ⟨hsel, rfl⟩ | ⟨-, rfl⟩⟩
  · exact ⟨r₀, hr₀, rfl, Or.inl ⟨held_unbatched hs r₀ hr₀ hsel, rfl⟩⟩
  · exact ⟨r, hr₀, rfl, Or.inr rfl⟩

/-- After a client took flight, another has what it had. -/
theorem flight_of_taken {s s' : State} {c c' : ClientId} {b b' : Uuid}
    (hflight : ∀ c', s'.flight c' = if c' = c then some b else s.flight c')
    (h : s'.flight c' = some b') :
    c' = c ∧ b' = b ∨ s.flight c' = some b' := by
  rw [hflight] at h
  split at h
  case isTrue hc =>
    cases h
    exact Or.inl ⟨hc, rfl⟩
  case isFalse => exact Or.inr h

/-- A batch taken into flight is a new one, so no other client has it. -/
theorem flightInv_taken {s s' : State} {c : ClientId} {b : Uuid} {m : Int}
    (hs : DbInv s) (hf : FlightInv s) (hst : Stable s s')
    (hpc : s.clients c = .updated m b)
    (hflight : ∀ c', s'.flight c' = if c' = c then some b else s.flight c')
    (htable : s'.table = assignBatch s.table (fun id => s.locks id = some c) b)
    (hsettled : Settled s' b) : FlightInv s' := by
  have hopen : ∀ c', s.flight c' ≠ some b := fun c' hat =>
    (hf.settled c' b hat).2 c m hpc
  constructor
  case unbatched =>
    intro r hr hb
    obtain ⟨r₀, hr₀, -, ⟨-, hb'⟩ | rfl⟩ := mem_assigned hs htable hr
    · rw [hb'] at hb
      cases hb
    · exact hf.unbatched r hr₀ hb
  case flying =>
    intro c' b' hat r hr hb
    obtain ⟨r₀, hr₀, htx, ⟨hnone, -⟩ | rfl⟩ := mem_assigned hs htable hr
    · rw [htx]
      exact hf.unbatched r₀ hr₀ hnone
    · rcases flight_of_taken hflight hat with ⟨-, rfl⟩ | hat
      · exact absurd hb (hs.open_fresh c m b' hpc r hr₀)
      · exact hf.flying c' b' hat r hr₀ hb
  case inj =>
    intro c₁ c₂ b' h₁ h₂
    rcases flight_of_taken hflight h₁ with ⟨hc₁, hb₁⟩ | h₁
    · rcases flight_of_taken hflight h₂ with ⟨hc₂, -⟩ | h₂
      · rw [hc₁, hc₂]
      · exact absurd (hb₁ ▸ h₂) (hopen c₂)
    · rcases flight_of_taken hflight h₂ with ⟨-, hb₂⟩ | h₂
      · exact absurd (hb₂ ▸ h₁) (hopen c₁)
      · exact hf.inj c₁ c₂ b' h₁ h₂
  case settled =>
    intro c' b' h
    rcases flight_of_taken hflight h with ⟨-, rfl⟩ | h
    · exact hsettled
    · exact (hst.settled b' (hf.settled c' b' h)).1

/-- Every step keeps the invariant. -/
theorem flightInv_step {s s' : State} {a : Action} (hs : DbInv s)
    (hf : FlightInv s) (hst : Stable s s') (h : FlightStep s a s') :
    FlightInv s' := by
  cases h with
  | stay hflight hold hnew _ =>
      constructor
      case unbatched =>
        intro r hr hb
        rcases hnew r hr with hr | hr
        · exact hf.unbatched r hr hb
        · exact hr.2
      case flying =>
        intro c b hat r hr hb
        rw [hflight] at hat
        rcases hnew r hr with hr | hr
        · exact hf.flying c b hat r hr hb
        · exact hr.2
      case inj =>
        intro c c' b h h'
        rw [hflight] at h h'
        exact hf.inj c c' b h h'
      case settled =>
        intro c b h
        rw [hflight] at h
        exact (hst.settled b (hf.settled c b h)).1
  | drop c b hat hflight htable _ =>
      refine flightInv_dropped hf hst hflight ?_ ?_
      · rw [htable]
        exact hf.unbatched
      · intro c' b' _ h
        rw [htable]
        exact hf.flying c' b' h
  | take c b m hpc hflight htable hsettled _ =>
      exact flightInv_taken hs hf hst hpc hflight htable hsettled
  | close c b tx hat hflight htable _ =>
      have hrow : ∀ r ∈ s'.table, r.batchId ≠ some b → r ∈ s.table := by
        intro r hr hne
        rw [htable] at hr
        rcases mem_setAnchored.1 hr with ⟨r₀, hr₀, ⟨hb, rfl⟩ | ⟨-, rfl⟩⟩
        · exact absurd hb hne
        · exact hr₀
      refine flightInv_dropped hf hst hflight ?_ ?_
      · intro r hr hb
        have hother : r.batchId ≠ some b := by
          rw [hb]
          exact fun h => by cases h
        exact hf.unbatched r (hrow r hr hother) hb
      · intro c' b' hne h r hr hb
        refine hf.flying c' b' h r (hrow r hr ?_) hb
        intro hb'
        rw [hb] at hb'
        cases hb'
        exact hne (hf.inj c' c b h hat)

-- ================================================ stranded and covered

/-- A receipt of a batch that nobody is on the way to anchor. -/
def Stranded (s : State) : Prop :=
  ∃ r ∈ s.table, ∃ b, r.batchId = some b ∧ r.anchoredTx = none
    ∧ ∀ c, s.flight c ≠ some b

/-- Every batched receipt is anchored, or its batch is in flight. -/
def Covered (s : State) : Prop :=
  ∀ r ∈ s.table, ∀ b, r.batchId = some b →
    r.anchoredTx ≠ none ∨ ∃ c, s.flight c = some b

/-- Receipts that are stranded stay so. -/
theorem stranded_step {s s' : State} {a : Action} (hs : DbInv s)
    (hstr : Stranded s) (h : FlightStep s a s') : Stranded s' := by
  obtain ⟨r, hr, b, hb, htx, hnone⟩ := hstr
  cases h with
  | stay hflight hold _ _ =>
      exact ⟨r, hold r hr, b, hb, htx, fun c => by rw [hflight]; exact hnone c⟩
  | drop c b' _ hflight htable _ =>
      refine ⟨r, by rw [htable]; exact hr, b, hb, htx, fun c' hat => ?_⟩
      exact hnone c' (flight_of_dropped hflight hat).2
  | take c b' m hpc hflight htable _ _ =>
      refine ⟨r, ?_, b, hb, htx, fun c' hat => ?_⟩
      · rw [htable]
        refine mem_assignBatch.2 ⟨r, hr, Or.inr ⟨decide_eq_false ?_, rfl⟩⟩
        intro hlock
        rw [hs.lock_unbatched r.id c hlock r hr rfl] at hb
        cases hb
      · rw [hflight] at hat
        split at hat
        case isTrue =>
          cases hat
          exact hs.open_fresh c m b hpc r hr hb
        case isFalse => exact hnone c' hat
  | close c b' tx hat hflight htable _ =>
      refine ⟨r, ?_, b, hb, htx, fun c' hat' => ?_⟩
      · rw [htable]
        refine mem_setAnchored.2 ⟨r, hr, Or.inr ⟨?_, rfl⟩⟩
        intro hb'
        rw [hb] at hb'
        cases hb'
        exact hnone c hat
      · exact hnone c' (flight_of_dropped hflight hat').2

/-- A run ended with receipts in flight strands them. -/
theorem stranded_of_unfinished {s s' : State} {a : Action} (hf : FlightInv s)
    (hfin : finishes s a = false) (h : FlightStep s a s') : Stranded s' := by
  cases h with
  | stay _ _ _ hfin' => rw [hfin] at hfin'; cases hfin'
  | take _ _ _ _ _ _ _ hfin' => rw [hfin] at hfin'; cases hfin'
  | close _ _ _ _ _ _ hfin' => rw [hfin] at hfin'; cases hfin'
  | drop c b hat hflight htable hfin' =>
      rw [hfin] at hfin'
      obtain ⟨r, hr⟩ : ∃ r, r ∈ batchRows s.table b := by
        refine List.exists_mem_of_ne_nil _ fun hnil => ?_
        rw [hnil] at hfin'
        cases hfin'
      obtain ⟨hr, hb⟩ := mem_batchRows.1 hr
      refine ⟨r, by rw [htable]; exact hr, b, hb, hf.flying c b hat r hr hb, ?_⟩
      intro c' hat'
      obtain ⟨hne, hat'⟩ := flight_of_dropped hflight hat'
      exact hne (hf.inj c' c b hat' hat)

/-- A step that finishes what it ends leaves no receipt behind. -/
theorem covered_step {s s' : State} {a : Action}
    (hfin : finishes s a = true) (hc : Covered s) (h : FlightStep s a s') :
    Covered s' := by
  intro r hr b hb
  cases h with
  | stay hflight _ hnew _ =>
      rcases hnew r hr with hr | ⟨hnone, -⟩
      · rcases hc r hr b hb with htx | ⟨c, hat⟩
        · exact Or.inl htx
        · exact Or.inr ⟨c, by rw [hflight]; exact hat⟩
      · rw [hnone] at hb
        cases hb
  | drop c b' hat hflight htable hfin' =>
      rw [htable] at hr
      rcases hc r hr b hb with htx | ⟨c', hat'⟩
      · exact Or.inl htx
      · -- the dropped batch has no receipts, so it is not this one
        refine Or.inr ⟨c', ?_⟩
        have hne : c' ≠ c := by
          intro h
          rw [h, hat] at hat'
          cases hat'
          rw [hfin, eq_comm, List.isEmpty_iff] at hfin'
          exact List.ne_nil_of_mem (mem_batchRows.2 ⟨hr, hb⟩) hfin'
        rw [hflight, if_neg hne]
        exact hat'
  | take c b' m hpc hflight htable _ _ =>
      rw [htable] at hr
      rcases mem_assignBatch.1 hr with ⟨r₀, hr₀, ⟨-, rfl⟩ | ⟨-, rfl⟩⟩
      · cases hb
        exact Or.inr ⟨c, by rw [hflight, if_pos rfl]⟩
      · rcases hc r hr₀ b hb with htx | ⟨c', hat'⟩
        · exact Or.inl htx
        · refine Or.inr ⟨c', ?_⟩
          have hne : c' ≠ c := by
            intro h
            rw [h, State.flight, hpc] at hat'
            cases hat'
          rw [hflight, if_neg hne]
          exact hat'
  | close c b' tx hat hflight htable _ =>
      rw [htable] at hr
      rcases mem_setAnchored.1 hr with ⟨r₀, hr₀, ⟨-, rfl⟩ | ⟨hne, rfl⟩⟩
      · exact Or.inl (fun h => by cases h)
      · rcases hc r hr₀ b hb with htx | ⟨c', hat'⟩
        · exact Or.inl htx
        · refine Or.inr ⟨c', ?_⟩
          have hcc : c' ≠ c := by
            intro h
            rw [h, hat] at hat'
            cases hat'
            exact hne hb
          rw [hflight, if_neg hcc]
          exact hat'

-- ================================================================ the runs

/-- What holds of every state a history of pipeline runs reaches. -/
structure PipeInv (s : State) : Prop where
  db : DbInv s
  flight : FlightInv s

/-- Both invariants are kept by a step, -/
theorem pipeInv_step {K : Keccak} {s s' : State} {a : Action}
    (hs : PipeInv s) (h : pipelineStep K s a = some s') : PipeInv s' := by
  have hdb := step_db (step_of_pipelineStep h).2
  exact ⟨dbInv_step hs.db hdb, flightInv_step hs.db hs.flight
    (stable_step hs.db hdb) (step_flight hs.db h)⟩

/-- and hold at the start. -/
theorem pipeInv_init : PipeInv init := ⟨dbInv_init, flightInv_init⟩

/-- Every batched receipt is anchored exactly when no run of the history
was ended, or is left, with receipts in flight. -/
theorem batched_anchored_iff (K : Keccak) {acts : List Action} {s : State}
    (hrun : run (pipelineStep K) init acts = some s) :
    (∀ r ∈ s.table, r.batchId ≠ none → r.anchoredTx ≠ none)
      ↔ guarded (pipelineStep K) finishes init acts = true
        ∧ ∀ c b, s.flight c = some b → batchRows s.table b = [] := by
  have hs := run_invariant pipeInv_step pipeInv_init hrun
  constructor
  · intro hall
    refine ⟨?_, fun c b hat => ?_⟩
    · rcases guarded_or_of_run (P := Stranded) pipeInv_step
        (fun hs hfin h =>
          stranded_of_unfinished hs.flight hfin (step_flight hs.db h))
        (fun hs hstr h => stranded_step hs.db hstr (step_flight hs.db h))
        pipeInv_init hrun with hguard | ⟨r, hr, b, hb, htx, -⟩
      · exact hguard
      · exact absurd htx (hall r hr (by rw [hb]; exact fun h => by cases h))
    · by_contra hne
      obtain ⟨r, hr⟩ := List.exists_mem_of_ne_nil _ hne
      obtain ⟨hr, hb⟩ := mem_batchRows.1 hr
      exact hall r hr (by rw [hb]; exact fun h => by cases h)
        (hs.flight.flying c b hat r hr hb)
  · intro h
    obtain ⟨hguard, hempty⟩ := h
    intro r hr hb
    have hcovered : Covered s :=
      run_invariant_of_guard pipeInv_step
        (fun hs hfin hc h => covered_step hfin hc (step_flight hs.db h))
        pipeInv_init (fun _ h => by cases h) hguard hrun
    obtain ⟨b, hb⟩ := Option.ne_none_iff_exists'.1 hb
    rcases hcovered r hr b hb with htx | ⟨c, hat⟩
    · exact htx
    · have hmem := mem_batchRows.2 ⟨hr, hb⟩
      rw [hempty c b hat] at hmem
      cases hmem

-- ============================================================ the last run

/-- The count of a run finds what the table has, and decides whether there is
a batch to make. -/
theorem count_cases {K : Keccak} {s s₁ : State} {c : ClientId} {m : Int}
    (h : run (pipelineStep K) s [.callCreate c m, .count c] = some s₁) :
    s₁.table = s.table ∧ s₁.locks = s.locks
      ∧ s₁.clients c = if (countUnbatched s.table : Int) < m then .nothing
          else .counted m (countUnbatched s.table) s.commits := by
  obtain ⟨t, ht, h⟩ := (run_cons_eq_some _).1 h
  obtain ⟨t', ht', h⟩ := (run_cons_eq_some _).1 h
  cases h
  cases step_effect (step_of_pipelineStep ht).2 with
  | callCreate hrest =>
      have hpc : (s.setPc c (.create m)).clients c = .create m :=
        move_self s c _
      cases step_effect (step_of_pipelineStep ht').2 with
      | tooFew hcreate hfew =>
          cases hpc.symm.trans hcreate
          exact ⟨rfl, rfl, (move_self _ c _).trans (if_pos hfew).symm⟩
      | counted hcreate henough =>
          cases hpc.symm.trans hcreate
          exact ⟨rfl, rfl,
            (move_self _ c _).trans (if_neg (not_lt.2 henough)).symm⟩

/-- `submit_batch`, from the call to the return: it gets past none of its
steps without the one before, and writes `anchored_tx` at the end. -/
theorem submit_table {K : Keccak} {s s' : State} {c : ClientId} {bid : Uuid}
    {sender anchor : Address} {hash : TxHash} {ts : Nat}
    (h : run (pipelineStep K) s
      [.callSubmit c bid sender anchor, .readLeaves c, .send c hash,
        .mine hash ts, .await c, .record c] = some s') :
    s'.table = setAnchored s.table bid (txText hash) := by
  obtain ⟨s₁, h₁, h⟩ := (run_cons_eq_some _).1 h
  obtain ⟨s₂, h₂, h⟩ := (run_cons_eq_some _).1 h
  obtain ⟨s₃, h₃, h⟩ := (run_cons_eq_some _).1 h
  obtain ⟨s₄, h₄, h⟩ := (run_cons_eq_some _).1 h
  obtain ⟨s₅, h₅, h⟩ := (run_cons_eq_some _).1 h
  obtain ⟨s₆, h₆, h⟩ := (run_cons_eq_some _).1 h
  cases h
  have h₁ := (step_of_pipelineStep h₁).2
  have h₂ := (step_of_pipelineStep h₂).2
  have h₃ := (step_of_pipelineStep h₃).2
  have h₄ := (step_of_pipelineStep h₄).2
  have h₅ := (step_of_pipelineStep h₅).2
  have h₆ := (step_of_pipelineStep h₆).2
  -- callSubmit
  obtain ⟨hpc₁, htable₁⟩ :
      s₁.clients c = .submit bid sender anchor ∧ s₁.table = s.table := by
    cases step_effect h₁ with
    | callSubmit hrest => exact ⟨move_self s c _, rfl⟩
  -- readLeaves: a raise would leave nothing to send
  obtain ⟨job, hbid, hpc₂, htable₂⟩ : ∃ job, job.bid = bid
      ∧ s₂.clients c = .rooted job ∧ s₂.table = s₁.table := by
    cases step_effect h₂ with
    | built hpc hbuild =>
        cases hpc₁.symm.trans hpc
        exact ⟨_, (buildCall_ok hbuild).2.1, move_self s₁ c _, rfl⟩
    | unbuilt hpc hbuild =>
        cases step_effect h₃ with
        | send hrooted hsend => cases (move_self s₁ c _).symm.trans hrooted
  -- send
  obtain ⟨hpc₃, htable₃⟩ : s₃.clients c = .sent job hash
      ∧ s₃.table = s₂.table := by
    cases step_effect h₃ with
    | send hpc hsend =>
        cases hpc₂.symm.trans hpc
        exact ⟨move_self s₂ c _, rfl⟩
  -- mine
  obtain ⟨hpc₄, htable₄⟩ : s₄.clients c = .sent job hash
      ∧ s₄.table = s₃.table := by
    cases step_effect h₄ with
    | mine hmine => exact ⟨hpc₃, rfl⟩
  -- await: on a revert there would be nothing to record
  obtain ⟨block, hpc₅, htable₅⟩ : ∃ block,
      s₅.clients c = .confirmed job hash block ∧ s₅.table = s₄.table := by
    cases step_effect h₅ with
    | confirmed hpc hrcpt hstatus =>
        cases hpc₄.symm.trans hpc
        exact ⟨_, move_self s₄ c _, rfl⟩
    | reverted hpc hrcpt hstatus =>
        cases step_effect h₆ with
        | record hconfirmed => cases (move_self s₄ c _).symm.trans hconfirmed
  -- record
  cases step_effect h₆ with
  | record hpc =>
      cases hpc₅.symm.trans hpc
      show setAnchored s₅.table job.bid (txText hash) = _
      rw [htable₅, htable₄, htable₃, htable₂, htable₁, hbid]

theorem setup_table {K : Keccak} {s s' : State} {tgt : Target}
    (h : run (pipelineStep K) s tgt.setup = some s') : s'.table = s.table := by
  unfold Target.setup at h
  split at h
  · cases h
    rfl
  · obtain ⟨t, ht, h⟩ := (run_cons_eq_some _).1 h
    cases h
    cases step_effect (step_of_pipelineStep ht).2 with
    | deploy hdeploy => rfl

/-- The rows the UPDATE of a client locks are those without a batch. -/
theorem locked_iff_unbatched {s : State} {c : ClientId} {m : Int}
    {n seen : Nat} (hs : DbInv s) (hpc : s.clients c = .counted m n seen)
    {r : Receipt} (hr : r ∈ s.table) :
    (if (unbatched s.table).any (·.id = r.id) then some c
      else s.locks r.id) = some c ↔ r.batchId = none := by
  constructor
  · intro hlock
    split at hlock
    case isTrue hany =>
      obtain ⟨r', hr', hid⟩ := List.any_eq_true.1 hany
      obtain ⟨hr', hnone⟩ := List.mem_filter.1 hr'
      rw [← eq_of_id_eq hs.ids hr' hr (of_decide_eq_true hid)]
      exact Option.isNone_iff_eq_none.1 hnone
    case isFalse =>
      obtain ⟨m', b, hpc'⟩ := hs.lock_open r.id c hlock
      rw [hpc] at hpc'
      cases hpc'
  · intro hnone
    refine if_pos (List.any_eq_true.2 ⟨r, ?_, by simp⟩)
    exact List.mem_filter.2 ⟨hr, Option.isNone_iff_eq_none.2 hnone⟩

/-- After the count: every receipt without a batch gets the fresh one,
and that one is anchored. -/
theorem batch_table {K : Keccak} {s s' : State} {c : ClientId} {m : Int}
    {n seen : Nat} {bid : Uuid} {tgt : Target} {hash : TxHash} {ts : Nat}
    (hpc : s.clients c = .counted m n seen) (hs : DbInv s)
    (h : run (pipelineStep K) s
      ([.update c bid, .commit c] ++ tgt.setup
        ++ [.callSubmit c bid tgt.sender tgt.anchor, .readLeaves c,
          .send c hash, .mine hash ts, .await c, .record c]) = some s') :
    bid ∉ s.drawn
      ∧ ∃ sel, (∀ r ∈ s.table, sel r.id = true ↔ r.batchId = none)
        ∧ s'.table
          = setAnchored (assignBatch s.table sel bid) bid (txText hash) := by
  rw [List.append_assoc, run_append] at h
  obtain ⟨s₂, hassign, h⟩ := Option.bind_eq_some_iff.1 h
  rw [run_append] at h
  obtain ⟨s₃, hsetup, hsubmit⟩ := Option.bind_eq_some_iff.1 h
  obtain ⟨s₁, h₁, hassign⟩ := (run_cons_eq_some _).1 hassign
  obtain ⟨t, h₂, hassign⟩ := (run_cons_eq_some _).1 hassign
  cases hassign
  have h₁ := (step_of_pipelineStep h₁).2
  have h₂ := (step_of_pipelineStep h₂).2
  rw [submit_table hsubmit, setup_table hsetup]
  cases step_effect h₁ with
  | update hcounted hfresh hfree =>
      cases hpc.symm.trans hcounted
      cases step_effect h₂ with
      | commit hupdated =>
          cases (move_self s c _).symm.trans hupdated
          refine ⟨hfresh, fun id =>
            decide ((if (unbatched s.table).any (·.id = id) then some c
              else s.locks id) = some c), fun r hr => ?_, rfl⟩
          exact decide_eq_true_iff.trans (locked_iff_unbatched hs hpc hr)

/-- After one undisturbed run everything is anchored exactly when the
history left nothing behind and the run found nothing to batch, or
enough. -/
theorem recovered_iff (K : Keccak) {acts : List Action} {s s' : State}
    (hrun : run (pipelineStep K) init acts = some s) {c : ClientId} {m : Int}
    {bid : Uuid} {tgt : Target} {hash : TxHash} {ts : Nat}
    (hlast : failureFree K s c m bid tgt hash ts = some s') :
    AllAnchored s'.table
      ↔ (guarded (pipelineStep K) finishes init acts = true
          ∧ ∀ c b, s.flight c = some b → batchRows s.table b = [])
        ∧ (countUnbatched s.table = 0 ∨ m ≤ countUnbatched s.table) := by
  have hs := run_invariant pipeInv_step pipeInv_init hrun
  rw [← batched_anchored_iff K hrun]
  obtain ⟨s₁, hcount, hlast⟩ := Option.bind_eq_some_iff.1 hlast
  have hs₁ := run_invariant pipeInv_step hs hcount
  obtain ⟨htable, -, hpc⟩ := count_cases hcount
  by_cases hfew : (countUnbatched s.table : Int) < m
  · -- nothing to batch
    rw [if_pos hfew] at hpc
    rw [hpc] at hlast
    cases hlast
    rw [htable]
    constructor
    · intro hall
      refine ⟨fun r hr _ => hall r hr, Or.inl ?_⟩
      rw [countUnbatched, List.length_eq_zero_iff, List.eq_nil_iff_forall_not_mem]
      intro r hr
      obtain ⟨hr, hnone⟩ := List.mem_filter.1 hr
      exact hall r hr
        (hs.flight.unbatched r hr (Option.isNone_iff_eq_none.1 hnone))
    · intro h
      obtain ⟨hbatched, hnum⟩ := h
      intro r hr
      refine hbatched r hr fun hnone => ?_
      have hmem : r ∈ unbatched s.table :=
        List.mem_filter.2 ⟨hr, Option.isNone_iff_eq_none.2 hnone⟩
      have hpos := List.length_pos_of_mem hmem
      rw [countUnbatched] at hfew hnum
      omega
  · rw [if_neg hfew] at hpc
    rw [hpc] at hlast
    obtain ⟨hfresh, sel, hsel, htable'⟩ := batch_table hpc hs₁.db hlast
    rw [htable] at hsel htable'
    rw [htable']
    constructor
    · intro hall
      refine ⟨fun r hr hb => hall r ?_, Or.inr (not_lt.1 hfew)⟩
      have hkept : r ∈ assignBatch s.table sel bid := by
        refine mem_assignBatch.2 ⟨r, hr, Or.inr ⟨?_, rfl⟩⟩
        exact Bool.eq_false_iff.2 fun h => hb ((hsel r hr).1 h)
      refine mem_setAnchored.2 ⟨r, hkept, Or.inr ⟨fun hbid => ?_, rfl⟩⟩
      exact hfresh (hs₁.db.drawn r (by rw [htable]; exact hr) bid hbid)
    · intro h
      obtain ⟨hbatched, -⟩ := h
      intro r hr
      rcases mem_setAnchored.1 hr with ⟨r₁, hr₁, ⟨-, rfl⟩ | ⟨hne, rfl⟩⟩
      · exact fun h => by cases h
      · rcases mem_assignBatch.1 hr₁ with ⟨r₀, hr₀, ⟨-, rfl⟩ | ⟨hnot, rfl⟩⟩
        · exact absurd rfl hne
        · refine hbatched r hr₀ fun hnone => ?_
          rw [(hsel r hr₀).2 hnone] at hnot
          cases hnot

/-- The RPC is unreachable after one `create_batch`: the next run finds
nothing to batch, and the receipt is never anchored. -/
theorem recovered_nothing_to_batch :
    ∃ s s', run (pipelineStep .everyOther) init
        [.insert 1 5 (.ofDigit 10), .callCreate 0 1, .count 0, .update 0 7,
          .commit 0] = some s
      ∧ failureFree .everyOther s 0 1 8 ⟨9, 100, false⟩ [1] 1000 = some s'
      ∧ ¬ AllAnchored s'.table := by
  obtain ⟨s', hs', hfacts⟩ := (Option.any_eq_true
    (fun s' => s'.table.any fun r => r.anchoredTx.isNone)
    ((run (pipelineStep .everyOther) init
      [.insert 1 5 (.ofDigit 10), .callCreate 0 1, .count 0, .update 0 7,
        .commit 0]).bind fun s =>
      failureFree .everyOther s 0 1 8 ⟨9, 100, false⟩ [1] 1000)).1
    (by decide +kernel)
  obtain ⟨s, hs, hlast⟩ := Option.bind_eq_some_iff.1 hs'
  refine ⟨s, s', hs, hlast, fun hall => ?_⟩
  obtain ⟨r, hr, hnone⟩ := List.any_eq_true.1 hfacts
  exact hall r hr (Option.isNone_iff_eq_none.1 hnone)

/-- One receipt, a run whose database connection breaks between the UPDATE
and the commit, and another receipt. -/
def rolledBack : List Action :=
  [.insert 1 5 (.ofDigit 10), .callCreate 1 1, .count 1, .update 1 6,
   .crash 1 ⟨.DatabaseError, "server closed the connection"⟩,
   .insert 2 6 (.ofDigit 11)]

/-- The broken run leaves no batch behind, so the next one, which deploys
and anchors, takes both receipts. -/
theorem recovered_first_run :
    ∃ s s', run (pipelineStep .everyOther) init rolledBack = some s
      ∧ failureFree .everyOther s 0 2 8 ⟨9, 100, false⟩ [1] 1000 = some s'
      ∧ AllAnchored s'.table := by
  obtain ⟨s', hs'⟩ := Option.isSome_iff_exists.1
    (show ((run (pipelineStep .everyOther) init rolledBack).bind fun s =>
        failureFree .everyOther s 0 2 8 ⟨9, 100, false⟩ [1] 1000).isSome
      = true by decide +kernel)
  obtain ⟨s, hs, hlast⟩ := Option.bind_eq_some_iff.1 hs'
  refine ⟨s, s', hs, hlast, (recovered_iff .everyOther hs hlast).2 ?_⟩
  have hreached : run (pipelineStep .everyOther) init rolledBack
      = some _ := rfl
  cases hs.symm.trans hreached
  refine ⟨⟨by decide +kernel, fun c b hat => ?_⟩, Or.inr (by decide)⟩
  by_cases hc : c = 1
  · cases hc
    cases hat
  · simp [State.flight, State.move, State.setPc, init, hc, Pc.flight] at hat

end Proofstand.Anchor
