/-
A status that says a hire is over says it with everything that goes with
it.

`_run` sets the status after the outcome and the receipt's id, and a
handler reads it before them, so a handler that has read `ok` or
`cancelled` finds both, and finds the receipt, which was committed before
either. `Chain` is what each assignment still to come keeps true of the
attributes, `Told` what a handler has read so far against what is there
now.

# Three layers

The stage of `_run` fixes what its attributes must be at each point
(`Stage`). The assignments to come are a list, and `Chain` says that the
attributes are sound now and after each of them in turn; so a handler may
read between any two. A handler's partial answer is compared with the
attributes of now, which may have moved on since it read: what it was told
can only have become older, never wrong (`told_later`).

# Which order is needed

A handler reads the status first. Had the source set the status before the
outcome, or had `snapshot` read the outcome before the status, the chain
would break at that assignment.
-/
import Proofstand.Orchestrator.Poll
import Proofstand.Orchestrator.Proofs.Platform

namespace Proofstand.Hires

open Anchor (Uuid)
open Harness (HireOutcome)
open Persist Queries Session Transition

variable {K S D P : Type} [Field K] [LinearOrder K]

-- ============================================================= the receipt

/-- A row with an outcome's numbers. -/
structure RowOf (r : ReceiptRow K) (o : HireOutcome K) : Prop where
  metric : r.metric = o.agentRun.metric
  unit : r.unit = o.agentRun.unit
  agentValue : r.agentValue = o.agentValue
  baselineValue : r.baselineValue = o.baselineValue
  delta : r.delta = o.delta
  leaf : r.merkleLeaf = o.merkleLeaf

/-- The same of what the API shows of it. -/
structure OutOf (out : ReceiptOut K) (o : HireOutcome K) : Prop where
  metric : out.metric = o.agentRun.metric
  unit : out.unit = o.agentRun.unit
  agentValue : out.agentValue = o.agentValue
  baselineValue : out.baselineValue = o.baselineValue
  delta : out.delta = o.delta
  leaf : out.merkleLeaf = o.merkleLeaf

/-- The receipt of a hire is in the tables, alone under its id, with its
agent run. -/
def Held (db : Db K) (hired : Hired K) : Prop :=
  ∃ r ∈ db.receipts, receiptIdOf hired = some r.id
    ∧ (∀ r' ∈ db.receipts, r'.id = r.id → r' = r)
    ∧ (∃ a ∈ db.runs, a.id = r.agentRunId) ∧ RowOf r hired.outcome

/-- A receipt that is held is the one that is shown. -/
theorem receiptById_of_held {db : Db K} {hired : Hired K} {id : Uuid}
    (h : Held db hired) (hid : receiptIdOf hired = some id) :
    ∃ out, receiptById db id = some out ∧ OutOf out hired.outcome := by
  obtain ⟨r, hr, hown, hunique, ⟨a, ha, hrun⟩, hrow⟩ := h
  rw [hown] at hid
  cases hid
  have hne : (joinAgentRun db).filter (fun row => row.1.id = r.id) ≠ [] := by
    apply List.ne_nil_of_mem (a := (r, a))
    refine List.mem_filter.2 ⟨?_, decide_eq_true rfl⟩
    exact List.mem_flatMap.2 ⟨r, hr, List.mem_map.2
      ⟨a, List.mem_filter.2 ⟨ha, decide_eq_true hrun⟩, rfl⟩⟩
  obtain ⟨row, rest, hrows⟩ := List.exists_cons_of_ne_nil hne
  have hmem : row ∈ (joinAgentRun db).filter fun row => row.1.id = r.id := by
    rw [hrows]
    exact List.mem_cons_self
  obtain ⟨hjoin, hrowid⟩ := List.mem_filter.1 hmem
  obtain ⟨r', hr', hpair⟩ := List.mem_flatMap.1 hjoin
  obtain ⟨a', -, rfl⟩ := List.mem_map.1 hpair
  obtain rfl := hunique r' hr' (of_decide_eq_true hrowid)
  refine ⟨receiptOut r' a', ?_, ?_⟩
  · rw [receiptById, hrows]
    rfl
  · exact ⟨hrow.metric, hrow.unit, hrow.agentValue, hrow.baselineValue,
      hrow.delta, hrow.leaf⟩

/-- What a hire does to the receipts, whatever the job. -/
def Records (job : Job K) : Prop :=
  ∀ db, ((∃ e, (job.runHire db).1 = .error e)
      ∧ (job.runHire db).2.receipts = db.receipts)
    ∨ ∃ hired, (job.runHire db).1 = .ok hired
      ∧ Held (job.runHire db).2 hired

omit [LinearOrder K] in
/-- The receipt `writePair` writes is held. -/
theorem held_of_writePair {sv : Server K} {d : Performed K}
    {db db' : Db K} {ids : Uuid × Uuid × Uuid}
    (h : writePair sv d db = .ok (ids, db')) :
    Held db' ⟨d.outcome, some ids⟩ := by
  obtain ⟨a, b, r, hruns, hreceipts, hids, -, -, hra, -, hmetric, hunit,
    hav, hbv, hdelta, hleaf⟩ := writePair_eq_ok h
  obtain ⟨r', hreceipts', -, -, hfresh⟩ := Platform.writePair_fresh h
  have hrr : r' = r := by
    rw [hreceipts] at hreceipts'
    simpa using hreceipts'.symm
  subst hrr
  refine ⟨r', ?_, ?_, ?_, ⟨a, ?_, hra.symm⟩,
    ⟨hmetric, hunit, hav, hbv, hdelta, hleaf⟩⟩
  · rw [hreceipts]
    simp
  · rw [hids]
    rfl
  · intro q hq hid
    rw [hreceipts] at hq
    rcases List.mem_append.1 hq with hq | hq
    · exact absurd hid (hfresh q hq)
    · exact List.mem_singleton.1 hq
  · rw [hruns]
    simp

/-- The worker's job leaves what it returns in the receipts. -/
theorem records_ofAgent [DecidableEq P] (build : Py Unit)
    (sha : PyVal K → String) (baseline : PyVal K → Py (Result K))
    (agent : LiveAgent K S D P) (tier : Nat) (inputs : Dict K)
    (sv : Server K) :
    Records (Job.ofAgent build sha baseline agent tier inputs sv) := by
  intro db
  show ((∃ e, (runHire sha baseline agent tier inputs none true sv db).1
      = .error e) ∧ _) ∨ _
  simp only [Job.ofAgent]
  unfold runHire
  cases hperform : prepare sha agent tier inputs none >>=
      conclude sha baseline agent tier with
  | error e =>
      rw [afterwards_error rfl]
      exact Or.inl ⟨⟨e, rfl⟩, rfl⟩
  | ok d =>
      rw [afterwards_ok rfl, if_pos rfl]
      rcases persist_cases agent.manifest sv d db
        with ⟨⟨e, he⟩, hleft⟩ | ⟨ids, hok, hwrite⟩
      · rw [afterwards_error he]
        refine Or.inl ⟨⟨e, rfl⟩, ?_⟩
        exact (congrArg Db.receipts hleft).trans
          (ensureAgent_records agent.manifest sv db).2
      · rw [afterwards_ok hok]
        exact Or.inr ⟨_, rfl, held_of_writePair hwrite⟩

-- ================================================================== stages

/-- Over, one way or another. -/
def HireStatus.over : HireStatus → Bool
  | .queued | .running => false
  | _ => true

/-- Where `_run` stands is what its attributes and the tables say. -/
def Stage (db : Db K) (s : State K) : Prop :=
  match s.pc with
  | .queued | .begun | .built | .inHarness _ | .raised _ =>
      s.hire.status.over = false ∧ s.hire.outcome = none
        ∧ s.db.receipts = db.receipts
  | .committed hired | .returned hired =>
      s.hire.status.over = false ∧ s.hire.outcome = none ∧ Held s.db hired
  | .flagRead _ =>
      s.hire.status.over = false
        ∧ ∃ hired, s.hire.outcome = some hired ∧ Held s.db hired
  | .ended =>
      (s.hire.status = .failed ∧ s.hire.outcome = none
          ∧ s.db.receipts = db.receipts)
        ∨ (s.hire.status = .ok ∨ s.hire.status = .cancelled)
          ∧ ∃ hired, s.hire.outcome = some hired ∧ Held s.db hired

/-- A step of a call changes nothing that `snapshot` reads. -/
structure Apart (s s' : State K) : Prop where
  pc : s'.pc = s.pc
  db : s'.db = s.db
  status : s'.hire.status = s.hire.status
  phase : s'.hire.phase = s.hire.phase
  error : s'.hire.error = s.hire.error
  outcome : s'.hire.outcome = s.hire.outcome

omit [Field K] [LinearOrder K] in
/-- A call touches nothing a handler reads but the flag. -/
theorem apart_of_call {job : Job K} {s s' : State K} {a : Act}
    (ha : a.waits = false) (h : step job s a = some s') : Apart s s' := by
  cases a with
  | run r => cases ha
  | call =>
      cases h
      exact ⟨rfl, rfl, rfl, rfl, rfl, rfl⟩
  | look i =>
      simp only [step] at h
      split at h
      · cases h
        exact ⟨rfl, rfl, rfl, rfl, rfl, rfl⟩
      · cases h
  | mark i =>
      simp only [step] at h
      split at h
      · cases h
        exact ⟨rfl, rfl, rfl, rfl, rfl, rfl⟩
      · cases h
  | answer i =>
      simp only [step] at h
      split at h
      · cases h
        exact ⟨rfl, rfl, rfl, rfl, rfl, rfl⟩
      · cases h

-- ============================================================= assignments

/-- The attributes, all assignments made. -/
def attrsOf (h : Hire K) : Attrs K :=
  ⟨h.status, h.phase, h.error, h.outcome.map fun x => x.outcome,
    h.outcome.bind receiptIdOf⟩

/-- What attributes say that may be read one at a time: an end that is no
failure has its outcome and receipt, a failure has neither. -/
structure Truthful (db₀ db : Db K) (h : Attrs K) : Prop where
  settled : h.status = .ok ∨ h.status = .cancelled → ∃ hired, Held db hired
    ∧ h.outcome = some hired.outcome ∧ h.receiptId = receiptIdOf hired
  failed : h.status = .failed → h.outcome = none ∧ h.receiptId = none
    ∧ db.receipts = db₀.receipts
  receipt : ∀ id, h.receiptId = some id → ∃ hired, Held db hired
    ∧ h.outcome = some hired.outcome ∧ receiptIdOf hired = some id
  known : h.status ≠ .halted

/-- What is never taken back: an end, an outcome, a receipt's id. -/
structure Later (h h' : Attrs K) : Prop where
  status : h.status.over = true → h'.status = h.status
  outcome : ∀ o, h.outcome = some o → h'.outcome = some o
  receiptId : ∀ id, h.receiptId = some id → h'.receiptId = some id

omit [Field K] [LinearOrder K] in
theorem Later.refl (h : Attrs K) : Later h h :=
  ⟨fun _ => rfl, fun _ h => h, fun _ h => h⟩

omit [Field K] [LinearOrder K] in
theorem Later.trans {h h' h'' : Attrs K} (hl : Later h h')
    (hl' : Later h' h'') : Later h h'' where
  status := by
    intro hover
    have hsame := hl.status hover
    rw [← hsame] at hover ⊢
    exact hl'.status hover
  outcome := fun o ho => hl'.outcome o (hl.outcome o ho)
  receiptId := fun id hid => hl'.receiptId id (hl.receiptId id hid)

/-- The attributes are sound now and after each assignment to come, and
none takes anything back. -/
def Chain (db₀ db : Db K) (h : Attrs K) : List (Write K) → Prop
  | [] => Truthful db₀ db h
  | w :: ws => Truthful db₀ db h ∧ Later h (h.set w) ∧ Chain db₀ db (h.set w) ws

omit [Field K] [LinearOrder K] in
theorem Chain.truthful {db₀ db : Db K} {h : Attrs K} {ws : List (Write K)}
    (hc : Chain db₀ db h ws) : Truthful db₀ db h := by
  cases ws with
  | nil => exact hc
  | cons w ws => exact hc.1

omit [Field K] [LinearOrder K] in
/-- Before the end there is nothing to be wrong about but a receipt. -/
theorem sound_of_going {db₀ db : Db K} {h : Attrs K}
    (hover : h.status.over = false) (hnone : h.receiptId = none) :
    Truthful db₀ db h where
  settled := by
    intro h
    rcases h with h | h
    all_goals
      rw [h] at hover
      cases hover
  failed := by
    intro h
    rw [h] at hover
    cases hover
  receipt := by
    intro id h
    rw [hnone] at h
    cases h
  known := by
    intro h
    rw [h] at hover
    cases hover

omit [Field K] [LinearOrder K] in
/-- An assignment that leaves the outcome and the receipt, of a hire that
goes on. -/
theorem later_of_going {h : Attrs K} {w : Write K}
    (hover : h.status.over = false) (hout : (h.set w).outcome = h.outcome)
    (hid : (h.set w).receiptId = h.receiptId) : Later h (h.set w) where
  status := by
    intro h
    rw [hover] at h
    cases h
  outcome := fun o h => hout.trans h
  receiptId := fun id h => hid.trans h

-- ===================================================================== _run

/-- What a step of `_run` leaves: its stage, its assignments in order, and
the tables, but before there is an outcome. -/
structure Went (db₀ : Db K) (s s' : State K) (ws : List (Write K)) : Prop where
  stage : Stage db₀ s'
  assigned : ws.foldl Attrs.set (attrsOf s.hire) = attrsOf s'.hire
  chain : Chain db₀ s'.db (attrsOf s.hire) ws
  tables : s'.db = s.db ∨ s.hire.outcome = none

omit [Field K] [LinearOrder K] in
/-- A hire that goes on, without an outcome. -/
theorem sound_attrsOf {db₀ db : Db K} {h : Hire K}
    (hover : h.status.over = false) (hnone : h.outcome = none) :
    Truthful db₀ db (attrsOf h) := by
  apply sound_of_going hover
  rw [attrsOf, hnone]
  rfl

omit [Field K] [LinearOrder K] in
/-- A step without an assignment, of such a hire. -/
theorem went_quietly {db₀ : Db K} {s s' : State K}
    (hover : s.hire.status.over = false) (hnone : s.hire.outcome = none)
    (hstage : Stage db₀ s') (hhire : s'.hire = s.hire) :
    Went db₀ s s' [] where
  stage := hstage
  assigned := by
    rw [hhire]
    rfl
  chain := sound_attrsOf hover hnone
  tables := Or.inr hnone

omit [Field K] [LinearOrder K] in
/-- A step that sets the phase, of such a hire. -/
theorem went_phase {db₀ : Db K} {s s' : State K} {p : Phase}
    (hover : s.hire.status.over = false) (hnone : s.hire.outcome = none)
    (hstage : Stage db₀ s')
    (hhire : s'.hire = { s.hire with phase := some p }) :
    Went db₀ s s' [.phase p] where
  stage := hstage
  assigned := by
    rw [hhire]
    rfl
  chain := ⟨sound_attrsOf hover hnone, later_of_going hover rfl rfl,
    sound_of_going hover (by rw [attrsOf, hnone]; rfl)⟩
  tables := Or.inr hnone

omit [Field K] [LinearOrder K] in
/-- A step of `_run` writes the attributes that `writes` lists, each after
what it speaks of. -/
theorem went_of_runStep {job : Job K} (hjob : Records job) {db₀ : Db K}
    {s s' : State K} {r : RunStep} (hs : Stage db₀ s)
    (h : runStep job s r = some s') :
    Went db₀ s s' (writes s (.run r)) := by
  cases r with
  | begin =>
      simp only [runStep] at h
      split at h
      case h_2 => cases h
      case h_1 hpc =>
        cases h
        simp only [Stage, hpc] at hs
        obtain ⟨hover, hnone, hreceipts⟩ := hs
        exact
          { stage := ⟨rfl, hnone, hreceipts⟩
            assigned := rfl
            chain := ⟨sound_attrsOf hover hnone, later_of_going hover rfl rfl,
              sound_of_going rfl (by rw [attrsOf, hnone]; rfl),
              later_of_going rfl rfl rfl,
              sound_of_going rfl (by rw [attrsOf, hnone]; rfl)⟩
            tables := Or.inr hnone }
  | build =>
      simp only [runStep] at h
      split at h
      case h_3 => cases h
      case h_1 hpc hbuild =>
        cases h
        simp only [Stage, hpc] at hs
        exact went_quietly hs.1 hs.2.1 hs rfl
      case h_2 e hpc hbuild =>
        cases h
        simp only [Stage, hpc] at hs
        exact went_quietly hs.1 hs.2.1 hs rfl
  | check =>
      simp only [runStep] at h
      split at h
      case h_2 => cases h
      case h_1 hpc =>
        simp only [Stage, hpc] at hs
        split at h
        · cases h
          exact went_quietly hs.1 hs.2.1 hs rfl
        · cases h
          exact went_quietly hs.1 hs.2.1 hs rfl
  | emit =>
      simp only [runStep] at h
      split at h
      case h_2 => cases h
      case h_1 p todo hpc =>
        cases h
        simp only [Stage, hpc] at hs
        simp only [writes, hpc]
        exact went_phase hs.1 hs.2.1 hs rfl
  | harness =>
      simp only [runStep] at h
      split at h
      case h_3 => cases h
      case h_1 hired db hpc hout =>
        cases h
        simp only [Stage, hpc] at hs
        refine went_quietly hs.1 hs.2.1 ⟨hs.1, hs.2.1, ?_⟩ rfl
        rcases hjob s.db with ⟨⟨e, he⟩, -⟩ | ⟨hired', hok, hheld⟩
        · rw [hout] at he
          cases he
        · rw [hout] at hok hheld
          cases hok
          exact hheld
      case h_2 todo e db hpc hout =>
        cases h
        simp only [Stage, hpc] at hs
        refine went_quietly hs.1 hs.2.1 ⟨hs.1, hs.2.1, ?_⟩ rfl
        rcases hjob s.db with ⟨-, hsame⟩ | ⟨hired', hok, -⟩
        · rw [hout] at hsame
          exact hsame.trans hs.2.2
        · rw [hout] at hok
          cases hok
  | done =>
      simp only [runStep] at h
      split at h
      case h_2 => cases h
      case h_1 hired hpc =>
        cases h
        simp only [Stage, hpc] at hs
        exact went_phase hs.1 hs.2.1 hs rfl
  | readFlag =>
      simp only [runStep] at h
      split at h
      case h_2 => cases h
      case h_1 hired hpc =>
        cases h
        simp only [Stage, hpc] at hs
        obtain ⟨hover, hnone, hheld⟩ := hs
        simp only [writes, hpc]
        have hid : (attrsOf s.hire).receiptId = none := by
          rw [attrsOf, hnone]
          rfl
        have hout : (attrsOf s.hire).outcome = none := by
          rw [attrsOf, hnone]
          rfl
        refine ⟨⟨hover, hired, rfl, hheld⟩, rfl,
          ⟨sound_attrsOf hover hnone, ?_, sound_of_going hover hid, ?_, ?_⟩,
          Or.inl rfl⟩
        · refine ⟨fun _ => rfl, fun o h => ?_, fun _ h => h⟩
          rw [hout] at h
          cases h
        · refine ⟨fun _ => rfl, fun _ h => h, fun id h => ?_⟩
          have hnone' : (none : Option Uuid) = some id := hid.symm.trans h
          cases hnone'
        · refine ⟨?_, ?_, fun id h => ⟨hired, hheld, rfl, h⟩, ?_⟩
          · exact fun _ => ⟨hired, hheld, rfl, rfl⟩
          · intro h
            have hfailed : s.hire.status = .failed := h
            rw [hfailed] at hover
            cases hover
          · intro h
            have hhalted : s.hire.status = .halted := h
            rw [hhalted] at hover
            cases hover
  | settle =>
      simp only [runStep] at h
      split at h
      case h_2 => cases h
      case h_1 flag hpc =>
        cases h
        simp only [Stage, hpc] at hs
        obtain ⟨hover, hired, hsome, hheld⟩ := hs
        simp only [writes, hpc]
        have hattrs : attrsOf s.hire = ⟨s.hire.status, s.hire.phase,
            s.hire.error, some hired.outcome, receiptIdOf hired⟩ := by
          rw [attrsOf, hsome]
          rfl
        have hend : (if flag then HireStatus.cancelled else .ok) = .ok
            ∨ (if flag then HireStatus.cancelled else .ok) = .cancelled := by
          cases flag with
          | true => exact Or.inr rfl
          | false => exact Or.inl rfl
        have htrue : ∀ h : Attrs K, h.status ≠ .failed ∧ h.status ≠ .halted →
            h.outcome = some hired.outcome → h.receiptId = receiptIdOf hired →
            Truthful db₀ s.db h := by
          intro h hne hout hid
          refine ⟨fun _ => ⟨hired, hheld, hout, hid⟩, ?_, ?_, hne.2⟩
          · exact fun hfailed => absurd hfailed hne.1
          · exact fun id h => ⟨hired, hheld, hout, hid.symm.trans h⟩
        have hne : (if flag then HireStatus.cancelled else .ok) ≠ .failed
            ∧ (if flag then HireStatus.cancelled else .ok) ≠ .halted := by
          cases flag <;> simp
        have hne' : s.hire.status ≠ .failed ∧ s.hire.status ≠ .halted := by
          constructor
          all_goals
            intro h
            rw [h] at hover
            cases hover
        refine ⟨Or.inr ⟨hend, hired, hsome, hheld⟩, rfl,
          ⟨?_, later_of_going hover rfl rfl, ?_, ?_, ?_⟩, Or.inl rfl⟩
        · exact htrue _ hne' (by rw [hattrs]) (by rw [hattrs])
        · exact htrue _ hne (by rw [hattrs]; rfl) (by rw [hattrs]; rfl)
        · exact ⟨fun _ => rfl, fun _ h => h, fun _ h => h⟩
        · exact htrue _ hne (by rw [hattrs]; rfl) (by rw [hattrs]; rfl)
  | fail =>
      simp only [runStep] at h
      split at h
      case h_2 => cases h
      case h_1 e hpc =>
        cases h
        simp only [Stage, hpc] at hs
        obtain ⟨hover, hnone, hreceipts⟩ := hs
        simp only [writes, hpc]
        have hout : (attrsOf s.hire).outcome = none := by
          rw [attrsOf, hnone]
          rfl
        have hid : (attrsOf s.hire).receiptId = none := by
          rw [attrsOf, hnone]
          rfl
        have htrue : ∀ h : Attrs K, h.status = .failed → h.outcome = none →
            h.receiptId = none → Truthful db₀ s.db h := by
          intro h hfailed hout hid
          refine ⟨?_, fun _ => ⟨hout, hid, hreceipts⟩, ?_, ?_⟩
          · rw [hfailed]
            intro h
            rcases h with h | h
            all_goals cases h
          · intro id h
            rw [hid] at h
            cases h
          · rw [hfailed]
            simp
        refine ⟨Or.inl ⟨rfl, hnone, hreceipts⟩, rfl,
          ⟨sound_attrsOf hover hnone, later_of_going hover rfl rfl,
            htrue _ rfl hout hid, ?_, htrue _ rfl hout hid, ?_,
            htrue _ rfl hout hid⟩, Or.inl rfl⟩
        · exact ⟨fun _ => rfl, fun _ h => h, fun _ h => h⟩
        · exact ⟨fun _ => rfl, fun _ h => h, fun _ h => h⟩

-- ================================================================= readers

/-- A handler past the status: an end it has read is the end. -/
def StatusTold (h : Attrs K) (r : Reader K) : Prop :=
  r.snap.status.over = true → h.status = r.snap.status

/-- A handler past the outcome: what it has read is there, and goes with
the status. -/
structure OutcomeTold (h : Attrs K) (r : Reader K) : Prop where
  kept : ∀ o, r.snap.outcome = some o → h.outcome = some o
  settled : r.snap.status = .ok ∨ r.snap.status = .cancelled →
    ∃ o, r.snap.outcome = some o
  failed : r.snap.status = .failed → r.snap.outcome = none

/-- A handler that has answered. -/
structure ReceiptTold (h : Attrs K) (db : Db K) (r : Reader K) : Prop where
  found : ∀ x, r.snap.receipt = some x → ∃ id out o,
    h.receiptId = some id ∧ receiptById db id = some out ∧ x = some out
      ∧ h.outcome = some o ∧ OutOf out o
  settled : r.snap.status = .ok ∨ r.snap.status = .cancelled →
    ∃ x, r.snap.receipt = some x
  failed : r.snap.status = .failed → r.snap.receipt = none

/-- What a handler has been told so far, against what is there now. -/
def Told (h : Attrs K) (db : Db K) (r : Reader K) : Prop :=
  match r.pc with
  | .status => r.snap.receipt = none
  | .phase | .error | .outcome => StatusTold h r ∧ r.snap.receipt = none
  | .receiptId => StatusTold h r ∧ OutcomeTold h r ∧ r.snap.receipt = none
  | .query id => StatusTold h r ∧ OutcomeTold h r ∧ h.receiptId = some id
      ∧ r.snap.status ≠ .failed
      ∧ ∃ hired, Held db hired ∧ h.outcome = some hired.outcome
        ∧ receiptIdOf hired = some id
  | .returned => StatusTold h r ∧ OutcomeTold h r ∧ ReceiptTold h db r

omit [Field K] [LinearOrder K] in
theorem statusTold_later {h h' : Attrs K} {r : Reader K} (hl : Later h h')
    (hr : StatusTold h r) : StatusTold h' r := by
  intro hover
  have hsame := hr hover
  rw [← hsame] at hover ⊢
  exact hl.status hover

omit [Field K] [LinearOrder K] in
theorem outcomeTold_later {h h' : Attrs K} {r : Reader K} (hl : Later h h')
    (hr : OutcomeTold h r) : OutcomeTold h' r :=
  ⟨fun o ho => hl.outcome o (hr.kept o ho), hr.settled, hr.failed⟩

/-- What has been told stays true; the tables stay from the outcome on. -/
theorem told_later {h h' : Attrs K} {db db' : Db K} {r : Reader K}
    (hl : Later h h') (hdb : db' = db ∨ h.outcome = none)
    (hr : Told h db r) : Told h' db' r := by
  unfold Told at hr ⊢
  split at hr
  case h_1 => exact hr
  case h_2 => exact ⟨statusTold_later hl hr.1, hr.2⟩
  case h_3 => exact ⟨statusTold_later hl hr.1, hr.2⟩
  case h_4 => exact ⟨statusTold_later hl hr.1, hr.2⟩
  case h_5 =>
    exact ⟨statusTold_later hl hr.1, outcomeTold_later hl hr.2.1, hr.2.2⟩
  case h_6 id hpc =>
    obtain ⟨hst, hout, hid, hne, hired, hheld, hsome, hown⟩ := hr
    rcases hdb with rfl | hnone
    · exact ⟨statusTold_later hl hst, outcomeTold_later hl hout,
        hl.receiptId id hid, hne, hired, hheld, hl.outcome _ hsome, hown⟩
    · rw [hnone] at hsome
      cases hsome
  case h_7 =>
    obtain ⟨hst, hout, hreceipt⟩ := hr
    refine ⟨statusTold_later hl hst, outcomeTold_later hl hout, ?_,
      hreceipt.settled, hreceipt.failed⟩
    intro x hx
    obtain ⟨id, out, o, hid, hfound, hxout, hsome, hof⟩ :=
      hreceipt.found x hx
    rcases hdb with rfl | hnone
    · exact ⟨id, out, o, hl.receiptId id hid, hfound, hxout,
        hl.outcome o hsome, hof⟩
    · rw [hnone] at hsome
      cases hsome

/-- A read of sound attributes. -/
theorem told_next {db₀ db : Db K} {h : Attrs K} {r : Reader K}
    (hs : Truthful db₀ db h) (hr : Told h db r) : Told h db (r.next h db) := by
  unfold Told at hr
  unfold Reader.next
  cases hpc : r.pc with
  | status =>
      rw [hpc] at hr
      exact ⟨fun _ => rfl, hr⟩
  | phase =>
      rw [hpc] at hr
      exact hr
  | error =>
      rw [hpc] at hr
      exact hr
  | outcome =>
      rw [hpc] at hr
      refine ⟨hr.1, ⟨fun o ho => ho, ?_, ?_⟩, hr.2⟩
      · intro hend
        have hover : r.snap.status.over = true := by
          rcases hend with hend | hend
          · rw [hend]
            rfl
          · rw [hend]
            rfl
        have hsame := hr.1 hover
        obtain ⟨hired, -, hout, -⟩ := hs.settled (by rw [hsame]; exact hend)
        exact ⟨_, hout⟩
      · intro hfailed
        have hfailed' : r.snap.status = .failed := hfailed
        have hsame := hr.1 (by rw [hfailed']; rfl)
        exact (hs.failed (hsame.trans hfailed)).1
  | receiptId =>
      rw [hpc] at hr
      obtain ⟨hst, hout, hnone⟩ := hr
      cases hid : h.receiptId with
      | none =>
          refine ⟨hst, ⟨hout.kept, hout.settled, hout.failed⟩, ?_, ?_,
            fun _ => hnone⟩
          · intro x hx
            rw [show r.snap.receipt = some x from hx] at hnone
            cases hnone
          · intro hend
            -- an end without a receipt is a failure
            have hend' : r.snap.status = .ok ∨ r.snap.status = .cancelled :=
              hend
            have hover : r.snap.status.over = true := by
              rcases hend' with h | h
              all_goals
                rw [h]
                rfl
            obtain ⟨hired, hheld, -, hown⟩ :=
              hs.settled (by rw [hst hover]; exact hend')
            obtain ⟨q, -, hq, -⟩ := hheld
            rw [hid, hq] at hown
            cases hown
      | some id =>
          obtain ⟨hired, hheld, hsome, hown⟩ := hs.receipt id hid
          refine ⟨hst, ⟨hout.kept, hout.settled, hout.failed⟩, hid, ?_, hired,
            hheld, hsome, hown⟩
          intro hfailed
          have hfailed' : r.snap.status = .failed := hfailed
          have hsame := hst (by rw [hfailed']; rfl)
          rw [(hs.failed (hsame.trans hfailed')).2.1] at hid
          cases hid
  | query id =>
      rw [hpc] at hr
      obtain ⟨hst, hout, hid, hne, hired, hheld, hsome, hown⟩ := hr
      obtain ⟨out, hfound, hof⟩ := receiptById_of_held hheld hown
      refine ⟨hst, ⟨hout.kept, hout.settled, hout.failed⟩, ?_, ?_, ?_⟩
      · intro x hx
        have hx' : receiptById db id = x := Option.some.inj hx
        exact ⟨id, out, _, hid, hfound, hx'.symm.trans hfound, hsome, hof⟩
      · exact fun _ => ⟨_, rfl⟩
      · exact fun hfailed => absurd hfailed hne
  | returned =>
      rw [hpc] at hr
      simp only [Told, hpc]
      exact hr

-- =============================================================== the system

/-- What holds of a polled hire at every moment. -/
structure PollInv (db₀ : Db K) (s : Polled K) : Prop where
  stage : Stage db₀ s.base
  assigned : s.pending.foldl Attrs.set s.attrs = attrsOf s.base.hire
  chain : Chain db₀ s.base.db s.attrs s.pending
  readers : ∀ r ∈ s.readers, Told s.attrs s.base.db r

theorem pollInv_start (db : Db K) :
    PollInv db (Polled.start db) where
  stage := ⟨rfl, rfl, rfl⟩
  assigned := rfl
  chain := sound_of_going rfl rfl
  readers := fun r hr => by cases hr

/-- With none to come, all assignments are made. -/
theorem attrs_of_nil {db₀ : Db K} {s : Polled K} (hs : PollInv db₀ s)
    (h : s.pending = []) : s.attrs = attrsOf s.base.hire := by
  have hassigned := hs.assigned
  rw [h] at hassigned
  exact hassigned

/-- What a step keeps of the attributes and, from the outcome on, of the
tables. -/
structure Onward (s s' : Polled K) : Prop where
  attrs : Later s.attrs s'.attrs
  tables : s'.base.db = s.base.db ∨ s.attrs.outcome = none

/-- Every step keeps the invariant, and takes nothing back; -/
theorem pollInv_step {job : Job K} (hjob : Records job) {db₀ : Db K}
    {s s' : Polled K} {a : PollAct} (hs : PollInv db₀ s)
    (h : pollStep job s a = some s') : PollInv db₀ s' ∧ Onward s s' := by
  cases a with
  | hire a =>
      simp only [pollStep] at h
      split at h
      case isTrue => cases h
      case isFalse hwait =>
        obtain ⟨base, hbase, rfl⟩ := Option.map_eq_some_iff.1 h
        cases hcall : a.waits with
        | true =>
            obtain ⟨r, rfl⟩ : ∃ r, a = .run r := by
              cases a with
              | run r => exact ⟨r, rfl⟩
              | call => cases hcall
              | look i => cases hcall
              | mark i => cases hcall
              | answer i => cases hcall
            have hnil : s.pending = [] := by
              by_contra hne
              apply hwait
              rw [hcall, Bool.true_and]
              cases hp : s.pending with
              | nil => exact absurd hp hne
              | cons w ws => rfl
            have hattrs := attrs_of_nil hs hnil
            have hwent := went_of_runStep hjob hs.stage hbase
            have htables : base.db = s.base.db ∨ s.attrs.outcome = none := by
              rcases hwent.tables with hdb | hnone
              · exact Or.inl hdb
              · right
                rw [hattrs, attrsOf, hnone]
                rfl
            refine ⟨⟨hwent.stage, ?_, ?_, ?_⟩, Later.refl _, htables⟩
            · show (s.pending ++ _).foldl Attrs.set s.attrs = _
              rw [hnil, hattrs]
              exact hwent.assigned
            · show Chain db₀ base.db s.attrs (s.pending ++ _)
              rw [hnil, hattrs]
              exact hwent.chain
            · exact fun r hr =>
                told_later (Later.refl _) htables (hs.readers r hr)
        | false =>
            have hapart := apart_of_call hcall hbase
            have hwrites : writes s.base a = [] := by
              cases a with
              | run r => cases hcall
              | call => rfl
              | look i => rfl
              | mark i => rfl
              | answer i => rfl
            refine ⟨⟨?_, ?_, ?_, ?_⟩, Later.refl _, Or.inl hapart.db⟩
            · have hstage := hs.stage
              simp only [Stage, hapart.pc, hapart.db, hapart.status,
                hapart.outcome] at hstage ⊢
              exact hstage
            · show (s.pending ++ _).foldl Attrs.set s.attrs = _
              rw [hwrites, List.append_nil, hs.assigned]
              simp only [attrsOf, hapart.status, hapart.phase, hapart.error,
                hapart.outcome]
            · show Chain db₀ base.db s.attrs (s.pending ++ _)
              rw [hwrites, List.append_nil, hapart.db]
              exact hs.chain
            · intro r hr
              show Told s.attrs base.db r
              rw [hapart.db]
              exact hs.readers r hr
  | assign =>
      simp only [pollStep] at h
      split at h
      case h_2 => cases h
      case h_1 w rest hpending =>
        cases h
        have hchain := hs.chain
        have hassigned := hs.assigned
        rw [hpending] at hchain hassigned
        obtain ⟨-, hlater, hrest⟩ := hchain
        refine ⟨⟨hs.stage, hassigned, hrest, ?_⟩, hlater, Or.inl rfl⟩
        exact fun r hr => told_later hlater (Or.inl rfl) (hs.readers r hr)
  | get =>
      cases h
      refine ⟨⟨hs.stage, hs.assigned, hs.chain, ?_⟩, Later.refl _,
          Or.inl rfl⟩
      intro r hr
      rcases List.mem_append.1 hr with hr | hr
      · exact hs.readers r hr
      · rw [List.mem_singleton.1 hr]
        rfl
  | read i =>
      simp only [pollStep] at h
      split at h
      case h_2 => cases h
      case h_1 r hi =>
        cases h
        refine ⟨⟨hs.stage, hs.assigned, hs.chain, ?_⟩, Later.refl _,
          Or.inl rfl⟩
        intro r' hr'
        rcases List.mem_or_eq_of_mem_set hr' with hr' | rfl
        · exact hs.readers r' hr'
        · exact told_next hs.chain.truthful
            (hs.readers r (List.mem_of_getElem? hi))

/-- so does every run. -/
theorem pollInv_run {job : Job K} (hjob : Records job) {db₀ : Db K}
    {s s' : Polled K} {acts : List PollAct} (hs : PollInv db₀ s)
    (hrun : run (pollStep job) s acts = some s') : PollInv db₀ s' :=
  run_invariant (fun hs h => (pollInv_step hjob hs h).1) hs hrun

/-- What a handler has been told stays true. -/
structure Lasting (s s' : Polled K) : Prop where
  attrs : Later s.attrs s'.attrs
  told : ∀ r, Told s.attrs s.base.db r → Told s'.attrs s'.base.db r

/-- What was answered lasts where nothing happens, -/
theorem Lasting.refl (s : Polled K) : Lasting s s :=
  ⟨Later.refl _, fun _ h => h⟩

/-- over two stretches if over each, -/
theorem Lasting.trans {s t u : Polled K} (h : Lasting s t)
    (h' : Lasting t u) : Lasting s u :=
  ⟨h.attrs.trans h'.attrs, fun r hr => h'.told r (h.told r hr)⟩

/-- and over every run. -/
theorem lasting_run {job : Job K} (hjob : Records job) {db₀ : Db K}
    {s s' : Polled K} {acts : List PollAct} (hs : PollInv db₀ s)
    (hrun : run (pollStep job) s acts = some s') : Lasting s s' := by
  refine run_stable (fun hs h => (pollInv_step hjob hs h).1) Lasting.refl
    Lasting.trans ?_ hs hrun
  intro s a s' hs h
  have hon := (pollInv_step hjob hs h).2
  exact ⟨hon.attrs, fun r hr => told_later hon.attrs hon.tables hr⟩

-- ============================================================ later answers

/-- Handlers that began at an end have read it. -/
structure ReadEnd (n : Nat) (st : HireStatus) (s : Polled K) : Prop where
  status : s.attrs.status = st
  count : n ≤ s.readers.length
  readers : ∀ i r, n ≤ i → s.readers[i]? = some r → r.pc ≠ .status →
    r.snap.status = st

/-- A handler that begins after the end reads it: the status is set no more, -/
theorem readEnd_step {job : Job K} (hjob : Records job) {db₀ : Db K}
    {n : Nat} {st : HireStatus} (hst : st.over = true) {s s' : Polled K}
    {a : PollAct} (hinv : PollInv db₀ s) (hs : ReadEnd n st s)
    (h : pollStep job s a = some s') : ReadEnd n st s' := by
  have hlater := (pollInv_step hjob hinv h).2.attrs
  have hstatus : s'.attrs.status = st := by
    rw [← hs.status] at hst ⊢
    exact hlater.status hst
  cases a with
  | hire a =>
      simp only [pollStep] at h
      split at h
      · cases h
      · obtain ⟨base, -, rfl⟩ := Option.map_eq_some_iff.1 h
        exact ⟨hstatus, hs.count, hs.readers⟩
  | assign =>
      simp only [pollStep] at h
      split at h
      · cases h
        exact ⟨hstatus, hs.count, hs.readers⟩
      · cases h
  | get =>
      cases h
      refine ⟨hstatus, ?_, ?_⟩
      · rw [List.length_append]
        exact Nat.le_add_right_of_le hs.count
      · intro i r hi hr hpc
        rcases Nat.lt_or_ge i s.readers.length with hlt | hge
        · rw [List.getElem?_append_left hlt] at hr
          exact hs.readers i r hi hr hpc
        · rw [List.getElem?_append_right hge] at hr
          obtain rfl := List.mem_singleton.1 (List.mem_of_getElem? hr)
          exact absurd rfl hpc
  | read j =>
      simp only [pollStep] at h
      split at h
      case h_2 => cases h
      case h_1 q hj =>
        cases h
        refine ⟨hstatus, ?_, ?_⟩
        · rw [List.length_set]
          exact hs.count
        · intro i r hi hr hpc
          by_cases hij : j = i
          · subst hij
            have hlt := (List.getElem?_eq_some_iff.1 hj).1
            rw [List.getElem?_set_self hlt] at hr
            cases hr
            by_cases hq : q.pc = .status
            · unfold Reader.next
              rw [hq]
              exact hs.status
            · have hsame : (q.next s.attrs s.base.db).snap.status
                  = q.snap.status := by
                unfold Reader.next
                split
                case h_1 h => exact absurd h hq
                case h_5 => split <;> rfl
                all_goals rfl
              exact hsame.trans (hs.readers j q hi hj hq)
          · rw [List.getElem?_set_ne hij] at hr
            exact hs.readers i r hi hr hpc

/-- whatever happens in between. -/
theorem readEnd_run {job : Job K} (hjob : Records job) {db₀ : Db K}
    {n : Nat} {st : HireStatus} (hst : st.over = true) {s s' : Polled K}
    {acts : List PollAct} (hinv : PollInv db₀ s) (hs : ReadEnd n st s)
    (hrun : run (pollStep job) s acts = some s') : ReadEnd n st s' := by
  have hboth : ∀ {s a s'}, PollInv db₀ s ∧ ReadEnd n st s →
      pollStep job s a = some s' → PollInv db₀ s' ∧ ReadEnd n st s' :=
    fun hs h => ⟨(pollInv_step hjob hs.1 h).1,
      readEnd_step hjob hst hs.1 hs.2 h⟩
  exact (run_invariant hboth ⟨hinv, hs⟩ hrun).2

/-- An answer of `GET /hires/{id}` that says the hire is over is complete:
with `ok` or `cancelled` it has the outcome and the receipt, with the same
numbers, and with `failed` neither, and no receipt was written. And it is
final: whoever asks after it gets the same status, outcome and receipt. -/
theorem answers_final [DecidableEq P] (build : Py Unit)
    (sha : PyVal K → String) (baseline : PyVal K → Py (Result K))
    (agent : LiveAgent K S D P) (tier : Nat) (inputs : Dict K)
    (sv : Server K) (db : Db K) {acts acts' : List PollAct}
    {s s' : Polled K}
    (hrun : run
      (pollStep (Job.ofAgent build sha baseline agent tier inputs sv))
      (Polled.start db) acts = some s)
    (hrun' : run
      (pollStep (Job.ofAgent build sha baseline agent tier inputs sv))
      s acts' = some s') {r : Reader K} (hr : r ∈ s.readers)
    (hdone : r.pc = .returned) :
    (r.snap.status = .ok ∨ r.snap.status = .cancelled → ∃ o out,
        r.snap.outcome = some o ∧ r.snap.receipt = some (some out)
          ∧ OutOf out o)
      ∧ (r.snap.status = .failed → r.snap.outcome = none
          ∧ r.snap.receipt = none ∧ s.base.db.receipts = db.receipts)
      ∧ (r.snap.status.over = true → ∀ i r', s.readers.length ≤ i →
          s'.readers[i]? = some r' → r'.pc = .returned →
          r'.snap.status = r.snap.status ∧ r'.snap.outcome = r.snap.outcome
            ∧ r'.snap.receipt = r.snap.receipt) := by
  have hjob := records_ofAgent build sha baseline agent tier inputs sv
  have hs := pollInv_run hjob (pollInv_start db) hrun
  have hs' := pollInv_run hjob hs hrun'
  have htrue := hs.chain.truthful
  have htold := hs.readers r hr
  have hafter := (lasting_run hjob hs hrun').told r htold
  unfold Told at htold hafter
  rw [hdone] at htold hafter
  obtain ⟨hst, hout, hreceipt⟩ := htold
  obtain ⟨hst', hout', hreceipt'⟩ := hafter
  refine ⟨?_, ?_, ?_⟩
  · intro hend
    obtain ⟨o, ho⟩ := hout.settled hend
    obtain ⟨x, hx⟩ := hreceipt.settled hend
    obtain ⟨id, out, o', -, -, rfl, ho', hof⟩ := hreceipt.found x hx
    rw [hout.kept o ho] at ho'
    cases ho'
    exact ⟨o, out, ho, hx, hof⟩
  · intro hfailed
    have hsame := hst (by rw [hfailed]; rfl)
    exact ⟨hout.failed hfailed, hreceipt.failed hfailed,
      (htrue.failed (hsame.trans hfailed)).2.2⟩
  · intro hover i r' hi hr' hdone'
    have hsame := hst hover
    have hbegin : ReadEnd s.readers.length r.snap.status s :=
      ⟨hsame, le_refl _, fun i q hi hq _ => by
        have hlt := (List.getElem?_eq_some_iff.1 hq).1
        omega⟩
    have hread := readEnd_run hjob hover hs hbegin hrun'
    have hstatus := hread.readers i r' hi hr' (by rw [hdone']; simp)
    have htold' := hs'.readers r' (List.mem_of_getElem? hr')
    unfold Told at htold'
    rw [hdone'] at htold'
    obtain ⟨-, hout₂, hreceipt₂⟩ := htold'
    refine ⟨hstatus, ?_⟩
    by_cases hfailed : r.snap.status = .failed
    · have hfailed' := hstatus.trans hfailed
      exact ⟨(hout₂.failed hfailed').trans (hout.failed hfailed).symm,
        (hreceipt₂.failed hfailed').trans (hreceipt.failed hfailed).symm⟩
    · have hend : r.snap.status = .ok ∨ r.snap.status = .cancelled := by
        have hknown := htrue.known
        rw [hsame] at hknown
        cases hcase : r.snap.status with
        | ok => exact Or.inl rfl
        | cancelled => exact Or.inr rfl
        | failed => exact absurd hcase hfailed
        | halted => exact absurd hcase hknown
        | queued =>
            rw [hcase] at hover
            cases hover
        | running =>
            rw [hcase] at hover
            cases hover
      have hend' : r'.snap.status = .ok ∨ r'.snap.status = .cancelled := by
        rw [hstatus]
        exact hend
      constructor
      · obtain ⟨o, ho⟩ := hout.settled hend
        obtain ⟨o₂, ho₂⟩ := hout₂.settled hend'
        have hboth := hout'.kept o ho
        rw [hout₂.kept o₂ ho₂] at hboth
        cases hboth
        rw [ho, ho₂]
      · obtain ⟨x, hx⟩ := hreceipt.settled hend
        obtain ⟨x₂, hx₂⟩ := hreceipt₂.settled hend'
        obtain ⟨id, out, o, hid, hfound, rfl, -⟩ := hreceipt'.found x hx
        obtain ⟨id₂, out₂, o₂, hid₂, hfound₂, rfl, -⟩ :=
          hreceipt₂.found x₂ hx₂
        rw [hid] at hid₂
        cases hid₂
        rw [hfound] at hfound₂
        cases hfound₂
        rw [hx, hx₂]

/-- A hire with a poll between the last two assignments, of the status and
of the phase. -/
def polledHire : List PollAct :=
  [.hire (.run .begin), .assign, .assign, .hire (.run .build),
    .hire (.run .check)]
    ++ harnessPhases.flatMap (fun _ => [.hire (.run .emit), .assign])
    ++ [.hire (.run .harness), .hire (.run .done), .assign,
      .hire (.run .readFlag), .assign, .assign, .hire (.run .settle),
      .assign, .get]
    ++ List.replicate 6 (.read 0)

/-- The last assignment, and a poll after it. -/
def pollAfter : List PollAct := .assign :: .get :: List.replicate 6 (.read 1)

/-- The poll says `ok` and so does the next, with the same receipt. -/
theorem answers_final_steady : ∃ s s' : Polled ℚ, ∃ r ∈ s.readers,
    ∃ r' ∈ s'.readers,
      run (pollStep steadyJob) (Polled.start emptyDb) polledHire = some s
      ∧ run (pollStep steadyJob) s pollAfter = some s'
      ∧ r.snap.status = .ok ∧ (∃ out, r.snap.receipt = some (some out))
      ∧ r'.snap.status = .ok ∧ r'.snap.receipt = r.snap.receipt := by
  have hruns : ((run (pollStep steadyJob) (Polled.start emptyDb)
      polledHire).any fun s =>
        (s.readers.length = 1 && (s.readers[0]?).any fun r =>
          r.pc = .returned && r.snap.status = .ok)
        && (run (pollStep steadyJob) s pollAfter).any fun s' =>
          (s'.readers[1]?).any fun r' => r'.pc = .returned) = true := by
    decide +kernel
  obtain ⟨s, hs, hcond⟩ := (Option.any_eq_true _ _).1 hruns
  obtain ⟨hfirst, hnext⟩ := Bool.and_eq_true_iff.1 hcond
  obtain ⟨hlen, hread⟩ := Bool.and_eq_true_iff.1 hfirst
  obtain ⟨r, hr, hdone⟩ := (Option.any_eq_true _ _).1 hread
  obtain ⟨hpc, hok⟩ := Bool.and_eq_true_iff.1 hdone
  obtain ⟨s', hs', hread'⟩ := (Option.any_eq_true _ _).1 hnext
  obtain ⟨r', hr', hpc'⟩ := (Option.any_eq_true _ _).1 hread'
  have hmem := List.mem_of_getElem? hr
  obtain ⟨hsettled, -, hfinal⟩ := answers_final _ _ _ _ _ _ _ _ hs hs' hmem
    (of_decide_eq_true hpc)
  have hok := of_decide_eq_true hok
  obtain ⟨-, out, -, hout, -⟩ := hsettled (Or.inl hok)
  obtain ⟨hst, -, hreceipt⟩ := hfinal (by rw [hok]; rfl) 1 r'
    (of_decide_eq_true hlen).le hr' (of_decide_eq_true hpc')
  exact ⟨s, s', r, hmem, r', List.mem_of_getElem? hr', hs, hs', hok,
    ⟨out, hout⟩, hst.trans hok, hreceipt⟩

end Proofstand.Hires
