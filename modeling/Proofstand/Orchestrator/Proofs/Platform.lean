/-
The anchoring clients see the marketplace's database as their own
system's, and every receipt stays the record it was written as.

`view_step` is the refinement: a hire that commits is the clients'
`insert`, any other hire is nothing to them, and a step of theirs is that
step. `kept_step` is what no step of either side takes back: a run's row,
a receipt's row but for the two columns anchoring sets, and a batch id
once set.

# How it goes

A step on the platform and what the clients see of it are one square:
`hireEffect` says what a hire does to the two tables, in the two cases
that matter here, and `table_of_step` that a client's step works on each
row by itself, so that its columns can be put back in place. From the
square, runs project to runs (`view_run`), and every invariant of the
anchoring system is one of the platform (`inv_view`).

The permanence of receipts is a relation between two moments, `Kept`,
which is reflexive and transitive and holds across each step.
-/
import Proofstand.Orchestrator.Platform
import Proofstand.Orchestrator.Proofs.Hires
import Proofstand.Anchor.Proofs.Anchoring

namespace Proofstand.Platform

open Anchor (Uuid ClientId Keccak Digest)
open Session Persist Hex Transition

variable {K : Type}

-- ================================================================ columns

/-- A digest is the one its hex digits are of. -/
theorem digest_hex (d : Digest) : digest d.hex = d := by
  unfold digest
  split
  case isTrue h => rfl
  case isFalse h => exact absurd ⟨d.length_eq, d.lower⟩ h

/-- A row after a client's step on its columns. -/
theorem column_setColumns {r : ReceiptRow K} {q : Anchor.Receipt}
    (hid : q.id = r.id) (hat : q.createdAt = r.createdAt)
    (hleaf : q.merkleLeaf = digest r.merkleLeaf) :
    column (setColumns r q) = q := by
  cases q
  cases hid
  cases hat
  cases hleaf
  rfl

/-- Writing back columns that were mapped maps each row's columns. -/
theorem zipWith_map {rows : List (ReceiptRow K)}
    (f : Anchor.Receipt → Anchor.Receipt) :
    List.zipWith setColumns rows ((rows.map column).map f)
      = rows.map fun r => setColumns r (f (column r)) := by
  induction rows with
  | nil => rfl
  | cons r rows ih =>
      rw [List.map_cons, List.map_cons, List.zipWith_cons_cons, ih]
      rfl

/-- What an anchoring client leaves of a row. -/
def Leaves (f : Anchor.Receipt → Anchor.Receipt) : Prop :=
  ∀ q, (f q).id = q.id ∧ (f q).createdAt = q.createdAt
    ∧ (f q).merkleLeaf = q.merkleLeaf

/-- A client's step works on the rows one by one. -/
theorem table_of_step {H : Keccak} {s t : Anchor.State} {a : Anchor.Action}
    (hinsert : isInsert a = false) (h : Anchor.step H s a = some t) :
    ∃ f, Leaves f ∧ t.table = s.table.map f := by
  have hsame : ∃ f, Leaves f ∧ s.table = s.table.map f :=
    ⟨id, fun _ => ⟨rfl, rfl, rfl⟩, (List.map_id _).symm⟩
  cases Anchor.step_effect h with
  | insert hid => cases hinsert
  | @commit c m bid hpc =>
      refine ⟨_, fun q => ?_, rfl⟩
      split
      · exact ⟨rfl, rfl, rfl⟩
      · exact ⟨rfl, rfl, rfl⟩
  | @record c job hash block out hpc =>
      refine ⟨_, fun q => ?_, rfl⟩
      split
      · exact ⟨rfl, rfl, rfl⟩
      · exact ⟨rfl, rfl, rfl⟩
  | _ => exact hsame

/-- Put back, the client's state is what the clients see. -/
theorem view_putBack {s : State K} {t : Anchor.State}
    {f : Anchor.Receipt → Anchor.Receipt} (hf : Leaves f)
    (htable : t.table = s.view.table.map f) : (s.putBack t).view = t := by
  have hrows : (List.zipWith setColumns s.db.receipts t.table).map column
      = t.table := by
    have hview : s.view.table = s.db.receipts.map column := rfl
    rw [htable, hview, zipWith_map, List.map_map, List.map_map]
    apply List.map_congr_left
    intro r _
    obtain ⟨hid, hat, hleaf⟩ := hf (column r)
    exact column_setColumns hid hat hleaf
  unfold State.view State.putBack
  rw [hrows]

-- ============================================================== the hires

/-- A receipt that is inserted has an id no other had. -/
theorem insertReceipt_fresh {row : ReceiptRow K} {db db' : Db K} {id : Uuid}
    (h : insertReceipt row db = .ok (id, db')) :
    ∀ r ∈ db.receipts, r.id ≠ row.id := by
  unfold insertReceipt at h
  split at h
  case isTrue => cases h
  case isFalse hany =>
    intro r hr hid
    exact hany (List.any_eq_true.2 ⟨r, hr, decide_eq_true hid⟩)

/-- The receipt a hire writes has an id of its own, and neither batch nor
transaction. -/
theorem writePair_fresh [Field K] {sv : Server K} {d : Performed K}
    {db db' : Db K} {ids : Uuid × Uuid × Uuid}
    (h : writePair sv d db = .ok (ids, db')) :
    ∃ r, db'.receipts = db.receipts ++ [r] ∧ r.batchId = none
      ∧ r.anchoredTx = none ∧ ∀ r' ∈ db.receipts, r'.id ≠ r.id := by
  obtain ⟨ia, db₁, hia, h⟩ := block_bind_eq_ok.1 h
  obtain ⟨a, db₂, ha, h⟩ := block_bind_eq_ok.1 h
  obtain ⟨ib, db₃, hib, h⟩ := block_bind_eq_ok.1 h
  obtain ⟨b, db₄, hb, h⟩ := block_bind_eq_ok.1 h
  obtain ⟨ir, db₅, hir, h⟩ := block_bind_eq_ok.1 h
  obtain ⟨r, db₆, hr, h⟩ := block_bind_eq_ok.1 h
  cases h
  obtain ⟨-, rfl⟩ := lift_eq_ok hia
  obtain ⟨-, rfl⟩ := lift_eq_ok hib
  obtain ⟨-, rfl⟩ := lift_eq_ok hir
  obtain ⟨-, -, hreceipts⟩ := insertRun_eq_ok ha
  obtain ⟨-, -, hreceipts'⟩ := insertRun_eq_ok hb
  obtain ⟨-, -, hreceipts''⟩ := insertReceipt_eq_ok hr
  have hfresh := insertReceipt_fresh hr
  rw [hreceipts', hreceipts] at hreceipts'' hfresh
  exact ⟨_, hreceipts'', rfl, rfl, hfresh⟩

/-- A receipt's record in the tables: the two runs it points at. -/
structure InTables [Field K] [LinearOrder K] (sha : PyVal K → String)
    (runs : List (RunRow K)) (r : ReceiptRow K) (a : RunRow K) : Prop where
  agentRun : a ∈ runs
  recorded : ∃ b ∈ runs, ∃ ra rb actions, Recorded sha a b r ra rb actions

/-- What a hire does to the two tables. -/
inductive HireEffect [Field K] [LinearOrder K] (sha : PyVal K → String)
    (db db' : Db K) : Prop
  | left (hruns : db'.runs = db.runs) (hreceipts : db'.receipts = db.receipts)
  | wrote (a b : RunRow K) (r : ReceiptRow K)
      (hruns : db'.runs = db.runs ++ [a, b])
      (hreceipts : db'.receipts = db.receipts ++ [r])
      (hfresh : ∀ r' ∈ db.receipts, r'.id ≠ r.id)
      (hnull : r.batchId = none ∧ r.anchoredTx = none)
      (hrecord : InTables sha db'.runs r a)

/-- A hire leaves the receipts, or adds one that is new and recorded. -/
theorem hireEffect [Field K] [LinearOrder K] {sha : PyVal K → String}
    {hire : Db K → Outcome Exc (Db K) (Hired K)}
    (h : IsHire sha hire) (db : Db K) :
    HireEffect sha db (hire db).2 := by
  obtain ⟨S, D, P, inst, baseline, agent, tier, raw, signer, persisted, sv,
    rfl⟩ := h
  unfold runHire
  cases hperform : prepare sha agent tier raw signer >>=
      conclude sha baseline agent tier with
  | error e =>
      rw [afterwards_error rfl]
      exact .left rfl rfl
  | ok d =>
      obtain ⟨p, -, hconclude⟩ := Fallible.bind_eq_ok.1 hperform
      rw [afterwards_ok rfl]
      cases persisted with
      | false => exact .left rfl rfl
      | true =>
          rw [if_pos rfl]
          have hsame := ensureAgent_records agent.manifest sv db
          rcases persist_cases agent.manifest sv d db
            with ⟨⟨e, he⟩, hleft⟩ | ⟨ids, hok, hwrite⟩
          · rw [afterwards_error he]
            refine .left ?_ ?_
            · exact (congrArg Db.runs hleft).trans hsame.1
            · exact (congrArg Db.receipts hleft).trans hsame.2
          · rw [afterwards_ok hok]
            obtain ⟨a, b, r, hruns, hreceipts, -, -, -, -, -, hrecorded⟩ :=
              recorded_of_written hconclude hwrite
            obtain ⟨r', hreceipts', hbatch, htx, hfresh⟩ :=
              writePair_fresh hwrite
            have hrr : r' = r := by
              rw [hreceipts] at hreceipts'
              simpa using hreceipts'.symm
            subst hrr
            rw [hsame.2] at hfresh
            refine .wrote a b r' ?_ ?_ hfresh ⟨hbatch, htx⟩ ⟨?_, b, ?_, _, _,
              _, hrecorded⟩
            · exact hruns.trans (by rw [hsame.1])
            · exact hreceipts.trans (by rw [hsame.2])
            · show a ∈ (persist agent.manifest sv d db).2.runs
              rw [hruns]
              simp
            · show b ∈ (persist agent.manifest sv d db).2.runs
              rw [hruns]
              simp

-- ============================================================= refinement

variable [Field K] [LinearOrder K] {sha : PyVal K → String} {H : Keccak}
  {hires : Nat → Db K → Outcome Exc (Db K) (Hired K)}

/-- Every step is one of the anchoring system, or none. -/
theorem view_step (hhires : ∀ i, IsHire sha (hires i)) {s s' : State K}
    {a : Action} (h : step H hires s a = some s') :
    ∃ as, run (Anchor.step H) s.view as = some s'.view := by
  cases a with
  | hire i =>
      cases h
      cases hireEffect (hhires i) s.db with
      | left hruns hreceipts =>
          refine ⟨[], ?_⟩
          unfold State.view
          rw [hreceipts, run_nil]
      | wrote a b r hruns hreceipts hfresh hnull hrecord =>
          refine ⟨[.insert r.id r.createdAt (digest r.merkleLeaf)], ?_⟩
          have hcolumn : column r
              = ⟨r.id, r.createdAt, digest r.merkleLeaf, none, none⟩ := by
            unfold column
            rw [hnull.1, hnull.2]
          have hfree : s.view.table.any (fun q => q.id = r.id) = false := by
            rw [List.any_eq_false]
            intro q hq heq
            obtain ⟨r', hr', rfl⟩ := List.mem_map.1 hq
            exact hfresh r' hr' (of_decide_eq_true heq)
          have hstep : Anchor.step H s.view
                (.insert r.id r.createdAt (digest r.merkleLeaf))
              = some { s.view with
                  table := s.view.table ++ [column r] } := by
            rw [hcolumn]
            simp only [Anchor.step, Anchor.State.insert, hfree]
            rfl
          rw [run, hstep, Option.bind_some, run_nil]
          unfold State.view
          rw [hreceipts, List.map_append]
          rfl
  | anchor a =>
      simp only [step] at h
      split at h
      case isTrue => cases h
      case isFalse hinsert =>
        obtain ⟨t, ht, rfl⟩ := Option.map_eq_some_iff.1 h
        obtain ⟨f, hf, htable⟩ :=
          table_of_step (Bool.eq_false_of_not_eq_true hinsert) ht
        refine ⟨[a], ?_⟩
        rw [run, ht, Option.bind_some, run_nil, view_putBack hf htable]

/-- What the anchoring clients see from the start on is a run of theirs. -/
theorem view_run (hhires : ∀ i, IsHire sha (hires i)) {s s' : State K}
    {acts : List Action} (hrun : run (step H hires) s acts = some s') :
    ∃ as, run (Anchor.step H) s.view as = some s'.view :=
  run_simulated (fun h => view_step hhires h) hrun

theorem inv_view (hhires : ∀ i, IsHire sha (hires i)) {s : State K}
    {acts : List Action} (hrun : run (step H hires) init acts = some s) :
    Anchor.Inv H s.view := by
  obtain ⟨as, has⟩ := view_run hhires hrun
  exact Anchor.inv_run (Anchor.inv_init H) has

omit [Field K] [LinearOrder K] in
theorem putBack_view (s : State K) : s.putBack s.view = s := by
  have hrows : ∀ rows : List (ReceiptRow K),
      List.zipWith setColumns rows (rows.map column) = rows := by
    intro rows
    induction rows with
    | nil => rfl
    | cons r rows ih =>
        rw [List.map_cons, List.zipWith_cons_cons, ih]
        rfl
  unfold State.putBack
  have hreceipts : List.zipWith setColumns s.db.receipts s.view.table
      = s.db.receipts := hrows s.db.receipts
  rw [hreceipts]
  rfl

omit [Field K] [LinearOrder K] in
/-- Only the last of two steps is seen in the columns. -/
theorem putBack_putBack {s : State K} {t u : Anchor.State}
    (hlen : t.table.length = s.db.receipts.length) :
    (s.putBack t).putBack u = s.putBack u := by
  have hrows : ∀ (rows : List (ReceiptRow K)) (qs qs' : List Anchor.Receipt),
      qs.length = rows.length →
      List.zipWith setColumns (List.zipWith setColumns rows qs) qs'
        = List.zipWith setColumns rows qs' := by
    intro rows
    induction rows with
    | nil => exact fun qs qs' _ => rfl
    | cons r rows ih =>
        intro qs qs' h
        cases qs with
        | nil => cases h
        | cons q qs =>
            cases qs' with
            | nil => rfl
            | cons q' qs' =>
                rw [List.zipWith_cons_cons, List.zipWith_cons_cons,
                  List.zipWith_cons_cons, ih qs qs' (Nat.succ.inj h)]
                rfl
  unfold State.putBack
  rw [hrows s.db.receipts t.table u.table hlen]

omit [Field K] [LinearOrder K] in
/-- Conversely the clients can do on the platform what they can do on
what they see of it. -/
theorem run_anchor
    (hires : Nat → Db K → Outcome Exc (Db K) (Hired K)) {s : State K}
    {t : Anchor.State} {as : List Anchor.Action}
    (hinsert : ∀ a ∈ as, isInsert a = false)
    (hrun : run (Anchor.step H) s.view as = some t) :
    run (step H hires) s (as.map .anchor) = some (s.putBack t)
      ∧ (s.putBack t).view = t := by
  induction as generalizing s with
  | nil =>
      injection hrun with h
      rw [← h, putBack_view]
      exact ⟨rfl, rfl⟩
  | cons a as ih =>
      obtain ⟨ha, has⟩ := List.forall_mem_cons.1 hinsert
      obtain ⟨u, hu, hrest⟩ := (run_cons_eq_some _).1 hrun
      obtain ⟨f, hf, htable⟩ := table_of_step ha hu
      have hlen : u.table.length = s.db.receipts.length := by
        rw [htable, List.length_map]
        exact List.length_map _
      rw [← view_putBack hf htable] at hrest
      obtain ⟨hlater, hview⟩ := ih has hrest
      rw [putBack_putBack hlen] at hlater hview
      refine ⟨(run_cons_eq_some _).2 ⟨s.putBack u, ?_, hlater⟩, hview⟩
      rw [step, if_neg (by rw [ha]; decide), hu]
      rfl

-- ============================================================= what is kept

/-- One row but for what anchoring sets. -/
def SameRecord (r r' : ReceiptRow K) : Prop :=
  ∃ batch tx, r' = { r with batchId := batch, anchoredTx := tx }

omit [Field K] [LinearOrder K] in
/-- A receipt is its own record, -/
theorem SameRecord.refl (r : ReceiptRow K) : SameRecord r r := ⟨_, _, rfl⟩

omit [Field K] [LinearOrder K] in
/-- also under other columns, -/
theorem sameRecord_setColumns (r : ReceiptRow K) (q : Anchor.Receipt) :
    SameRecord r (setColumns r q) := ⟨_, _, rfl⟩

omit [Field K] [LinearOrder K] in
/-- and the record of its record. -/
theorem SameRecord.trans {r r' r'' : ReceiptRow K} (h : SameRecord r r')
    (h' : SameRecord r' r'') : SameRecord r r'' := by
  obtain ⟨b, tx, rfl⟩ := h
  obtain ⟨b', tx', rfl⟩ := h'
  exact ⟨b', tx', rfl⟩

/-- Runs stay; receipts stay but for what anchoring sets. -/
structure Kept (s s' : State K) : Prop where
  runs : ∀ a ∈ s.db.runs, a ∈ s'.db.runs
  receipts : ∀ r ∈ s.db.receipts, ∃ r' ∈ s'.db.receipts, SameRecord r r'

omit [Field K] [LinearOrder K] in
theorem Kept.refl (s : State K) : Kept s s where
  runs := fun _ h => h
  receipts := fun r h => ⟨r, h, .refl r⟩

omit [Field K] [LinearOrder K] in
theorem Kept.trans {s t u : State K} (h : Kept s t) (h' : Kept t u) :
    Kept s u where
  runs := fun a ha => h'.runs a (h.runs a ha)
  receipts := by
    intro r hr
    obtain ⟨r', hr', hsame⟩ := h.receipts r hr
    obtain ⟨r'', hr'', hsame'⟩ := h'.receipts r' hr'
    exact ⟨r'', hr'', hsame.trans hsame'⟩

omit [Field K] [LinearOrder K] in
/-- A client's step, row by row. -/
theorem receipts_putBack {s : State K} {t : Anchor.State}
    {f : Anchor.Receipt → Anchor.Receipt}
    (htable : t.table = s.view.table.map f) :
    (s.putBack t).db.receipts
      = s.db.receipts.map fun r => setColumns r (f (column r)) := by
  show List.zipWith setColumns s.db.receipts t.table = _
  rw [htable]
  exact zipWith_map f

omit [Field K] [LinearOrder K] in
/-- A row a client has worked on was there. -/
theorem mem_putBack {s : State K} {t : Anchor.State} {r : ReceiptRow K}
    (h : r ∈ (s.putBack t).db.receipts) :
    ∃ r₀ ∈ s.db.receipts, SameRecord r₀ r := by
  obtain ⟨i, hi, rfl⟩ := List.mem_iff_getElem.1 h
  have hlt : i < s.db.receipts.length := by
    simp only [State.putBack, List.length_zipWith] at hi
    omega
  refine ⟨s.db.receipts[i], List.getElem_mem _, ?_⟩
  simp only [State.putBack, List.getElem_zipWith]
  exact sameRecord_setColumns _ _

/-- A step keeps the runs, and the receipts up to their anchoring; -/
theorem kept_step (hhires : ∀ i, IsHire sha (hires i)) {s s' : State K}
    {a : Action} (h : step H hires s a = some s') : Kept s s' := by
  cases a with
  | hire i =>
      cases h
      cases hireEffect (hhires i) s.db with
      | left hruns hreceipts =>
          refine ⟨fun a ha => ?_, fun r hr => ⟨r, ?_, .refl r⟩⟩
          · rw [hruns]
            exact ha
          · rw [hreceipts]
            exact hr
      | wrote a b r hruns hreceipts hfresh hnull hrecord =>
          refine ⟨fun a ha => ?_, fun r hr => ⟨r, ?_, .refl r⟩⟩
          · rw [hruns]
            exact List.mem_append_left _ ha
          · rw [hreceipts]
            exact List.mem_append_left _ hr
  | anchor a =>
      simp only [step] at h
      split at h
      case isTrue => cases h
      case isFalse hinsert =>
        obtain ⟨t, ht, rfl⟩ := Option.map_eq_some_iff.1 h
        obtain ⟨f, -, htable⟩ :=
          table_of_step (Bool.eq_false_of_not_eq_true hinsert) ht
        refine ⟨fun _ h => h, fun r hr => ?_⟩
        rw [receipts_putBack htable]
        exact ⟨_, List.mem_map.2 ⟨r, hr, rfl⟩, sameRecord_setColumns r _⟩

/-- so does every run. -/
theorem kept_run (hhires : ∀ i, IsHire sha (hires i)) {s s' : State K}
    {acts : List Action} (hrun : run (step H hires) s acts = some s') :
    Kept s s' :=
  run_stable (fun (_ : True) _ => trivial) Kept.refl Kept.trans
    (fun _ h => kept_step hhires h) trivial hrun

-- ============================================================= the records

/-- A record does not see what anchoring sets. -/
theorem InTables.of_same {runs runs' : List (RunRow K)} {r r' : ReceiptRow K}
    {a : RunRow K} (h : InTables sha runs r a)
    (hruns : ∀ x ∈ runs, x ∈ runs') (hsame : SameRecord r r') :
    InTables sha runs' r' a := by
  obtain ⟨ha, b, hb, ra, rb, actions, hrec⟩ := h
  refine ⟨hruns a ha, b, hruns b hb, ra, rb, actions, ?_⟩
  obtain ⟨batch, tx, rfl⟩ := hsame
  obtain ⟨h1, h2, h3, h4, h5, h6, h7, h8, h9, h10, h11, h12, h13⟩ := hrec
  exact ⟨h1, h2, h3, h4, h5, h6, h7, h8, h9, h10, h11, h12, h13⟩

/-- Every receipt is the record of two runs in the table. -/
def AllRecorded (sha : PyVal K → String) (s : State K) : Prop :=
  ∀ r ∈ s.db.receipts, ∃ a, InTables sha s.db.runs r a

/-- A step leaves each receipt with its run, -/
theorem recorded_step (hhires : ∀ i, IsHire sha (hires i)) {s s' : State K}
    {a : Action} (hs : AllRecorded sha s) (h : step H hires s a = some s') :
    AllRecorded sha s' := by
  cases a with
  | hire i =>
      cases h
      cases hireEffect (hhires i) s.db with
      | left hruns hreceipts =>
          intro r hr
          rw [hreceipts] at hr
          obtain ⟨a, ha⟩ := hs r hr
          exact ⟨a, ha.of_same (by rw [hruns]; exact fun _ h => h)
            (.refl r)⟩
      | wrote a b r hruns hreceipts hfresh hnull hrecord =>
          intro r' hr'
          rw [hreceipts] at hr'
          rcases List.mem_append.1 hr' with hr' | hr'
          · obtain ⟨a', ha'⟩ := hs r' hr'
            refine ⟨a', ha'.of_same (fun x hx => ?_) (.refl r')⟩
            rw [hruns]
            exact List.mem_append_left _ hx
          · rw [List.mem_singleton.1 hr']
            exact ⟨a, hrecord⟩
  | anchor a =>
      simp only [step] at h
      split at h
      case isTrue => cases h
      case isFalse hinsert =>
        obtain ⟨t, ht, rfl⟩ := Option.map_eq_some_iff.1 h
        obtain ⟨f, -, htable⟩ :=
          table_of_step (Bool.eq_false_of_not_eq_true hinsert) ht
        intro r' hr'
        rw [receipts_putBack htable] at hr'
        obtain ⟨r, hr, rfl⟩ := List.mem_map.1 hr'
        obtain ⟨a, ha⟩ := hs r hr
        exact ⟨a, ha.of_same (fun _ h => h) (sameRecord_setColumns r _)⟩

/-- and so does every run. -/
theorem recorded_run (hhires : ∀ i, IsHire sha (hires i)) {s s' : State K}
    {acts : List Action} (hs : AllRecorded sha s)
    (hrun : run (step H hires) s acts = some s') : AllRecorded sha s' :=
  run_invariant (fun hs h => recorded_step hhires hs h) hs hrun

-- =============================================================== for good

omit [Field K] [LinearOrder K] in
theorem ids_view (s : State K) :
    s.view.table.map (fun q => q.id) = s.db.receipts.map fun r => r.id := by
  show (s.db.receipts.map column).map _ = _
  rw [List.map_map]
  rfl

/-- Whatever hires and anchoring clients do, in whatever order: ids stay
distinct, and a receipt is at every later moment the record it was, its
hash and its two runs included, in the batch it was put in. -/
theorem receipts_permanent (hhires : ∀ i, IsHire sha (hires i))
    {s s' : State K} {acts acts' : List Action}
    (hrun : run (step H hires) init acts = some s)
    (hrun' : run (step H hires) s acts' = some s') :
    (s.db.receipts.map fun r => r.id).Nodup
      ∧ ∀ r ∈ s.db.receipts, ∃ a ∈ s.db.runs, ∃ b ∈ s.db.runs,
          ∃ ra rb actions, Persist.Recorded sha a b r ra rb actions
            ∧ a ∈ s'.db.runs ∧ b ∈ s'.db.runs
            ∧ ∃ r' ∈ s'.db.receipts, SameRecord r r'
              ∧ Persist.Recorded sha a b r' ra rb actions
              ∧ ∀ x, r.batchId = some x → r'.batchId = some x := by
  have hs := (inv_view hhires hrun).db
  have hnodup := hs.ids
  rw [ids_view] at hnodup
  have hempty : AllRecorded sha (init (K := K)) := fun r hr => by cases hr
  refine ⟨hnodup, fun r hr => ?_⟩
  obtain ⟨a, ha, b, hb, ra, rb, actions, hrec⟩ :=
    recorded_run hhires hempty hrun r hr
  have hkept := kept_run hhires hrun'
  obtain ⟨r', hr', hsame⟩ := hkept.receipts r hr
  refine ⟨a, ha, b, hb, ra, rb, actions, hrec, hkept.runs a ha,
    hkept.runs b hb, r', hr', hsame, ?_, ?_⟩
  · obtain ⟨batch, tx, rfl⟩ := hsame
    obtain ⟨h1, h2, h3, h4, h5, h6, h7, h8, h9, h10, h11, h12, h13⟩ := hrec
    exact ⟨h1, h2, h3, h4, h5, h6, h7, h8, h9, h10, h11, h12, h13⟩
  · intro x hx
    obtain ⟨as, has⟩ := view_run hhires hrun'
    have hs' := Anchor.dbInv_run hs has
    obtain ⟨q, hq, hid, -, hbatch⟩ := (Anchor.stable_run hs has).rows
      (column r) (List.mem_map.2 ⟨r, hr, rfl⟩)
    -- the clients' row of that id is this one
    obtain ⟨r'', hr'', rfl⟩ := List.mem_map.1 hq
    have hids : r''.id = r'.id := by
      obtain ⟨batch, tx, rfl⟩ := hsame
      exact hid
    have hnodup' := hs'.ids
    rw [ids_view] at hnodup'
    have heq := List.inj_on_of_nodup_map hnodup' hr'' hr' hids
    rw [← heq]
    exact hbatch x hx

-- ============================================================= two hires

/-- A server that refuses nothing and gives each hire ids of its own. -/
def steadyServer (n : Nat) : Server ℚ where
  upsert := .ok ()
  upsertCommit := .ok ()
  agentRunId := .ok (Fin.ofNat _ (3 * n))
  baselineRunId := .ok (Fin.ofNat _ (3 * n + 1))
  receiptId := .ok (Fin.ofNat _ (3 * n + 2))
  commit := .ok ()
  pairId := Fin.ofNat _ n
  now := n
  createdAt := n
  agentWall := 0
  baselineWall := 0

/-- The hires, there, of an agent that always reports 1. -/
def steadyHire (n : Nat) : Db ℚ → Outcome Exc (Db ℚ) (Hired ℚ) :=
  runHire (fun _ => effs.hex)
    (fun _ => .ok ⟨"net_pnl_usd", "USD", 0⟩) Hires.steady 0 [] none true
    (steadyServer n)

theorem isHire_steady (n : Nat) :
    IsHire (fun _ => effs.hex) (steadyHire n) :=
  ⟨_, _, _, inferInstance, _, _, _, _, _, _, _, rfl⟩

/-- The receipt of its `n`-th hire. -/
def steadyRow (n : Nat) : ReceiptRow ℚ where
  id := Fin.ofNat _ (3 * n + 2)
  agentRunId := Fin.ofNat _ (3 * n)
  baselineRunId := Fin.ofNat _ (3 * n + 1)
  metric := "net_pnl_usd"
  unit := "USD"
  agentValue := 1
  baselineValue := 0
  delta := 1
  merkleLeaf := effs.hex
  createdAt := n

/-- After two of them. -/
def twoHires : State ℚ :=
  { (init : State ℚ) with
    db := (steadyHire 1 (steadyHire 0 ⟨[], [], []⟩).2).2 }

theorem run_twoHires :
    run (step Keccak.everyOther steadyHire) init [.hire 0, .hire 1]
      = some twoHires := rfl

theorem receipts_twoHires :
    twoHires.db.receipts = [steadyRow 0, steadyRow 1] := by
  with_unfolding_all rfl

def steadyColumn (n : Nat) : Anchor.Receipt :=
  ⟨Fin.ofNat _ (3 * n + 2), n, effs, none, none⟩

theorem view_twoHires :
    twoHires.view
      = { Anchor.init with table := [steadyColumn 0, steadyColumn 1] } := by
  have hcolumn : ∀ n, column (steadyRow n) = steadyColumn n := by
    intro n
    unfold column steadyRow steadyColumn
    simp only [digest_hex]
  unfold State.view
  rw [receipts_twoHires, List.map_cons, List.map_cons, hcolumn, hcolumn]
  rfl

/-- Their batch, and its anchoring. -/
def anchoring : List Anchor.Action :=
  [.callCreate 0 1, .count 0, .update 0 7, .commit 0, .deploy 100 9,
   .callSubmit 0 7 9 100, .readLeaves 0, .send 0 [1], .mine [1] 1000]

/-- Both are there as they were written once they are anchored. -/
theorem receipts_permanent_pair : ∃ s,
    run (step Keccak.everyOther steadyHire) twoHires (anchoring.map .anchor)
        = some s
      ∧ ∃ r ∈ s.db.receipts, SameRecord (steadyRow 1) r := by
  obtain ⟨t, ht⟩ := Option.isSome_iff_exists.1
    (show (run (Anchor.step .everyOther)
        { Anchor.init with table := [steadyColumn 0, steadyColumn 1] }
        anchoring).isSome = true by decide +kernel)
  rw [← view_twoHires] at ht
  obtain ⟨hrun, -⟩ := run_anchor steadyHire (by decide) ht
  obtain ⟨-, hrows⟩ := receipts_permanent isHire_steady run_twoHires hrun
  obtain ⟨a, -, b, -, ra, rb, actions, -, -, -, r, hr, hsame, -⟩ :=
    hrows (steadyRow 1) (by rw [receipts_twoHires]; simp)
  exact ⟨_, hrun, r, hr, hsame⟩

end Proofstand.Platform
