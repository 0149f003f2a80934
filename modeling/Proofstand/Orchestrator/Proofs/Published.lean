/-
What a root on the chain says about the numbers behind it.

A receipt's leaf is sha256 of the JSON text of its record, its batch's
root is Keccak over the leaves, and the event on the chain holds the root
and the count. Whoever later shows as many records with that root shows
the marketplace's own (`published_binds`), or has found two texts sha256
does not tell apart, or two byte strings Keccak does not: in the two
lists at hand, not anywhere.

# Collisions

No hash is injective, so nothing is proved from injectivity as such. The
theorem has two lists of texts before it, the receipts' and the shown
ones, and asks the hash to tell those apart. Given that, equal leaves are
equal texts, and equal texts are records with the same entries
(`says_of_hash`), up to the order of the keys, which `canonical_hash`
sorts.

# From the root to the leaves

The Merkle theorem gives the leaves of a root and a count; the leaves of a
batch are those of its receipts (`mem_leaves`), in a state that the
platform reached. Both inclusions are concluded: nothing shown is foreign,
and nothing of the batch is left out.
-/
import Proofstand.Orchestrator.Proofs.Platform
import Proofstand.Anchor.Proofs.Tampering
import Proofstand.Python.Proofs.Json

namespace Proofstand.Platform

open Anchor (Uuid Keccak Digest TellsApart hashed)
open Session Persist Hex Transition Json

variable {K : Type}

-- =============================================================== records

/-- What a receipt's leaf is the hash of. -/
def recordOf (a : RunRow K) (r : ReceiptRow K) : PyVal K :=
  .dict
    [("agent", .str a.agentId), ("tier", .int a.tier),
     ("task_hash", .str a.taskHash),
     ("data_snapshot_hash", .str a.dataSnapshotHash),
     ("metric", .str r.metric), ("unit", .str r.unit),
     ("agent_value", .float (.fin r.agentValue)),
     ("baseline_value", .float (.fin r.baselineValue)),
     ("delta", .float (.fin r.delta))]

/-- A value with the entries of a receipt's record. -/
structure Says (v : PyVal K) (a : RunRow K) (r : ReceiptRow K) : Prop where
  agent : v.get? "agent" = some (.str a.agentId)
  tier : v.get? "tier" = some (.int a.tier)
  taskHash : v.get? "task_hash" = some (.str a.taskHash)
  snapshot : v.get? "data_snapshot_hash" = some (.str a.dataSnapshotHash)
  metric : v.get? "metric" = some (.str r.metric)
  unit : v.get? "unit" = some (.str r.unit)
  agentValue : v.get? "agent_value" = some (.float (.fin r.agentValue))
  baselineValue :
    v.get? "baseline_value" = some (.float (.fin r.baselineValue))
  delta : v.get? "delta" = some (.float (.fin r.delta))

/-- A value without parts. -/
def atomic : PyVal K → Bool
  | .list _ | .dict _ => false
  | _ => true

theorem canon_atomic {u : PyVal K} (h : atomic u = true) : u.canon = u := by
  cases u with
  | list vs => cases h
  | dict kvs => cases h
  | none => exact PyVal.canon_none
  | bool b => exact PyVal.canon_bool b
  | int n => exact PyVal.canon_int n
  | float x => exact PyVal.canon_float x
  | str s => exact PyVal.canon_str s

theorem eq_of_canon_atomic {u w : PyVal K} (hu : atomic u = true)
    (h : w.canon = u) : w = u := by
  cases w with
  | list vs =>
      rw [PyVal.canon] at h
      rw [← h] at hu
      cases hu
  | dict kvs =>
      rw [PyVal.canon] at h
      rw [← h] at hu
      cases hu
  | _ => rwa [canon_atomic rfl] at h

/-- An entry without parts, read from a value of the same canonical
form. -/
theorem entry_of_canon {v w u : PyVal K} (h : v.canon = w.canon) {k : String}
    (hu : atomic u = true) (hw : w.get? k = some u) : v.get? k = some u := by
  have hmap := PyVal.get?_of_canon_eq h k
  rw [hw, Option.map_some, canon_atomic hu] at hmap
  obtain ⟨x, hx, hcanon⟩ := Option.map_eq_some_iff.1 hmap
  rw [hx, eq_of_canon_atomic hu hcanon]

/-- A value equal to a receipt's record up to its keys' order says what the
receipt says. -/
theorem says_of_canon {v : PyVal K} {a : RunRow K} {r : ReceiptRow K}
    (h : v.canon = (recordOf a r).canon) : Says v a r where
  agent := entry_of_canon h rfl rfl
  tier := entry_of_canon h rfl rfl
  taskHash := entry_of_canon h rfl rfl
  snapshot := entry_of_canon h rfl rfl
  metric := entry_of_canon h rfl rfl
  unit := entry_of_canon h rfl rfl
  agentValue := entry_of_canon h rfl rfl
  baselineValue := entry_of_canon h rfl rfl
  delta := entry_of_canon h rfl rfl

variable [Field K] [LinearOrder K]

/-- The numbers of a receipt are floats with their texts. -/
def FloatNumbers (repr : K → String) (r : ReceiptRow K) : Prop :=
  FloatText repr r.agentValue ∧ FloatText repr r.baselineValue
    ∧ FloatText repr r.delta

omit [LinearOrder K] in
/-- `json.dumps` writes a receipt's record. -/
theorem writes_recordOf {repr : K → String} (a : RunRow K)
    {r : ReceiptRow K} (h : FloatNumbers repr r) :
    Writes repr (recordOf a r) := by
  simp [recordOf, Writes, WritesDict, h.1, h.2.1, h.2.2]

-- ================================================================= hashes

/-- `canonical_hash`, of texts: sha256 in hex. -/
def shaText (sha256 : String → Digest) (repr : K → String) : PyVal K → String :=
  shaOfText (fun t => (sha256 t).hex) repr

/-- The text `canonical_hash` hashes. -/
def hashedText (repr : K → String) (v : PyVal K) : String :=
  dumps compact repr v.canon

/-- The texts behind the leaves of a batch. -/
def batchTexts (repr : K → String) (s : State K) (b : Uuid) : List String :=
  (s.db.receipts.filter fun r => r.batchId = some b).flatMap fun r =>
    (s.db.runs.filter fun a => a.id = r.agentRunId).map fun a =>
      hashedText repr (recordOf a r)

omit [Field K] [LinearOrder K] in
theorem mem_batchTexts {repr : K → String} {s : State K} {b : Uuid}
    {r : ReceiptRow K} {a : RunRow K} (hr : r ∈ s.db.receipts)
    (hb : r.batchId = some b) (ha : a ∈ s.db.runs)
    (hid : a.id = r.agentRunId) :
    hashedText repr (recordOf a r) ∈ batchTexts repr s b := by
  refine List.mem_flatMap.2 ⟨r, ?_, List.mem_map.2 ⟨a, ?_, rfl⟩⟩
  · exact List.mem_filter.2 ⟨hr, decide_eq_true hb⟩
  · exact List.mem_filter.2 ⟨ha, decide_eq_true hid⟩

omit [LinearOrder K] in
/-- A hash in common is a record in common, where sha256 tells the two
texts apart. -/
theorem says_of_hash {sha256 : String → Digest} {repr : K → String}
    {v : PyVal K} {a : RunRow K} {r : ReceiptRow K} (hv : Writes repr v)
    (hr : FloatNumbers repr r)
    (hsha : (sha256 (hashedText repr (recordOf a r))).hex
        = (sha256 (hashedText repr v)).hex →
      hashedText repr (recordOf a r) = hashedText repr v)
    (h : canonicalHash (shaText sha256 repr) (recordOf a r)
      = canonicalHash (shaText sha256 repr) v) : Says v a r := by
  have htext := hsha h
  exact says_of_canon
    ((eq_canon_of_dumps hv (writes_recordOf a hr)).1 htext.symm)

-- ============================================================== the batch

variable {H : Keccak} {repr : K → String} {sha256 : String → Digest}
  {hires : Nat → Db K → Outcome Exc (Db K) (Hired K)}

/-- The leaf of a receipt is its record's hash, and a digest. -/
theorem leaf_of_inTables {runs : List (RunRow K)} {r : ReceiptRow K}
    {a : RunRow K} (h : InTables (shaText sha256 repr) runs r a) :
    a.id = r.agentRunId
      ∧ r.merkleLeaf
        = canonicalHash (shaText sha256 repr) (recordOf a r)
      ∧ (digest r.merkleLeaf).hex = r.merkleLeaf := by
  obtain ⟨-, b, -, ra, rb, actions, hrec⟩ := h
  refine ⟨hrec.points.1.symm, hrec.leaf, ?_⟩
  rw [hrec.leaf]
  exact congrArg Digest.hex (digest_hex _)

/-- The leaves of a batch are those of its receipts. -/
theorem mem_leaves {s : State K} {b : Uuid} {leaf : String}
    (hs : AllRecorded (shaText sha256 repr) s) :
    leaf ∈ Anchor.batchLeaves s.view.table b
      ↔ ∃ r ∈ s.db.receipts, r.batchId = some b ∧ r.merkleLeaf = leaf := by
  rw [Anchor.mem_batchLeaves]
  constructor
  · intro h
    obtain ⟨q, hq, hb, rfl⟩ := h
    obtain ⟨r, hr, rfl⟩ := List.mem_map.1 hq
    obtain ⟨a, ha⟩ := hs r hr
    exact ⟨r, hr, hb, (leaf_of_inTables ha).2.2.symm⟩
  · intro h
    obtain ⟨r, hr, hb, rfl⟩ := h
    obtain ⟨a, ha⟩ := hs r hr
    exact ⟨column r, List.mem_map.2 ⟨r, hr, rfl⟩, hb,
      (leaf_of_inTables ha).2.2⟩

/-- Records that recompute an anchored batch's root and count are the
batch's: every receipt of it is shown, with its agent, tier, hashes,
metric and numbers, and nothing else is. -/
theorem published_binds
    (hhires : ∀ i, IsHire (shaText sha256 repr) (hires i)) {s : State K}
    {acts : List Action} (hrun : run (step H hires) init acts = some s)
    {addr : Anchor.Address} {b : Uuid} {root : Bytes} {count ts : Nat}
    (hevent : (addr, Anchor.Event.batchAnchored (Anchor.batchIdToUint b) root
      count ts) ∈ s.chain.logs)
    {shown : List (PyVal K)} (hcount : shown.length = count)
    (hroot : Anchor.merkleRoot (Anchor.byteNodes H)
      (shown.map (canonicalHash (shaText sha256 repr))) = .ok (hex0x root))
    (hshown : ∀ v ∈ shown, Writes repr v)
    (hfloats : ∀ r ∈ s.db.receipts, r.batchId = some b →
      FloatNumbers repr r)
    (hsha : TellsApart (fun t => (sha256 t).hex) (batchTexts repr s b)
      (shown.map (hashedText repr)))
    (hkeccak : TellsApart H.digest
      (hashed H (Anchor.batchLeaves s.view.table b))
      (hashed H (shown.map (canonicalHash (shaText sha256 repr))))) :
    (∀ r ∈ s.db.receipts, r.batchId = some b → ∃ v ∈ shown,
        ∃ a ∈ s.db.runs, a.id = r.agentRunId ∧ Says v a r)
      ∧ ∀ v ∈ shown, ∃ r ∈ s.db.receipts, r.batchId = some b
        ∧ ∃ a ∈ s.db.runs, a.id = r.agentRunId ∧ Says v a r := by
  have hempty : AllRecorded (shaText sha256 repr) (init (K := K)) :=
    fun r hr => by cases hr
  have hs := recorded_run hhires hempty hrun
  obtain ⟨b', hid, hne, hroot', hlen⟩ :=
    (inv_view hhires hrun).chain.anchored addr _ root count ts hevent
  obtain rfl := Anchor.batchIdToUint_inj hid
  -- the two lists, as digests
  have hleaves : Anchor.batchLeaves s.view.table b'
      = (((Anchor.batchRows s.view.table b').insertionSort
          Anchor.orderLe).map fun q => q.merkleLeaf).map Digest.hex := by
    rw [List.map_map]
    rfl
  have hhashes : shown.map (canonicalHash (shaText sha256 repr))
      = (shown.map fun v => sha256 (hashedText repr v)).map Digest.hex := by
    rw [List.map_map]
    rfl
  rw [hhashes] at hroot hkeccak
  rw [hleaves] at hroot' hkeccak hlen hne
  have hmem := Anchor.digests_of_root H
    (fun h => hne (by rw [h]; rfl))
    (by
      rw [List.length_map] at hlen
      rw [← hlen, List.length_map, hcount])
    hroot' hroot hkeccak
  rw [← hleaves, ← hhashes] at hmem
  constructor
  · intro r hr hb
    obtain ⟨a, ha⟩ := hs r hr
    obtain ⟨hpoints, hleaf, -⟩ := leaf_of_inTables ha
    have hin := (hmem r.merkleLeaf).1 ((mem_leaves hs).2 ⟨r, hr, hb, rfl⟩)
    obtain ⟨v, hv, hhash⟩ := List.mem_map.1 hin
    refine ⟨v, hv, a, ha.agentRun, hpoints, ?_⟩
    exact says_of_hash (hshown v hv) (hfloats r hr hb)
      (hsha _ (mem_batchTexts hr hb ha.agentRun hpoints) _
        (List.mem_map_of_mem hv))
      (hleaf.symm.trans hhash.symm)
  · intro v hv
    have hin := (hmem _).2 (List.mem_map_of_mem hv)
    obtain ⟨r, hr, hb, hhash⟩ := (mem_leaves hs).1 hin
    obtain ⟨a, ha⟩ := hs r hr
    obtain ⟨hpoints, hleaf, -⟩ := leaf_of_inTables ha
    refine ⟨r, hr, hb, a, ha.agentRun, hpoints, ?_⟩
    exact says_of_hash (hshown v hv) (hfloats r hr hb)
      (hsha _ (mem_batchTexts hr hb ha.agentRun hpoints) _
        (List.mem_map_of_mem hv))
      (hleaf.symm.trans hhash)

-- ==================================================== two records, shown

attribute [local instance] JsonText.neZero_16

/-- An agent that reports 1 on its first hire and 2 on its second. -/
def rising (n : Nat) : LiveAgent ℚ Unit Unit Unit :=
  { Hires.steady with
    report := fun s _ _ =>
      .ok (⟨"net_pnl_usd", "USD", if n = 0 then 1 else 2⟩, s) }

def risingHire (sha : PyVal ℚ → String) (n : Nat) :
    Db ℚ → Outcome Exc (Db ℚ) (Hired ℚ) :=
  runHire sha (fun _ => .ok ⟨"net_pnl_usd", "USD", 0⟩) (rising n) 0 [] none
    true (steadyServer n)

theorem isHire_rising (sha : PyVal ℚ → String) (n : Nat) :
    IsHire sha (risingHire sha n) :=
  ⟨_, _, _, inferInstance, _, _, _, _, _, _, _, rfl⟩

def steadyTask : PyVal ℚ :=
  Harness.task Hires.steady.manifest.toManifest 0 []

/-- The record of one of its hires, where `value` is what it reported. -/
def risingRecord (sha : PyVal ℚ → String) (value : ℚ) : PyVal ℚ :=
  .dict
    [("agent", .str "steady"), ("tier", .int 0),
     ("task_hash", .str (canonicalHash sha steadyTask)),
     ("data_snapshot_hash", .str (canonicalHash sha (.dict []))),
     ("metric", .str "net_pnl_usd"), ("unit", .str "USD"),
     ("agent_value", .float (.fin value)),
     ("baseline_value", .float (.fin 0)), ("delta", .float (.fin value))]

/-- The receipt of the `n`-th. -/
def risingRow (sha : PyVal ℚ → String) (n : Nat) (value : ℚ) :
    ReceiptRow ℚ where
  id := Fin.ofNat _ (3 * n + 2)
  agentRunId := Fin.ofNat _ (3 * n)
  baselineRunId := Fin.ofNat _ (3 * n + 1)
  metric := "net_pnl_usd"
  unit := "USD"
  agentValue := value
  baselineValue := 0
  delta := value
  merkleLeaf := canonicalHash sha (risingRecord sha value)
  createdAt := n

/-- After its two hires. -/
def risen (sha : PyVal ℚ → String) : State ℚ :=
  { (init : State ℚ) with
    db := (risingHire sha 1 (risingHire sha 0 ⟨[], [], []⟩).2).2 }

/-- The two hires leave two receipts. -/
theorem receipts_risen (sha : PyVal ℚ → String) :
    (risen sha).db.receipts = [risingRow sha 0 1, risingRow sha 1 2] := by
  with_unfolding_all rfl

/-- All four runs are of one agent, task and snapshot. -/
theorem runs_risen (sha : PyVal ℚ → String) :
    (risen sha).db.runs.map
        (fun a => (a.agentId, a.tier, a.taskHash, a.dataSnapshotHash))
      = List.replicate 4 ("steady", 0, canonicalHash sha steadyTask,
          canonicalHash sha (.dict [])) := by
  with_unfolding_all rfl

/-- Whatever a client does to its own columns, the numbers of a receipt
stay those of one of the hires. -/
theorem row_risen {sha : PyVal ℚ → String} {t : Anchor.State}
    {r : ReceiptRow ℚ} (hr : r ∈ ((risen sha).putBack t).db.receipts) :
    (r.agentValue = 1 ∨ r.agentValue = 2) ∧ r.metric = "net_pnl_usd"
      ∧ r.unit = "USD" ∧ r.baselineValue = 0 ∧ r.delta = r.agentValue := by
  obtain ⟨r₀, hr₀, batch, tx, rfl⟩ := mem_putBack hr
  rw [receipts_risen] at hr₀
  rcases List.mem_pair.1 hr₀ with rfl | rfl
  · exact ⟨Or.inl rfl, rfl, rfl, rfl, rfl⟩
  · exact ⟨Or.inr rfl, rfl, rfl, rfl, rfl⟩

/-- Each has its own record. -/
theorem recordOf_risen {sha : PyVal ℚ → String} {t : Anchor.State}
    {r : ReceiptRow ℚ} (hr : r ∈ ((risen sha).putBack t).db.receipts)
    {a : RunRow ℚ} (ha : a ∈ ((risen sha).putBack t).db.runs) :
    recordOf a r = risingRecord sha r.agentValue := by
  have hrow := List.eq_of_mem_replicate
    ((runs_risen sha) ▸ List.mem_map_of_mem (f := fun a : RunRow ℚ =>
      (a.agentId, a.tier, a.taskHash, a.dataSnapshotHash)) ha)
  simp only [Prod.mk.injEq] at hrow
  obtain ⟨hagent, htier, htask, hsnapshot⟩ := hrow
  obtain ⟨-, hmetric, hunit, hbaseline, hdelta⟩ := row_risen hr
  rw [recordOf, hagent, htier, htask, hsnapshot, hmetric, hunit, hbaseline,
    hdelta]
  rfl

/-- `float.__repr__` where it is called. -/
def risingRepr (x : ℚ) : String :=
  if x = 0 then "0.0" else if x = 1 then "1.0" else "2.0"

/-- The numbers are spelled as themselves, -/
theorem floatText_rising {x : ℚ} (h : x = 0 ∨ x = 1 ∨ x = 2) :
    FloatText risingRepr x := by
  rcases h with rfl | rfl | rfl
  · exact ⟨by decide +kernel, by decide +kernel⟩
  · exact ⟨by decide +kernel, by decide +kernel⟩
  · exact ⟨by decide +kernel, by decide +kernel⟩

/-- so a record can be written. -/
theorem writes_risingRecord (sha : PyVal ℚ → String) {x : ℚ}
    (hx : x = 1 ∨ x = 2) : Writes risingRepr (risingRecord sha x) := by
  simp [risingRecord, Writes, WritesDict, floatText_rising (Or.inl rfl),
    floatText_rising (Or.inr hx)]

/-- In sha256's place: a hash that goes by the agent's value in the text. -/
def byValue (t : String) : Digest :=
  match (loads t : Py (PyVal ℚ)) with
  | .ok v =>
      match v.get? "agent_value" with
      | some (.float (.fin x)) => .ofDigit (if x = 2 then 2 else 1)
      | _ => .ofDigit 0
  | .error _ => .ofDigit 0

theorem byValue_risingRecord (sha : PyVal ℚ → String) {x : ℚ}
    (hx : x = 1 ∨ x = 2) :
    byValue (hashedText risingRepr (risingRecord sha x))
      = .ofDigit (if x = 2 then 2 else 1) := by
  have hget : (risingRecord sha x).canon.get? "agent_value"
      = some (.float (.fin x)) := by
    rw [PyVal.get?_canon]
    show some ((PyVal.float (.fin x)).canon) = _
    rw [PyVal.canon_float]
  rw [byValue, hashedText,
    loads_text compact (writes_canon _ (writes_risingRecord sha hx))]
  simp only [hget]

theorem value_of_hash {sha : PyVal ℚ → String} {x y : ℚ}
    (hx : x = 1 ∨ x = 2) (hy : y = 1 ∨ y = 2)
    (h : (byValue (hashedText risingRepr (risingRecord sha x))).hex
      = (byValue (hashedText risingRepr (risingRecord sha y))).hex) :
    x = y := by
  rw [byValue_risingRecord sha hx, byValue_risingRecord sha hy] at h
  rcases hx with rfl | rfl
  · rcases hy with rfl | rfl
    · rfl
    · exact absurd h (by decide +kernel)
  · rcases hy with rfl | rfl
    · exact absurd h (by decide +kernel)
    · rfl

/-- `canonical_hash` with it. -/
abbrev risingSha : PyVal ℚ → String := shaText byValue risingRepr

theorem hash_risingRecord {x : ℚ} (hx : x = 1 ∨ x = 2) :
    canonicalHash risingSha (risingRecord risingSha x)
      = (Digest.ofDigit (if x = 2 then 2 else 1)).hex :=
  congrArg Digest.hex (byValue_risingRecord risingSha hx)

/-- What the anchoring clients see of its receipts. -/
def risingTable : Anchor.Table :=
  [⟨2, 0, .ofDigit 1, none, none⟩, ⟨5, 1, .ofDigit 2, none, none⟩]

theorem view_risen :
    (risen risingSha).view = { Anchor.init with table := risingTable } := by
  have hfirst : column (risingRow risingSha 0 1)
      = ⟨2, 0, .ofDigit 1, none, none⟩ := by
    rw [column, risingRow, hash_risingRecord (Or.inl rfl), digest_hex]
    rfl
  have hsecond : column (risingRow risingSha 1 2)
      = ⟨5, 1, .ofDigit 2, none, none⟩ := by
    rw [column, risingRow, hash_risingRecord (Or.inr rfl), digest_hex]
    rfl
  unfold State.view
  rw [receipts_risen, List.map_cons, List.map_cons, hfirst, hsecond]
  rfl

/-- What is shown of them: the second hire's record, then the first's. -/
abbrev shownRecords : List (PyVal ℚ) :=
  [risingRecord risingSha 2, risingRecord risingSha 1]

theorem mem_shownRecords {v : PyVal ℚ} (hv : v ∈ shownRecords) :
    ∃ x : ℚ, (x = 1 ∨ x = 2) ∧ v = risingRecord risingSha x := by
  rcases List.mem_pair.1 hv with rfl | rfl
  · exact ⟨2, Or.inr rfl, rfl⟩
  · exact ⟨1, Or.inl rfl, rfl⟩

theorem hashes_shownRecords :
    shownRecords.map (canonicalHash risingSha)
      = [(Digest.ofDigit 2).hex, (Digest.ofDigit 1).hex] := by
  rw [shownRecords, List.map_cons, List.map_cons,
    hash_risingRecord (Or.inl rfl), hash_risingRecord (Or.inr rfl)]
  rfl

/-- The hash tells the texts of the receipts from those of what is shown. -/
theorem tellsApart_shownRecords (t : Anchor.State) (b : Uuid) :
    TellsApart (fun u => (byValue u).hex)
      (batchTexts risingRepr ((risen risingSha).putBack t) b)
      (shownRecords.map (hashedText risingRepr)) := by
  intro u hu v hv heq
  obtain ⟨r, hr, hu⟩ := List.mem_flatMap.1 hu
  obtain ⟨a, ha, rfl⟩ := List.mem_map.1 hu
  obtain ⟨w, hw, rfl⟩ := List.mem_map.1 hv
  obtain ⟨x, hx, rfl⟩ := mem_shownRecords hw
  have hr := List.mem_of_mem_filter hr
  rw [recordOf_risen hr (List.mem_of_mem_filter ha)] at heq ⊢
  rw [value_of_hash (row_risen hr).1 hx heq]

/-- Both hires are shown, the second first. -/
theorem published_binds_pair : ∃ s,
    run (step Keccak.everyOther (risingHire risingSha)) init
        (.hire 0 :: .hire 1 :: anchoring.map .anchor) = some s
      ∧ (∀ r ∈ s.db.receipts, r.batchId = some 7 →
        ∃ v ∈ [risingRecord risingSha 2, risingRecord risingSha 1],
          ∃ a ∈ s.db.runs, a.id = r.agentRunId ∧ Says v a r)
      ∧ ∀ v ∈ [risingRecord risingSha 2, risingRecord risingSha 1],
        ∃ r ∈ s.db.receipts, r.batchId = some 7
          ∧ ∃ a ∈ s.db.runs, a.id = r.agentRunId ∧ Says v a r := by
  obtain ⟨t, ht, hfacts⟩ := (Option.any_eq_true (fun t : Anchor.State =>
      t.chain.logs.contains (100, .batchAnchored 7
        (List.replicate 16 17 ++ List.replicate 16 34) 2 1000)
      && decide (TellsApart Keccak.everyOther.digest
        (hashed .everyOther (Anchor.batchLeaves t.table 7))
        (hashed .everyOther
          [(Digest.ofDigit 2).hex, (Digest.ofDigit 1).hex])))
    (run (Anchor.step .everyOther)
      { Anchor.init with table := risingTable } anchoring)).1
    (by decide +kernel)
  rw [Bool.and_eq_true, List.contains_iff_mem, decide_eq_true_iff] at hfacts
  obtain ⟨hlogs, hkeccak⟩ := hfacts
  rw [← view_risen] at ht
  obtain ⟨hrun, hview⟩ := run_anchor (risingHire risingSha) (by decide) ht
  have hrun' : run (step Keccak.everyOther (risingHire risingSha)) init
      (.hire 0 :: .hire 1 :: anchoring.map .anchor)
        = some ((risen risingSha).putBack t) :=
    (run_cons_eq_some _).2
      ⟨_, rfl, (run_cons_eq_some _).2 ⟨risen risingSha, rfl, hrun⟩⟩
  refine ⟨_, hrun', published_binds (b := 7) (isHire_rising risingSha) hrun'
    hlogs (show shownRecords.length = 2 from rfl) ?_ ?_ ?_
    (tellsApart_shownRecords t 7) ?_⟩
  · rw [hashes_shownRecords]
    decide +kernel
  · intro v hv
    obtain ⟨x, hx, rfl⟩ := mem_shownRecords hv
    exact writes_risingRecord risingSha hx
  · intro r hr _
    obtain ⟨hvalue, -, -, hbaseline, hdelta⟩ := row_risen hr
    rw [FloatNumbers, hbaseline, hdelta]
    exact ⟨floatText_rising (Or.inr hvalue), floatText_rising (Or.inl rfl),
      floatText_rising (Or.inr hvalue)⟩
  · rw [hview, hashes_shownRecords]
    exact hkeccak

end Proofstand.Platform
