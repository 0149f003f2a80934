/-
What the statements do to a batch.

A batch's leaves are read off its rows' ids, creation times and leaf
texts, so a statement that leaves those of the batch's rows alone leaves
the batch alone (`batchLeaves_of_map`): an insert adds a row without a
batch, an assignment to another batch takes rows without one, and
`anchored_tx` is none of the three. `proofFor_batched` is the read side.

# Three columns

Every statement maps or extends the list of rows. A lemma of this module
says which rows of one batch a statement touches, and the lemma for the
leaves follows from `batchLeaves_of_map`, since sorting and reading leaves
look at ids, creation times and leaf texts and at nothing else. That is
why an UPDATE of `anchored_tx` is free, and why an assignment needs the
rows it takes to be in no batch yet.

# Reading

`proof_for` reads twice. The lemmas about it allow for that: they take the
row from one table and the leaves from a later one, and ask of the two
only that the batch's leaves are the same in both.
-/
import Proofstand.Anchor.Store
import Proofstand.Anchor.Proofs.Merkle
import Proofstand.Lib.Fallible

namespace Proofstand.Anchor

open Hex

-- ================================================================= rows

@[simp] theorem ids_assignBatch (t : Table) (sel : Uuid → Bool) (b : Uuid) :
    (assignBatch t sel b).map (·.id) = t.map (·.id) := by
  rw [assignBatch, List.map_map]
  refine List.map_congr_left fun r _ => ?_
  show (if sel r.id then { r with batchId := some b } else r).id = r.id
  split
  · rfl
  · rfl

@[simp] theorem ids_setAnchored (t : Table) (b : Uuid) (tx : String) :
    (setAnchored t b tx).map (·.id) = t.map (·.id) := by
  rw [setAnchored, List.map_map]
  refine List.map_congr_left fun r _ => ?_
  show (if r.batchId = some b then { r with anchoredTx := some tx }
    else r).id = r.id
  split
  · rfl
  · rfl

/-- Rows after an assignment: a selected one with the batch, or an old
one that was not selected. -/
theorem mem_assignBatch {t : Table} {sel : Uuid → Bool} {b : Uuid}
    {r : Receipt} :
    r ∈ assignBatch t sel b ↔ ∃ r₀ ∈ t,
      (sel r₀.id = true ∧ r = { r₀ with batchId := some b })
        ∨ (sel r₀.id = false ∧ r = r₀) := by
  rw [assignBatch, List.mem_map]
  constructor
  · intro h
    obtain ⟨r₀, hr₀, rfl⟩ := h
    refine ⟨r₀, hr₀, ?_⟩
    cases h : sel r₀.id with
    | true => exact Or.inl ⟨rfl, if_pos rfl⟩
    | false => exact Or.inr ⟨rfl, if_neg (by simp)⟩
  · intro h
    rcases h with ⟨r₀, hr₀, ⟨h, rfl⟩ | ⟨h, rfl⟩⟩
    · exact ⟨r₀, hr₀, if_pos h⟩
    · exact ⟨r, hr₀, if_neg (by simp [h])⟩

theorem mem_setAnchored {t : Table} {b : Uuid} {tx : String} {r : Receipt} :
    r ∈ setAnchored t b tx ↔ ∃ r₀ ∈ t,
      (r₀.batchId = some b ∧ r = { r₀ with anchoredTx := some tx })
        ∨ (r₀.batchId ≠ some b ∧ r = r₀) := by
  rw [setAnchored, List.mem_map]
  constructor
  · intro h
    obtain ⟨r₀, hr₀, rfl⟩ := h
    refine ⟨r₀, hr₀, ?_⟩
    by_cases h : r₀.batchId = some b
    · exact Or.inl ⟨h, if_pos h⟩
    · exact Or.inr ⟨h, if_neg h⟩
  · intro h
    rcases h with ⟨r₀, hr₀, ⟨h, rfl⟩ | ⟨h, rfl⟩⟩
    · exact ⟨r₀, hr₀, if_pos h⟩
    · exact ⟨r, hr₀, if_neg h⟩

/-- Among rows with distinct ids, the id is the row. -/
theorem eq_of_id_eq {t : Table} (hids : (t.map (·.id)).Nodup)
    {r r' : Receipt} (hr : r ∈ t) (hr' : r' ∈ t) (h : r.id = r'.id) : r = r' :=
  List.inj_on_of_nodup_map hids hr hr' h

/-- Ids being distinct, a row is the one its id selects. -/
theorem selectById_eq {t : Table} (hids : (t.map (·.id)).Nodup) {r : Receipt}
    (hr : r ∈ t) : selectById t r.id = some r := by
  obtain ⟨r', hr'⟩ : ∃ r', selectById t r.id = some r' := by
    rw [← Option.isSome_iff_exists, selectById, List.find?_isSome]
    exact ⟨r, hr, by simp⟩
  have hid : r'.id = r.id := by simpa using List.find?_some hr'
  rw [hr', eq_of_id_eq hids (List.mem_of_find?_eq_some hr') hr hid]

-- ============================================================ the leaves

theorem mem_batchRows {t : Table} {b : Uuid} {r : Receipt} :
    r ∈ batchRows t b ↔ r ∈ t ∧ r.batchId = some b := by
  rw [batchRows, List.mem_filter, decide_eq_true_iff]

theorem mem_batchLeaves {t : Table} {b : Uuid} {leaf : String} :
    leaf ∈ batchLeaves t b
      ↔ ∃ r ∈ t, r.batchId = some b ∧ r.merkleLeaf.hex = leaf := by
  simp only [batchLeaves, List.mem_map, List.mem_insertionSort, mem_batchRows,
    and_assoc]

@[simp] theorem batchLeaves_length (t : Table) (b : Uuid) :
    (batchLeaves t b).length = (batchRows t b).length := by
  rw [batchLeaves, List.length_map, List.length_insertionSort]

/-- The leaves only depend on the batch's rows, and of those on three
columns. -/
theorem batchLeaves_of_map {t t' : Table} {b : Uuid} {f : Receipt → Receipt}
    (hrows : batchRows t' b = (batchRows t b).map f)
    (hid : ∀ r, (f r).id = r.id) (hcreated : ∀ r, (f r).createdAt = r.createdAt)
    (hleaf : ∀ r, (f r).merkleLeaf = r.merkleLeaf) :
    batchLeaves t' b = batchLeaves t b := by
  have hle : ∀ r ∈ batchRows t b, ∀ r' ∈ batchRows t b,
      (orderLe r r' ↔ orderLe (f r) (f r')) := by
    intro r _ r' _
    simp only [orderLe, hid, hcreated]
  rw [batchLeaves, hrows,
    ← List.map_insertionSort (r := orderLe) (s := orderLe) f _ hle,
    List.map_map, batchLeaves]
  exact List.map_congr_left fun r _ => by rw [Function.comp_apply, hleaf]

/-- A new receipt belongs to no batch, -/
theorem batchRows_insert (t : Table) {r : Receipt} (hr : r.batchId = none)
    (b : Uuid) : batchRows (t ++ [r]) b = batchRows t b := by
  simp [batchRows, hr]

/-- an assignment of rows without a batch to another leaves this one alone, -/
theorem batchRows_assignBatch {t : Table} {sel : Uuid → Bool} {b b' : Uuid}
    (hsel : ∀ r ∈ t, sel r.id = true → r.batchId = none) (hne : b' ≠ b) :
    batchRows (assignBatch t sel b) b' = batchRows t b' := by
  induction t with
  | nil => rfl
  | cons r t ih =>
      have htail := ih fun r' hr' => hsel r' (List.mem_cons_of_mem _ hr')
      simp only [batchRows, assignBatch, List.map_cons] at htail ⊢
      by_cases hs : sel r.id = true
      · have hnone := hsel r List.mem_cons_self hs
        rw [if_pos hs, List.filter_cons_of_neg, List.filter_cons_of_neg, htail]
        · simp [hnone]
        · simpa using fun h => hne h.symm
      · rw [if_neg hs, List.filter_cons, List.filter_cons, htail]

/-- and the UPDATE of `anchored_tx` sets that column and no other. -/
theorem batchRows_setAnchored (t : Table) (b b' : Uuid) (tx : String) :
    batchRows (setAnchored t b tx) b' = (batchRows t b').map fun r =>
      if r.batchId = some b then { r with anchoredTx := some tx } else r := by
  rw [batchRows, setAnchored, List.filter_map, batchRows]
  refine congrArg _ (List.filter_congr fun r _ => ?_)
  simp only [Function.comp_apply]
  split
  · rfl
  · rfl

/-- So the leaves are the same after an INSERT, -/
theorem batchLeaves_insert (t : Table) {r : Receipt} (hr : r.batchId = none)
    (b : Uuid) : batchLeaves (t ++ [r]) b = batchLeaves t b := by
  rw [batchLeaves, batchRows_insert t hr, batchLeaves]

/-- after an assignment to another batch, -/
theorem batchLeaves_assignBatch {t : Table} {sel : Uuid → Bool} {b b' : Uuid}
    (hsel : ∀ r ∈ t, sel r.id = true → r.batchId = none) (hne : b' ≠ b) :
    batchLeaves (assignBatch t sel b) b' = batchLeaves t b' := by
  rw [batchLeaves, batchRows_assignBatch hsel hne, batchLeaves]

/-- and after the UPDATE of `anchored_tx`. -/
theorem batchLeaves_setAnchored (t : Table) (b b' : Uuid) (tx : String) :
    batchLeaves (setAnchored t b tx) b' = batchLeaves t b' := by
  refine batchLeaves_of_map (batchRows_setAnchored t b b' tx) ?_ ?_ ?_
  all_goals
    intro r
    split
    · rfl
    · rfl

-- ============================================================ proof_for

/-- The leaves of a batch are read as 32 bytes each. -/
theorem level_of_batch (t : Table) (b : Uuid) :
    ∃ level, (batchLeaves t b).mapM leafBytes = .ok level
      ∧ ∀ n ∈ level, n.length = 32 := by
  refine level_of_isHex32 fun leaf hleaf => ?_
  obtain ⟨r, -, -, rfl⟩ := mem_batchLeaves.1 hleaf
  exact isHex32_of_isLowerHex32 r.merkleLeaf.isLowerHex32

/-- A batched row gets its batch's root and a proof against it; the
batch's leaves may have been read later than the row. -/
theorem proofFor_batched (K : Keccak) {t t' : Table}
    (hids : (t.map (·.id)).Nodup) {r : Receipt} (hr : r ∈ t) {b : Uuid}
    (hb : r.batchId = some b) (hleaf : r.merkleLeaf.hex ∈ batchLeaves t' b) :
    ∃ proof root, merkleRoot (byteNodes K) (batchLeaves t' b) = .ok root
      ∧ proofFor K t t' r.id = .ok (some proof, some root)
      ∧ verifyProof (byteNodes K) r.merkleLeaf.hex proof root = .ok true := by
  obtain ⟨level, hlevel, -⟩ := level_of_batch t' b
  obtain ⟨idx, hidx⟩ : ∃ idx,
      (batchLeaves t' b).idxOf? r.merkleLeaf.hex = some idx := by
    rw [← Option.isSome_iff_exists, Option.isSome_iff_ne_none]
    exact fun h => List.idxOf?_eq_none_iff.1 h hleaf
  obtain ⟨hlt, hat, -⟩ := List.idxOf?_eq_some_iff.1 hidx
  obtain ⟨top, path, hroot, hproof, -, hverify, -⟩ :=
    merkleProof_complete (byteNodes K) (byteNodes_reads K) hlevel hlt
  refine ⟨path.map hex0x, hex0x top, hroot, ?_, ?_⟩
  · rw [proofFor, selectById_eq hids hr]
    simp only [hb, hidx]
    rw [hproof, hroot]
    rfl
  · rw [← hat]
    exact hverify

/-- A row that gets a root is in a batch, and the root is that batch's. -/
theorem proofFor_root (K : Keccak) {t t' : Table} {id : Uuid}
    {proof : Option (List String)} {root : String}
    (h : proofFor K t t' id = .ok (proof, some root)) :
    ∃ r ∈ t, r.id = id ∧ ∃ b, r.batchId = some b
      ∧ r.merkleLeaf.hex ∈ batchLeaves t' b
      ∧ merkleRoot (byteNodes K) (batchLeaves t' b) = .ok root := by
  rw [proofFor] at h
  cases hrow : selectById t id with
  | none => rw [hrow] at h; cases h
  | some row =>
      rw [hrow] at h
      cases hb : row.batchId with
      | none => simp only [hb] at h; cases h
      | some b =>
          simp only [hb] at h
          cases hidx : (batchLeaves t' b).idxOf? row.merkleLeaf.hex with
          | none => rw [hidx] at h; cases h
          | some idx =>
              rw [hidx] at h
              obtain ⟨hlt, hat, -⟩ := List.idxOf?_eq_some_iff.1 hidx
              obtain ⟨p, -, h⟩ := Fallible.bind_eq_ok.1 h
              obtain ⟨root', hr, h⟩ := Fallible.bind_eq_ok.1 h
              cases h
              refine ⟨row, List.mem_of_find?_eq_some hrow,
                by simpa using List.find?_some hrow, b, hb, ?_, hr⟩
              rw [← hat]
              exact List.getElem_mem hlt

/-- A root has at least its `0x`. -/
theorem merkleRoot_ne_empty (K : Keccak) {leaves : List String}
    {root : String} (h : merkleRoot (byteNodes K) leaves = .ok root) :
    root ≠ "" := by
  have hne : ∀ bs : Bytes, hex0x bs ≠ "" := by
    intro bs hbs
    have hchars := congrArg String.toList hbs
    simp [hex0x] at hchars
  unfold merkleRoot at h
  split at h
  · cases h
    exact hne _
  · obtain ⟨level, -, h⟩ := Fallible.bind_eq_ok.1 h
    obtain ⟨node, -, h⟩ := Fallible.bind_eq_ok.1 h
    cases h
    exact hne node

/-- The page's hint says "not yet anchored" exactly when `proof_for` has
no root for the receipt, whatever the chain says. -/
theorem getReceipt_hint (K : Keccak) {t t' : Table} {id : Uuid}
    {detail : ReceiptDetail} (h : getReceipt K t t' id = .ok detail) :
    (detail.verifiedHint
        = "not yet anchored — batching runs every 10 min (T-062)")
      ↔ detail.anchorRoot = none := by
  obtain ⟨⟨proof, root⟩, hproof, h⟩ := Fallible.bind_eq_ok.1 h
  cases h
  cases root with
  | none => exact ⟨fun _ => rfl, fun _ => rfl⟩
  | some r =>
      obtain ⟨-, -, -, b, -, -, hroot⟩ := proofFor_root K hproof
      have hr : r ≠ "" := merkleRoot_ne_empty K hroot
      simp [hr]

end Proofstand.Anchor
