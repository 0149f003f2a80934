/-
Concurrent `create_batch` calls: which receipts a returned batch id is
held by.

The count and the UPDATE are two statements. The row locks and the
re-evaluated `WHERE` keep two calls off one row, always; but they do not
keep the second call's count true, and a call that counted receipts
another call then took returns an id that fewer receipts hold, or none.
`stillEnough` is what an UPDATE must find for that not to happen: no
assignment was committed since its call's count, or `min_size` receipts
are without a batch nevertheless.

# What a count is worth

A count is a lower bound on the receipts without a batch for as long as no
assignment is committed: INSERTs add to them, and an UPDATE of
`anchored_tx` touches none (`Counts`). The ghost `commits` is what lets the
invariant say "since": a client that counted remembers how many
assignments had been committed by then.

# From the UPDATE to the return

Between its UPDATE and its COMMIT a call holds rows, and what it holds is
what the batch will have (`heldCount`). No other session takes any of
them, so `Enough` is kept by every step but an UPDATE that found too few,
which the guard excludes. That a receipt's batch is its batch for good
needs no guard at all.
-/
import Proofstand.Anchor.Proofs.Anchoring

namespace Proofstand.Anchor

open Transition

-- ============================================================== the guard

/-- Of an UPDATE: nobody committed an assignment since its call counted,
or enough receipts are unbatched all the same. -/
def stillEnough (s : State) : Action → Bool
  | .update c _ =>
      match s.clients c with
      | .counted m _ seen => seen = s.commits || m ≤ countUnbatched s.table
      | _ => true
  | _ => true

-- ============================================================= the count

/-- The SELECT counts the rows with `batch_id IS NULL`. -/
theorem countUnbatched_eq (t : Table) :
    countUnbatched t = t.countP fun r => r.batchId.isNone := by
  rw [countUnbatched, unbatched, List.countP_eq_length_filter]

/-- An INSERT makes none fewer, -/
theorem countUnbatched_insert (t : Table) (r : Receipt) :
    countUnbatched t ≤ countUnbatched (t ++ [r]) := by
  rw [countUnbatched_eq, countUnbatched_eq, List.countP_append]
  omega

/-- and an UPDATE of `anchored_tx` changes none. -/
theorem countUnbatched_setAnchored (t : Table) (b : Uuid) (tx : String) :
    countUnbatched (setAnchored t b tx) = countUnbatched t := by
  rw [countUnbatched_eq, countUnbatched_eq, setAnchored, List.countP_map]
  refine List.countP_congr fun r _ => ?_
  simp only [Function.comp_apply]
  split
  · exact Iff.rfl
  · exact Iff.rfl

/-- A count was at least `min_size`, and is a lower bound until the next
assignment is committed. -/
def Counts (s : State) : Prop :=
  ∀ c m n seen, s.clients c = .counted m n seen →
    m ≤ n ∧ seen ≤ s.commits
      ∧ (seen = s.commits → n ≤ countUnbatched s.table)

/-- A client that has counted had counted before another's move. -/
theorem counted_of_move {s : State} {c c' : ClientId} {pc : Pc} {m : Int}
    {n seen : Nat} (hnew : ∀ m n seen, pc ≠ .counted m n seen)
    (h : s.move c pc c' = .counted m n seen) :
    s.clients c' = .counted m n seen := by
  by_cases hc : c' = c
  · subst hc
    rw [move_self] at h
    exact absurd h (hnew m n seen)
  · rwa [move_of_ne s pc hc] at h

/-- Every step keeps it: a count loses its bound only to an assignment that
was committed since. -/
theorem counts_step {s s' : State} {a : Action} (hs : Counts s)
    (h : DbStep s a s') : Counts s' := by
  intro c' m n seen hpc'
  cases h with
  | quiet htable _ _ hcommits _ _ hcounted =>
      rw [htable, hcommits]
      rcases hcounted c' m n seen hpc' with hold | ⟨rfl, hle, rfl⟩
      · exact hs c' m n seen hold
      · exact ⟨hle, le_refl _, fun _ => le_refl _⟩
  | insert r hbatch _ _ =>
      obtain ⟨hm, hseen, hn⟩ := hs c' m n seen hpc'
      refine ⟨hm, hseen, fun h => ?_⟩
      exact le_trans (hn h) (countUnbatched_insert s.table r)
  | update =>
      exact hs c' m n seen (counted_of_move (fun _ _ _ h => by cases h) hpc')
  | commit =>
      obtain ⟨hm, hseen, -⟩ :=
        hs c' m n seen (counted_of_move (fun _ _ _ h => by cases h) hpc')
      refine ⟨hm, le_trans hseen (Nat.le_succ _), fun h => ?_⟩
      change seen = s.commits + 1 at h
      omega
  | @record _ c job hash block pc hpc hres =>
      have hold := counted_of_move (fun m n seen h => by rw [h] at hres; cases hres)
        hpc'
      obtain ⟨hm, hseen, hn⟩ := hs c' m n seen hold
      refine ⟨hm, hseen, fun h => ?_⟩
      show n ≤ countUnbatched (setAnchored s.table job.bid (txText hash))
      rw [countUnbatched_setAnchored]
      exact hn h
  | crash =>
      exact hs c' m n seen (counted_of_move (fun _ _ _ h => by cases h) hpc')

-- ========================================================== the held rows

/-- How many rows the session of `c` holds. -/
def heldCount (t : Table) (locks : Uuid → Option ClientId) (c : ClientId) :
    Nat := t.countP fun r => locks r.id = some c

/-- Enough rows are held by every open assignment, and by every batch id
returned. -/
structure Enough (s : State) : Prop where
  held : ∀ c m b, s.clients c = .updated m b → m ≤ heldCount s.table s.locks c
  returned : ∀ p ∈ s.returned, p.2 ≤ (batchRows s.table p.1).length

/-- Rows and locks that keep what `c` holds keep how much it holds. -/
theorem heldCount_map {t : Table} {locks locks' : Uuid → Option ClientId}
    {c : ClientId} {f : Receipt → Receipt} (hid : ∀ r, (f r).id = r.id)
    (hlocks : ∀ id, locks id = some c → locks' id = some c) :
    heldCount t locks c ≤ heldCount (t.map f) locks' c := by
  rw [heldCount, heldCount, List.countP_map]
  refine List.countP_mono_left fun r _ h => ?_
  rw [Function.comp_apply, hid]
  exact decide_eq_true (hlocks r.id (of_decide_eq_true h))

theorem heldCount_update (t : Table) (locks : Uuid → Option ClientId)
    (c : ClientId) :
    countUnbatched t ≤ heldCount t
      (fun id => if (unbatched t).any (·.id = id) then some c else locks id)
      c := by
  rw [countUnbatched_eq, heldCount]
  refine List.countP_mono_left fun r hr h => ?_
  have hany : (unbatched t).any (·.id = r.id) = true :=
    List.any_eq_true.2 ⟨r, List.mem_filter.2 ⟨hr, h⟩, by simp⟩
  exact decide_eq_true (if_pos hany)

/-- An UPDATE takes no row that another session holds. -/
theorem heldCount_update_other {t : Table}
    {locks : Uuid → Option ClientId} {c c' : ClientId}
    (hfree : ∀ r ∈ unbatched t, locks r.id = none) :
    heldCount t locks c' ≤ heldCount t
      (fun id => if (unbatched t).any (·.id = id) then some c else locks id)
      c' := by
  refine List.countP_mono_left fun r hr hlock => ?_
  have hlock' := of_decide_eq_true hlock
  have hany : (unbatched t).any (·.id = r.id) = false := by
    rw [List.any_eq_false]
    intro r' hr' hid
    have hnone := hfree r' hr'
    rw [of_decide_eq_true hid, hlock'] at hnone
    cases hnone
  refine decide_eq_true ?_
  dsimp only
  rw [if_neg (by rw [hany]; simp)]
  exact hlock'

theorem batchRows_commit (t : Table) (locks : Uuid → Option ClientId)
    (c : ClientId) (b : Uuid) :
    heldCount t locks c
      ≤ (batchRows (assignBatch t (fun id => locks id = some c) b) b).length := by
  rw [batchRows, ← List.countP_eq_length_filter, heldCount, assignBatch,
    List.countP_map]
  refine List.countP_mono_left fun r _ h => ?_
  rw [Function.comp_apply, if_pos h]
  exact decide_eq_true rfl

/-- A returned batch keeps its size. -/
theorem batchRows_stable {s s' : State} (hst : Stable s s') {b : Uuid}
    (hb : Settled s b) :
    (batchRows s'.table b).length = (batchRows s.table b).length := by
  rw [← batchLeaves_length, (hst.settled b hb).2, batchLeaves_length]

/-- What the UPDATE of a guarded call finds: its count, or the guard's
recount. -/
theorem le_countUnbatched {s : State} {c : ClientId} {bid : Uuid} {m : Int}
    {n seen : Nat} (hcounts : Counts s) (hpc : s.clients c = .counted m n seen)
    (hguard : stillEnough s (.update c bid) = true) :
    m ≤ countUnbatched s.table := by
  obtain ⟨hm, -, hn⟩ := hcounts c m n seen hpc
  rw [stillEnough, hpc] at hguard
  rcases Bool.or_eq_true_iff.1 hguard with hseen | hagain
  · have := hn (of_decide_eq_true hseen)
    omega
  · exact of_decide_eq_true hagain

/-- Where the guard holds at the UPDATE, the batch that is returned has the
rows its call asked for. -/
theorem enough_step {s s' : State} {a : Action} (hs : DbInv s)
    (hret : ∀ p ∈ s.returned, Settled s p.1) (hcounts : Counts s)
    (hguard : stillEnough s a = true) (he : Enough s) (h : DbStep s a s') :
    Enough s' := by
  have hst := stable_step hs h
  have hold : ∀ p ∈ s.returned, p.2 ≤ (batchRows s'.table p.1).length := by
    intro p hp
    rw [batchRows_stable hst (hret p hp)]
    exact he.returned p hp
  cases h with
  | quiet htable hlocks _ _ hreturned hopen _ =>
      refine ⟨?_, by rw [hreturned]; exact hold⟩
      intro c m b hpc
      rw [htable, hlocks]
      exact he.held c m b ((hopen c m b).1 hpc)
  | insert r _ _ _ =>
      refine ⟨?_, hold⟩
      intro c m b hpc
      have hle := he.held c m b hpc
      have hmore : heldCount s.table s.locks c
          ≤ heldCount (s.table ++ [r]) s.locks c := by
        rw [heldCount, heldCount, List.countP_append]
        omega
      show m ≤ heldCount (s.table ++ [r]) s.locks c
      omega
  | @update c m n seen bid hpc _ hfree =>
      refine ⟨?_, hold⟩
      intro c' m' b hpc'
      change s.move c _ c' = _ at hpc'
      by_cases hc : c' = c
      · subst hc
        rw [move_self] at hpc'
        cases hpc'
        have hle := le_countUnbatched hcounts hpc hguard
        have := heldCount_update s.table s.locks c'
        dsimp only
        omega
      · rw [move_of_ne s _ hc] at hpc'
        exact le_trans (he.held c' m' b hpc')
          (Int.ofNat_le.2 (heldCount_update_other hfree))
  | @commit _ c m bid hpc =>
      refine ⟨?_, ?_⟩
      · intro c' m' b hpc'
        obtain ⟨hne, hpc₀⟩ := updated_of_move (fun _ _ h => by cases h) hpc'
        refine le_trans (he.held c' m' b hpc₀) (Int.ofNat_le.2 ?_)
        refine heldCount_map (fun r => ?_) fun id hlock => ?_
        · split
          · rfl
          · rfl
        · exact release_eq_some.2 ⟨hlock, hne⟩
      · intro p hp
        rcases List.mem_cons.1 hp with rfl | hp
        · have hle := he.held c m bid hpc
          have := batchRows_commit s.table s.locks c bid
          show m ≤ ((batchRows (assignBatch s.table
            (fun id => s.locks id = some c) bid) bid).length : Int)
          omega
        · exact hold p hp
  | @record _ c job hash block pc hpc hres =>
      refine ⟨?_, hold⟩
      intro c' m b hpc'
      have hpc₀ := updated_of_move
        (fun m b h => by rw [h] at hres; cases hres) hpc'
      refine le_trans (he.held c' m b hpc₀.2) (Int.ofNat_le.2 ?_)
      refine heldCount_map (fun r => ?_) fun id hlock => hlock
      split
      · rfl
      · rfl
  | crash =>
      refine ⟨?_, hold⟩
      intro c' m b hpc'
      obtain ⟨hne, hpc₀⟩ := updated_of_move (fun _ _ h => by cases h) hpc'
      refine le_trans (he.held c' m b hpc₀) (Int.ofNat_le.2 ?_)
      refine List.countP_mono_left fun r _ hlock => ?_
      exact decide_eq_true
        (release_eq_some.2 ⟨of_decide_eq_true hlock, hne⟩)

-- ============================================================== the result

/-- Whatever the interleaving, a receipt's batch is its batch for good;
and where every UPDATE finds enough, every batch id returned is held by
at least the `min_size` of its call. -/
theorem createBatch_held (K : Keccak) {acts acts' : List Action}
    {s s' : State} (hrun : run (step K) init acts = some s)
    (hrun' : run (step K) s acts' = some s') :
    (∀ r ∈ s.table, ∀ b, r.batchId = some b →
        (selectById s'.table r.id).map (·.batchId) = some (some b))
      ∧ (guarded (step K) stillEnough init acts = true →
          ∀ p ∈ s.returned, p.2 ≤ (batchRows s'.table p.1).length) := by
  have hs := inv_run (inv_init K) hrun
  refine ⟨fun r hr b hb => batchId_run hs.db hrun' hr hb, ?_⟩
  intro hguard p hp
  have henough : Counts s ∧ Enough s := by
    refine run_invariant_of_guard (P := fun s => Counts s ∧ Enough s)
      inv_step ?_ (inv_init K) ?_ hguard hrun
    · intro s a s' hs hg h hstep
      exact ⟨counts_step h.1 (step_db hstep),
        enough_step hs.db hs.returned h.1 hg h.2 (step_db hstep)⟩
    · refine ⟨fun _ _ _ _ h => (by cases h), ?_⟩
      exact ⟨fun _ _ _ h => (by cases h), fun _ h => (by cases h)⟩
  rw [batchRows_stable (stable_run hs.db hrun') (hs.returned p hp)]
  exact henough.2.returned p hp

/-- Two calls count the same receipt before either takes it: both return
an id, and no receipt holds the second. -/
theorem createBatch_empty_batch :
    ∃ s, run (step .everyOther) init
        [.insert 1 5 (.ofDigit 10), .callCreate 0 1, .callCreate 1 1,
          .count 0, .count 1, .update 0 7, .commit 0, .update 1 8,
          .commit 1] = some s
      ∧ (8, 1) ∈ s.returned ∧ batchRows s.table 8 = [] := by
  obtain ⟨s, hs, hfacts⟩ := (Option.any_eq_true
    (fun s => s.returned.contains (8, 1) && (batchRows s.table 8).isEmpty)
    (run (step .everyOther) init
      [.insert 1 5 (.ofDigit 10), .callCreate 0 1, .callCreate 1 1,
        .count 0, .count 1, .update 0 7, .commit 0, .update 1 8,
        .commit 1])).1 (by decide +kernel)
  rw [Bool.and_eq_true, List.contains_iff_mem, List.isEmpty_iff] at hfacts
  exact ⟨s, hs, hfacts⟩

/-- The second call again, with a receipt that arrived in between. -/
theorem createBatch_held_refilled :
    ∃ s, run (step .everyOther) init
        [.insert 1 5 (.ofDigit 10), .callCreate 0 1, .callCreate 1 1,
          .count 0, .count 1, .update 0 7, .commit 0,
          .insert 2 6 (.ofDigit 11), .update 1 8, .commit 1] = some s
      ∧ 1 ≤ (batchRows s.table 8).length := by
  obtain ⟨s, hs, hfacts⟩ := (Option.any_eq_true
    (fun s => s.returned.contains (8, 1))
    (run (step .everyOther) init
      [.insert 1 5 (.ofDigit 10), .callCreate 0 1, .callCreate 1 1,
        .count 0, .count 1, .update 0 7, .commit 0,
        .insert 2 6 (.ofDigit 11), .update 1 8, .commit 1])).1
    (by decide +kernel)
  refine ⟨s, hs, ?_⟩
  have h : (1 : Int) ≤ (batchRows s.table 8).length :=
    (createBatch_held .everyOther hs (run_nil _ s)).2
      (by decide +kernel) (8, 1) (List.contains_iff_mem.1 hfacts)
  exact_mod_cast h

end Proofstand.Anchor
