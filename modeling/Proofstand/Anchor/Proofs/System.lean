/-
What an enabled action does, once and for all (`step_effect`), what that
is to the database (`step_db`), the invariant the row locks and the fresh
batch ids keep (`DbInv`), and what no action changes (`Stable`): a batch
id once set, and the leaves of a batch once its assignment is committed.

A batch is settled when its id was drawn and no session still holds an
uncommitted assignment to it. Every batch with a row in it is, so every
root computed from committed rows is a root for good.

# How the file is used

Every later invariant about the system is proved by cases on `Effect`,
`DbStep` or a relation like these: each of them says what a step did in
the terms of one part of the state, with the guards that made the step
possible. `step` itself is taken apart here, in `step_effect`.

# Locks

`DbInv` says what an open assignment means before it is committed: its
batch id is its own, its rows are locked, unbatched in the committed
table, and in nobody else's hands. A commit then puts exactly these rows
into a batch nobody has seen (`dbInv_commit`), and a crash puts nothing
anywhere. The ids drawn are never drawn again, which is the one thing used
of `uuid4()`.
-/
import Proofstand.Anchor.System
import Proofstand.Anchor.Proofs.Store

namespace Proofstand.Anchor

open Transition

-- ============================================================ one action

/-- What an action does where it is enabled, with what enabled it. -/
inductive Effect (K : Keccak) (s : State) : Action → State → Prop
  | insert {id createdAt leaf} (hid : ∀ r ∈ s.table, r.id ≠ id) :
      Effect K s (.insert id createdAt leaf)
        { s with table := s.table
            ++ [{ id := id, createdAt := createdAt, merkleLeaf := leaf }] }
  | callCreate {c m} (hrest : (s.clients c).resting = true) :
      Effect K s (.callCreate c m) (s.setPc c (.create m))
  | tooFew {c m} (hpc : s.clients c = .create m)
      (hfew : (countUnbatched s.table : Int) < m) :
      Effect K s (.count c) (s.setPc c .nothing)
  | counted {c m} (hpc : s.clients c = .create m)
      (henough : m ≤ (countUnbatched s.table : Int)) :
      Effect K s (.count c)
        (s.setPc c (.counted m (countUnbatched s.table) s.commits))
  | update {c m n e bid} (hpc : s.clients c = .counted m n e)
      (hfresh : bid ∉ s.drawn)
      (hfree : ∀ r ∈ unbatched s.table, s.locks r.id = none) :
      Effect K s (.update c bid)
        { s with
          clients := s.move c (.updated m bid)
          drawn := bid :: s.drawn
          locks := fun id =>
            if (unbatched s.table).any (·.id = id) then some c
            else s.locks id }
  | commit {c m bid} (hpc : s.clients c = .updated m bid) :
      Effect K s (.commit c)
        { s with
          clients := s.move c (.created bid)
          table := assignBatch s.table (fun id => s.locks id = some c) bid
          locks := s.release c
          commits := s.commits + 1
          returned := (bid, m) :: s.returned }
  | callSubmit {c bid sender anchor} (hrest : (s.clients c).resting = true) :
      Effect K s (.callSubmit c bid sender anchor)
        (s.setPc c (.submit bid sender anchor))
  | built {c bid sender anchor job}
      (hpc : s.clients c = .submit bid sender anchor)
      (hbuild : buildCall K bid sender anchor (batchLeaves s.table bid)
        = .ok job) :
      Effect K s (.readLeaves c) (s.setPc c (.rooted job))
  | unbuilt {c bid sender anchor exc}
      (hpc : s.clients c = .submit bid sender anchor)
      (hbuild : buildCall K bid sender anchor (batchLeaves s.table bid)
        = .error exc) :
      Effect K s (.readLeaves c) (s.setPc c (.raised exc))
  | send {c hash job chain} (hpc : s.clients c = .rooted job)
      (hsend : s.chain.send hash job.call = some chain) :
      Effect K s (.send c hash)
        { s with clients := s.move c (.sent job hash), chain := chain }
  | confirmed {c job hash rcpt} (hpc : s.clients c = .sent job hash)
      (hrcpt : s.chain.receipt hash = some rcpt) (hstatus : rcpt.status = 1) :
      Effect K s (.await c) (s.setPc c (.confirmed job hash rcpt.blockNumber))
  | reverted {c job hash rcpt exc} (hpc : s.clients c = .sent job hash)
      (hrcpt : s.chain.receipt hash = some rcpt) (hstatus : rcpt.status ≠ 1) :
      Effect K s (.await c) (s.setPc c (.raised exc))
  | record {c job hash block out}
      (hpc : s.clients c = .confirmed job hash block) :
      Effect K s (.record c)
        { s with
          clients := s.move c (.submitted out)
          table := setAnchored s.table job.bid (txText hash) }
  | crash {c exc} (hbusy : (s.clients c).resting = false) :
      Effect K s (.crash c exc)
        { s with clients := s.move c (.raised exc), locks := s.release c }
  | deploy {addr deployer chain}
      (hdeploy : s.chain.deploy addr deployer = some chain) :
      Effect K s (.deploy addr deployer) { s with chain := chain }
  | setWriter {addr sender writer allowed chain}
      (hset : s.chain.setWriter addr sender writer allowed = some chain) :
      Effect K s (.setWriter addr sender writer allowed)
        { s with chain := chain }
  | mine {hash ts chain} (hmine : s.chain.mine hash ts = some chain) :
      Effect K s (.mine hash ts) { s with chain := chain }

/-- What a step does, and what it found to do it. -/
theorem step_effect {K : Keccak} {s s' : State} {a : Action}
    (h : step K s a = some s') : Effect K s a s' := by
  cases a with
  | insert id createdAt leaf =>
      simp only [step, State.insert] at h
      split at h
      case isTrue => cases h
      case isFalse hid =>
        cases h
        refine .insert fun r hr heq => hid ?_
        exact List.any_eq_true.2 ⟨r, hr, by simpa using heq⟩
  | callCreate c minSize =>
      simp only [step, State.callCreate] at h
      split at h
      case isFalse => cases h
      case isTrue hrest =>
        cases h
        exact .callCreate hrest
  | count c =>
      simp only [step, State.count] at h
      split at h
      case h_2 => cases h
      case h_1 m hpc =>
        cases h
        split
        case isTrue hfew => exact .tooFew hpc hfew
        case isFalse henough => exact .counted hpc (not_lt.1 henough)
  | update c bid =>
      simp only [step, State.update] at h
      split at h
      case h_2 => cases h
      case h_1 m n e hpc =>
        split at h
        case isTrue => cases h
        case isFalse hfresh =>
          split at h
          case isTrue => cases h
          case isFalse hfree =>
            cases h
            refine .update hpc hfresh fun r hr => ?_
            by_contra hne
            exact hfree (List.any_eq_true.2
              ⟨r, hr, Option.isSome_iff_ne_none.2 hne⟩)
  | commit c =>
      simp only [step, State.commit] at h
      split at h
      case h_2 => cases h
      case h_1 m bid hpc =>
        cases h
        exact .commit hpc
  | callSubmit c bid sender anchor =>
      simp only [step, State.callSubmit] at h
      split at h
      case isFalse => cases h
      case isTrue hrest =>
        cases h
        exact .callSubmit hrest
  | readLeaves c =>
      simp only [step, State.readLeaves] at h
      split at h
      case h_2 => cases h
      case h_1 bid sender anchor hpc =>
        cases h
        split
        case h_1 job hbuild => exact .built hpc hbuild
        case h_2 exc hbuild => exact .unbuilt hpc hbuild
  | send c hash =>
      simp only [step, State.send] at h
      split at h
      case h_2 => cases h
      case h_1 job hpc =>
        obtain ⟨chain, hsend, rfl⟩ := Option.map_eq_some_iff.1 h
        exact .send hpc hsend
  | await c =>
      simp only [step, State.await] at h
      split at h
      case h_2 => cases h
      case h_1 job hash hpc =>
        obtain ⟨rcpt, hrcpt, rfl⟩ := Option.map_eq_some_iff.1 h
        split
        case isTrue hstatus => exact .reverted hpc hrcpt hstatus
        case isFalse hstatus =>
          exact .confirmed hpc hrcpt (not_not.1 hstatus)
  | record c =>
      simp only [step, State.record] at h
      split at h
      case h_2 => cases h
      case h_1 job hash block hpc =>
        cases h
        exact .record hpc
  | crash c exc =>
      simp only [step, State.crash] at h
      split at h
      case isTrue => cases h
      case isFalse hrest =>
        cases h
        exact .crash (by simpa using hrest)
  | deploy addr deployer =>
      obtain ⟨chain, hdeploy, rfl⟩ := Option.map_eq_some_iff.1 h
      exact .deploy hdeploy
  | setWriter addr sender writer allowed =>
      obtain ⟨chain, hset, rfl⟩ := Option.map_eq_some_iff.1 h
      exact .setWriter hset
  | mine hash ts =>
      obtain ⟨chain, hmine, rfl⟩ := Option.map_eq_some_iff.1 h
      exact .mine hmine

-- ========================================================= the database

/-- The database side of a step: what happens to the rows, the locks and
the open assignments. -/
inductive DbStep (s : State) : Action → State → Prop
  | quiet {a s'} (htable : s'.table = s.table) (hlocks : s'.locks = s.locks)
      (hdrawn : s'.drawn = s.drawn) (hcommits : s'.commits = s.commits)
      (hreturned : s'.returned = s.returned)
      (hopen : ∀ c m b, s'.clients c = .updated m b ↔ s.clients c = .updated m b)
      (hcounted : ∀ c m n e, s'.clients c = .counted m n e →
        s.clients c = .counted m n e
          ∨ (n = countUnbatched s.table ∧ m ≤ n ∧ e = s.commits)) :
      DbStep s a s'
  | insert {a} (r : Receipt) (hbatch : r.batchId = none)
      (htx : r.anchoredTx = none) (hid : ∀ r' ∈ s.table, r'.id ≠ r.id) :
      DbStep s a { s with table := s.table ++ [r] }
  | update {c m n e bid} (hpc : s.clients c = .counted m n e)
      (hfresh : bid ∉ s.drawn)
      (hfree : ∀ r ∈ unbatched s.table, s.locks r.id = none) :
      DbStep s (.update c bid)
        { s with
          clients := s.move c (.updated m bid)
          drawn := bid :: s.drawn
          locks := fun id =>
            if (unbatched s.table).any (·.id = id) then some c
            else s.locks id }
  | commit {a c m bid} (hpc : s.clients c = .updated m bid) :
      DbStep s a
        { s with
          clients := s.move c (.created bid)
          table := assignBatch s.table (fun id => s.locks id = some c) bid
          locks := s.release c
          commits := s.commits + 1
          returned := (bid, m) :: s.returned }
  | record {a c job hash block pc} (hpc : s.clients c = .confirmed job hash block)
      (hres : pc.resting = true) :
      DbStep s a
        { s with
          clients := s.move c pc
          table := setAnchored s.table job.bid (txText hash) }
  | crash {a c exc} :
      DbStep s a
        { s with clients := s.move c (.raised exc), locks := s.release c }

@[simp] theorem move_self (s : State) (c : ClientId) (pc : Pc) :
    s.move c pc c = pc := if_pos rfl

theorem move_of_ne (s : State) {c c' : ClientId} (pc : Pc) (h : c' ≠ c) :
    s.move c pc c' = s.clients c' := if_neg h

/-- A client that moves between two points outside an open assignment
and past no count. -/
theorem quiet_move {s : State} {a : Action} {c : ClientId} {pc : Pc}
    (chain : Chain) (hold : ∀ m b, s.clients c ≠ .updated m b)
    (hnew : ∀ m b, pc ≠ .updated m b)
    (hcount : ∀ m n e, pc = .counted m n e →
      n = countUnbatched s.table ∧ m ≤ n ∧ e = s.commits) :
    DbStep s a { s with clients := s.move c pc, chain := chain } := by
  refine .quiet rfl rfl rfl rfl rfl ?_ ?_
  · intro c' m b
    show s.move c pc c' = _ ↔ _
    by_cases h : c' = c
    · subst h
      rw [move_self]
      exact ⟨fun h => absurd h (hnew m b), fun h => absurd h (hold m b)⟩
    · rw [move_of_ne s pc h]
  · intro c' m n e hpc
    change s.move c pc c' = _ at hpc
    by_cases h : c' = c
    · subst h
      rw [move_self] at hpc
      exact Or.inr (hcount m n e hpc)
    · rw [move_of_ne s pc h] at hpc
      exact Or.inl hpc

theorem not_updated_of_resting {s : State} {c : ClientId}
    (h : (s.clients c).resting = true) (m : Int) (b : Uuid) :
    s.clients c ≠ .updated m b := by
  intro hpc
  rw [hpc] at h
  cases h

/-- A step that only touches the chain. -/
theorem quiet_chain (s : State) (a : Action) (chain : Chain) :
    DbStep s a { s with chain := chain } :=
  .quiet rfl rfl rfl rfl rfl (fun _ _ _ => Iff.rfl)
    (fun _ _ _ _ hpc => Or.inl hpc)

/-- A client that goes from a known point to another, both outside an
open assignment, past no count. -/
theorem quiet_between {s : State} {a : Action} {c : ClientId} {pc pc' : Pc}
    (chain : Chain) (hpc : s.clients c = pc)
    (hold : ∀ m b, pc ≠ .updated m b) (hnew : ∀ m b, pc' ≠ .updated m b)
    (hcount : ∀ m n e, pc' ≠ .counted m n e) :
    DbStep s a { s with clients := s.move c pc', chain := chain } :=
  quiet_move chain (fun m b => hpc.symm ▸ hold m b) hnew
    fun m n e h => absurd h (hcount m n e)

theorem step_db {K : Keccak} {s s' : State} {a : Action}
    (h : step K s a = some s') : DbStep s a s' := by
  cases step_effect h with
  | insert hid => exact .insert _ rfl rfl hid
  | callCreate hrest =>
      exact quiet_move s.chain (not_updated_of_resting hrest) nofun nofun
  | tooFew hpc hfew => exact quiet_between s.chain hpc nofun nofun nofun
  | counted hpc henough =>
      refine quiet_move s.chain (fun _ _ h => by rw [hpc] at h; cases h)
        nofun ?_
      intro m' n e hcounted
      cases hcounted
      exact ⟨rfl, henough, rfl⟩
  | update hpc hfresh hfree => exact .update hpc hfresh hfree
  | commit hpc => exact .commit hpc
  | callSubmit hrest =>
      exact quiet_move s.chain (not_updated_of_resting hrest) nofun nofun
  | built hpc hbuild => exact quiet_between s.chain hpc nofun nofun nofun
  | unbuilt hpc hbuild => exact quiet_between s.chain hpc nofun nofun nofun
  | send hpc hsend => exact quiet_between _ hpc nofun nofun nofun
  | confirmed hpc hrcpt hstatus =>
      exact quiet_between s.chain hpc nofun nofun nofun
  | reverted hpc hrcpt hstatus =>
      exact quiet_between s.chain hpc nofun nofun nofun
  | record hpc => exact .record hpc rfl
  | crash hbusy => exact .crash
  | deploy hdeploy => exact quiet_chain s _ _
  | setWriter hset => exact quiet_chain s _ _
  | mine hmine => exact quiet_chain s _ _

-- ======================================================== the invariant

/-- Ids are distinct; batch ids in use were drawn; an open assignment is
to a batch of its own that no committed row is in yet; a locked row is
locked by an open assignment and has no batch. -/
structure DbInv (s : State) : Prop where
  ids : (s.table.map (·.id)).Nodup
  drawn : ∀ r ∈ s.table, ∀ b, r.batchId = some b → b ∈ s.drawn
  open_drawn : ∀ c m b, s.clients c = .updated m b → b ∈ s.drawn
  open_fresh : ∀ c m b, s.clients c = .updated m b →
    ∀ r ∈ s.table, r.batchId ≠ some b
  open_inj : ∀ c c' m m' b, s.clients c = .updated m b →
    s.clients c' = .updated m' b → c = c'
  lock_open : ∀ id c, s.locks id = some c → ∃ m b, s.clients c = .updated m b
  lock_unbatched : ∀ id c, s.locks id = some c →
    ∀ r ∈ s.table, r.id = id → r.batchId = none

theorem dbInv_init : DbInv init where
  ids := List.nodup_nil
  drawn := fun _ h => by cases h
  open_drawn := fun _ _ _ h => by cases h
  open_fresh := fun _ _ _ h => by cases h
  open_inj := fun _ _ _ _ _ h => by cases h
  lock_open := fun _ _ h => by cases h
  lock_unbatched := fun _ _ h => by cases h

/-- The rows a session holds have no batch. -/
theorem held_unbatched {s : State} (hs : DbInv s) {c : ClientId} :
    ∀ r ∈ s.table, decide (s.locks r.id = some c) = true → r.batchId = none :=
  fun r hr h => hs.lock_unbatched r.id c (of_decide_eq_true h) r hr rfl

/-- A rolled back session's locks are gone, the others stay. -/
theorem release_eq_some {s : State} {c c' : ClientId} {id : Uuid} :
    s.release c id = some c' ↔ s.locks id = some c' ∧ c' ≠ c := by
  rw [State.release]
  split
  case isTrue h =>
    rw [h]
    constructor
    · intro h
      cases h
    · intro h
      exact absurd (Option.some.inj h.1).symm h.2
  case isFalse h =>
    constructor
    · intro h'
      refine ⟨h', fun hc => h (hc ▸ h')⟩
    · intro h'
      exact h'.1

/-- An open assignment in the state after `c` moved outside one. -/
theorem updated_of_move {s : State} {c c' : ClientId} {pc : Pc} {m : Int}
    {b : Uuid} (hnew : ∀ m b, pc ≠ .updated m b)
    (h : s.move c pc c' = .updated m b) :
    c' ≠ c ∧ s.clients c' = .updated m b := by
  by_cases hc : c' = c
  · subst hc
    rw [move_self] at h
    exact absurd h (hnew m b)
  · rw [move_of_ne s pc hc] at h
    exact ⟨hc, h⟩

/-- An INSERT brings a new id without a batch, -/
theorem dbInv_insert {s : State} (hs : DbInv s) {r : Receipt}
    (hbatch : r.batchId = none) (hid : ∀ r' ∈ s.table, r'.id ≠ r.id) :
    DbInv { s with table := s.table ++ [r] } where
  ids := by
    show ((s.table ++ [r]).map (·.id)).Nodup
    rw [List.map_append, List.nodup_append]
    refine ⟨hs.ids, List.nodup_singleton _, ?_⟩
    intro x hx y hy hxy
    obtain ⟨r', hr', rfl⟩ := List.mem_map.1 hx
    exact hid r' hr' (hxy.trans (List.mem_singleton.1 hy))
  drawn := by
    intro r' hr' b hb
    rcases List.mem_append.1 hr' with hr' | hr'
    · exact hs.drawn r' hr' b hb
    · rw [List.mem_singleton.1 hr', hbatch] at hb
      cases hb
  open_drawn := hs.open_drawn
  open_fresh := by
    intro c m b hpc r' hr'
    rcases List.mem_append.1 hr' with hr' | hr'
    · exact hs.open_fresh c m b hpc r' hr'
    · rw [List.mem_singleton.1 hr', hbatch]
      exact fun h => by cases h
  open_inj := hs.open_inj
  lock_open := hs.lock_open
  lock_unbatched := by
    intro id c hlock r' hr' heq
    rcases List.mem_append.1 hr' with hr' | hr'
    · exact hs.lock_unbatched id c hlock r' hr' heq
    · rw [List.mem_singleton.1 hr']
      exact hbatch

/-- an UPDATE locks the rows it selects, under an id nobody drew before, -/
theorem dbInv_update {s : State} (hs : DbInv s) {c : ClientId} {m : Int}
    {n e : Nat} {bid : Uuid} (hpc : s.clients c = .counted m n e)
    (hfresh : bid ∉ s.drawn) :
    DbInv
      { s with
        clients := s.move c (.updated m bid)
        drawn := bid :: s.drawn
        locks := fun id =>
          if (unbatched s.table).any (·.id = id) then some c
          else s.locks id } := by
  -- an open assignment is the new one or an old one, to another batch
  have hopen : ∀ c' m' b, s.move c (.updated m bid) c' = .updated m' b →
      (c' = c ∧ b = bid) ∨ (c' ≠ c ∧ b ≠ bid ∧ s.clients c' = .updated m' b) := by
    intro c' m' b hpc'
    by_cases h : c' = c
    · subst h
      rw [move_self] at hpc'
      cases hpc'
      exact Or.inl ⟨rfl, rfl⟩
    · rw [move_of_ne s _ h] at hpc'
      refine Or.inr ⟨h, ?_, hpc'⟩
      intro hb
      exact hfresh (hb ▸ hs.open_drawn c' m' b hpc')
  constructor
  case ids => exact hs.ids
  case drawn =>
    intro r hr b hb
    exact List.mem_cons_of_mem _ (hs.drawn r hr b hb)
  case open_drawn =>
    intro c' m' b hpc'
    rcases hopen c' m' b hpc' with ⟨-, rfl⟩ | ⟨-, -, hold⟩
    · exact List.mem_cons_self
    · exact List.mem_cons_of_mem _ (hs.open_drawn c' m' b hold)
  case open_fresh =>
    intro c' m' b hpc' r hr hb
    rcases hopen c' m' b hpc' with ⟨-, rfl⟩ | ⟨-, -, hold⟩
    · exact hfresh (hs.drawn r hr b hb)
    · exact hs.open_fresh c' m' b hold r hr hb
  case open_inj =>
    intro c₁ c₂ m₁ m₂ b h₁ h₂
    rcases hopen c₁ m₁ b h₁ with ⟨rfl, rfl⟩ | ⟨-, hne, hold₁⟩
    · rcases hopen c₂ m₂ b h₂ with ⟨rfl, -⟩ | ⟨-, hne, -⟩
      · rfl
      · exact absurd rfl hne
    · rcases hopen c₂ m₂ b h₂ with ⟨-, hb⟩ | ⟨-, -, hold₂⟩
      · exact absurd hb hne
      · exact hs.open_inj c₁ c₂ m₁ m₂ b hold₁ hold₂
  case lock_open =>
    intro id c' hlock
    dsimp only at hlock
    split at hlock
    case isTrue =>
      cases hlock
      exact ⟨m, bid, move_self s c _⟩
    case isFalse =>
      obtain ⟨m', b, hpc'⟩ := hs.lock_open id c' hlock
      have hne : c' ≠ c := by
        intro h
        rw [h, hpc] at hpc'
        cases hpc'
      exact ⟨m', b, (move_of_ne s _ hne).trans hpc'⟩
  case lock_unbatched =>
    intro id c' hlock r hr heq
    dsimp only at hlock
    split at hlock
    case isTrue hany =>
      obtain ⟨r', hr', hid⟩ := List.any_eq_true.1 hany
      obtain ⟨hmem, hnone⟩ := List.mem_filter.1 hr'
      have hrr : r = r' := eq_of_id_eq hs.ids hr hmem
        (heq.trans (of_decide_eq_true hid).symm)
      rw [hrr]
      exact Option.isNone_iff_eq_none.1 hnone
    case isFalse => exact hs.lock_unbatched id c' hlock r hr heq

/-- and a commit gives its id to the rows it locked. -/
theorem dbInv_commit {s : State} (hs : DbInv s) {c : ClientId} {m : Int}
    {bid : Uuid} (hpc : s.clients c = .updated m bid) :
    DbInv
      { s with
        clients := s.move c (.created bid)
        table := assignBatch s.table (fun id => s.locks id = some c) bid
        locks := s.release c
        commits := s.commits + 1
        returned := (bid, m) :: s.returned } := by
  have hopen : ∀ c' m' b, s.move c (.created bid) c' = .updated m' b →
      c' ≠ c ∧ s.clients c' = .updated m' b :=
    fun _ _ _ => updated_of_move (fun _ _ h => by cases h)
  have hrow : ∀ r ∈ assignBatch s.table (fun id => s.locks id = some c) bid,
      (s.locks r.id = some c ∧ r.batchId = some bid) ∨ r ∈ s.table := by
    intro r hr
    rcases mem_assignBatch.1 hr with ⟨r₀, hr₀, ⟨hsel, rfl⟩ | ⟨-, rfl⟩⟩
    · exact Or.inl ⟨of_decide_eq_true hsel, rfl⟩
    · exact Or.inr hr₀
  constructor
  case ids =>
    rw [ids_assignBatch]
    exact hs.ids
  case drawn =>
    intro r hr b hb
    rcases hrow r hr with ⟨-, hbid⟩ | hold
    · rw [hbid] at hb
      cases hb
      exact hs.open_drawn c m bid hpc
    · exact hs.drawn r hold b hb
  case open_drawn =>
    intro c' m' b hpc'
    exact hs.open_drawn c' m' b (hopen c' m' b hpc').2
  case open_fresh =>
    intro c' m' b hpc' r hr hb
    obtain ⟨hne, hpc₀⟩ := hopen c' m' b hpc'
    rcases hrow r hr with ⟨-, hbid⟩ | hold
    · rw [hbid] at hb
      cases hb
      exact hne (hs.open_inj c' c m' m bid hpc₀ hpc)
    · exact hs.open_fresh c' m' b hpc₀ r hold hb
  case open_inj =>
    intro c₁ c₂ m₁ m₂ b h₁ h₂
    exact hs.open_inj c₁ c₂ m₁ m₂ b (hopen c₁ m₁ b h₁).2 (hopen c₂ m₂ b h₂).2
  case lock_open =>
    intro id c' hlock
    obtain ⟨hlock, hne⟩ := release_eq_some.1 hlock
    obtain ⟨m', b, hpc'⟩ := hs.lock_open id c' hlock
    exact ⟨m', b, (move_of_ne s _ hne).trans hpc'⟩
  case lock_unbatched =>
    intro id c' hlock r hr heq
    obtain ⟨hlock, hne⟩ := release_eq_some.1 hlock
    rcases hrow r hr with ⟨hheld, -⟩ | hold
    · -- the row is held by `c`, and an id has one holder
      rw [heq, hlock] at hheld
      exact absurd (Option.some.inj hheld) hne
    · exact hs.lock_unbatched id c' hlock r hold heq

/-- A client outside an open assignment moves to another such point, and
no row's id or batch changes. -/
theorem dbInv_move {s : State} (hs : DbInv s) {c : ClientId} {pc : Pc}
    {t : Table} {locks : Uuid → Option ClientId}
    (hnew : ∀ m b, pc ≠ .updated m b)
    (hlocks : ∀ id c', locks id = some c' → s.locks id = some c' ∧ c' ≠ c)
    (hids : t.map (·.id) = s.table.map (·.id))
    (hrow : ∀ r ∈ t, ∃ r₀ ∈ s.table, r₀.id = r.id ∧ r₀.batchId = r.batchId) :
    DbInv { s with clients := s.move c pc, table := t, locks := locks } := by
  constructor
  case ids =>
    rw [hids]
    exact hs.ids
  case drawn =>
    intro r hr b hb
    obtain ⟨r₀, hr₀, -, hbatch⟩ := hrow r hr
    exact hs.drawn r₀ hr₀ b (hbatch.trans hb)
  case open_drawn =>
    intro c' m b hpc'
    exact hs.open_drawn c' m b (updated_of_move hnew hpc').2
  case open_fresh =>
    intro c' m b hpc' r hr
    obtain ⟨r₀, hr₀, -, hbatch⟩ := hrow r hr
    rw [← hbatch]
    exact hs.open_fresh c' m b (updated_of_move hnew hpc').2 r₀ hr₀
  case open_inj =>
    intro c₁ c₂ m₁ m₂ b h₁ h₂
    exact hs.open_inj c₁ c₂ m₁ m₂ b (updated_of_move hnew h₁).2
      (updated_of_move hnew h₂).2
  case lock_open =>
    intro id c' hlock
    obtain ⟨hold, hne⟩ := hlocks id c' hlock
    obtain ⟨m, b, hpc'⟩ := hs.lock_open id c' hold
    exact ⟨m, b, (move_of_ne s pc hne).trans hpc'⟩
  case lock_unbatched =>
    intro id c' hlock r hr heq
    obtain ⟨r₀, hr₀, hid, hbatch⟩ := hrow r hr
    rw [← hbatch]
    exact hs.lock_unbatched id c' (hlocks id c' hlock).1 r₀ hr₀ (hid.trans heq)

/-- Every step keeps the invariant, -/
theorem dbInv_step {s s' : State} {a : Action} (hs : DbInv s)
    (h : DbStep s a s') : DbInv s' := by
  cases h with
  | quiet htable hlocks hdrawn _ _ hopen _ =>
      constructor
      case ids => rw [htable]; exact hs.ids
      case drawn => rw [htable, hdrawn]; exact hs.drawn
      case open_drawn =>
        rw [hdrawn]
        exact fun c m b hpc => hs.open_drawn c m b ((hopen c m b).1 hpc)
      case open_fresh =>
        rw [htable]
        exact fun c m b hpc => hs.open_fresh c m b ((hopen c m b).1 hpc)
      case open_inj =>
        intro c₁ c₂ m₁ m₂ b h₁ h₂
        exact hs.open_inj c₁ c₂ m₁ m₂ b ((hopen c₁ m₁ b).1 h₁)
          ((hopen c₂ m₂ b).1 h₂)
      case lock_open =>
        rw [hlocks]
        intro id c hlock
        obtain ⟨m, b, hpc⟩ := hs.lock_open id c hlock
        exact ⟨m, b, (hopen c m b).2 hpc⟩
      case lock_unbatched => rw [htable, hlocks]; exact hs.lock_unbatched
  | insert r hbatch _ hid => exact dbInv_insert hs hbatch hid
  | update hpc hfresh _ => exact dbInv_update hs hpc hfresh
  | commit hpc => exact dbInv_commit hs hpc
  | @record _ c job hash block pc hpc hres =>
      refine dbInv_move hs ?_ ?_ (ids_setAnchored _ _ _) ?_
      · intro m b h
        rw [h] at hres
        cases hres
      · intro id c' hlock
        refine ⟨hlock, ?_⟩
        intro hc
        obtain ⟨m, b, hpc'⟩ := hs.lock_open id c' hlock
        rw [hc, hpc] at hpc'
        cases hpc'
      · intro r hr
        rcases mem_setAnchored.1 hr with ⟨r₀, hr₀, ⟨-, rfl⟩ | ⟨-, rfl⟩⟩
        · exact ⟨r₀, hr₀, rfl, rfl⟩
        · exact ⟨r, hr₀, rfl, rfl⟩
  | crash =>
      refine dbInv_move hs (fun _ _ h => by cases h) ?_ rfl ?_
      · intro id c' hlock
        exact release_eq_some.1 hlock
      · intro r hr
        exact ⟨r, hr, rfl, rfl⟩

/-- and every run. -/
theorem dbInv_run {K : Keccak} {s s' : State} {acts : List Action}
    (hs : DbInv s) (hrun : run (step K) s acts = some s') : DbInv s' :=
  run_invariant (fun hs h => dbInv_step hs (step_db h)) hs hrun

-- ============================================================= stability

/-- The batch's id was drawn and nobody still holds an assignment to it. -/
def Settled (s : State) (b : Uuid) : Prop :=
  b ∈ s.drawn ∧ ∀ c m, s.clients c ≠ .updated m b

theorem settled_of_mem {s : State} (hs : DbInv s) {r : Receipt}
    (hr : r ∈ s.table) {b : Uuid} (hb : r.batchId = some b) : Settled s b :=
  ⟨hs.drawn r hr b hb, fun c m hpc => hs.open_fresh c m b hpc r hr hb⟩

theorem settled_of_leaves {s : State} (hs : DbInv s) {b : Uuid}
    (hne : batchLeaves s.table b ≠ []) : Settled s b := by
  obtain ⟨leaf, hleaf⟩ := List.exists_mem_of_ne_nil _ hne
  obtain ⟨r, hr, hb, -⟩ := mem_batchLeaves.1 hleaf
  exact settled_of_mem hs hr hb

/-- What no action changes: a row stays, with its leaf and, once it has
one, its batch; a settled batch stays settled, with its leaves. -/
structure Stable (s s' : State) : Prop where
  rows : ∀ r ∈ s.table, ∃ r' ∈ s'.table, r'.id = r.id
    ∧ r'.merkleLeaf = r.merkleLeaf
    ∧ ∀ b, r.batchId = some b → r'.batchId = some b
  settled : ∀ b, Settled s b →
    Settled s' b ∧ batchLeaves s'.table b = batchLeaves s.table b

theorem Stable.refl (s : State) : Stable s s where
  rows := fun r hr => ⟨r, hr, rfl, rfl, fun _ h => h⟩
  settled := fun _ h => ⟨h, rfl⟩

theorem Stable.trans {s t u : State} (hst : Stable s t) (htu : Stable t u) :
    Stable s u where
  rows := by
    intro r hr
    obtain ⟨r', hr', hid, hleaf, hb⟩ := hst.rows r hr
    obtain ⟨r'', hr'', hid', hleaf', hb'⟩ := htu.rows r' hr'
    exact ⟨r'', hr'', hid'.trans hid, hleaf'.trans hleaf,
      fun b h => hb' b (hb b h)⟩
  settled := by
    intro b hb
    obtain ⟨hb', hleaves⟩ := hst.settled b hb
    obtain ⟨hb'', hleaves'⟩ := htu.settled b hb'
    exact ⟨hb'', hleaves'.trans hleaves⟩

/-- A client that moves outside an open assignment unsettles nothing. -/
theorem settled_move {s : State} {c : ClientId} {pc : Pc} {b : Uuid}
    (hnew : ∀ m b, pc ≠ .updated m b) (hb : Settled s b) :
    ∀ c' m, s.move c pc c' ≠ .updated m b :=
  fun c' m hpc => hb.2 c' m (updated_of_move hnew hpc).2

/-- No step takes a row, its leaf or its batch away, -/
theorem stable_step {s s' : State} {a : Action} (hs : DbInv s)
    (h : DbStep s a s') : Stable s s' := by
  have hsame : ∀ r ∈ s.table, ∃ r' ∈ s.table, r'.id = r.id
      ∧ r'.merkleLeaf = r.merkleLeaf
      ∧ ∀ b, r.batchId = some b → r'.batchId = some b :=
    fun r hr => ⟨r, hr, rfl, rfl, fun _ h => h⟩
  cases h with
  | quiet htable _ hdrawn _ _ hopen _ =>
      refine ⟨by rw [htable]; exact hsame, fun b hb => ⟨⟨?_, ?_⟩, ?_⟩⟩
      · rw [hdrawn]
        exact hb.1
      · exact fun c m hpc => hb.2 c m ((hopen c m b).1 hpc)
      · rw [htable]
  | insert r hbatch _ _ =>
      refine ⟨fun r' hr' => ?_, fun b hb => ⟨hb, ?_⟩⟩
      · exact ⟨r', List.mem_append_left _ hr', rfl, rfl, fun _ h => h⟩
      · exact batchLeaves_insert s.table hbatch b
  | @update c m n e bid hpc hfresh _ =>
      refine ⟨hsame, fun b hb => ⟨⟨?_, ?_⟩, rfl⟩⟩
      · exact List.mem_cons_of_mem _ hb.1
      · intro c' m' hpc'
        change s.move c _ c' = _ at hpc'
        by_cases h : c' = c
        · subst h
          rw [move_self] at hpc'
          cases hpc'
          exact hfresh hb.1
        · rw [move_of_ne s _ h] at hpc'
          exact hb.2 c' m' hpc'
  | @commit _ c m bid hpc =>
      refine ⟨fun r hr => ?_, fun b hb => ⟨⟨hb.1, ?_⟩, ?_⟩⟩
      · show ∃ r' ∈ assignBatch s.table (fun id => s.locks id = some c) bid, _
        by_cases hheld : s.locks r.id = some c
        · refine ⟨{ r with batchId := some bid }, mem_assignBatch.2
            ⟨r, hr, Or.inl ⟨decide_eq_true hheld, rfl⟩⟩, rfl, rfl, ?_⟩
          intro b hb
          rw [hs.lock_unbatched r.id c hheld r hr rfl] at hb
          cases hb
        · exact ⟨r, mem_assignBatch.2
            ⟨r, hr, Or.inr ⟨decide_eq_false hheld, rfl⟩⟩, rfl, rfl,
            fun _ h => h⟩
      · exact settled_move (fun _ _ h => by cases h) hb
      · show batchLeaves
          (assignBatch s.table (fun id => s.locks id = some c) bid) b = _
        refine batchLeaves_assignBatch (held_unbatched hs) ?_
        intro h
        exact hb.2 c m (h ▸ hpc)
  | @record _ c job hash block pc hpc hres =>
      refine ⟨fun r hr => ?_, fun b hb => ⟨⟨hb.1, ?_⟩, ?_⟩⟩
      · by_cases hb : r.batchId = some job.bid
        · exact ⟨_, mem_setAnchored.2 ⟨r, hr, Or.inl ⟨hb, rfl⟩⟩, rfl, rfl,
            fun _ h => h⟩
        · exact ⟨r, mem_setAnchored.2 ⟨r, hr, Or.inr ⟨hb, rfl⟩⟩, rfl, rfl,
            fun _ h => h⟩
      · refine settled_move (fun m b h => ?_) hb
        rw [h] at hres
        cases hres
      · exact batchLeaves_setAnchored s.table job.bid b _
  | crash =>
      refine ⟨hsame, fun b hb => ⟨⟨hb.1, ?_⟩, rfl⟩⟩
      exact settled_move (fun _ _ h => by cases h) hb

/-- nor does any run. -/
theorem stable_run {K : Keccak} {s s' : State} {acts : List Action}
    (hs : DbInv s) (hrun : run (step K) s acts = some s') : Stable s s' :=
  run_stable (fun hs h => dbInv_step hs (step_db h)) Stable.refl Stable.trans
    (fun hs h => stable_step hs (step_db h)) hs hrun

/-- The COMMIT settles the batch it assigns. -/
theorem settled_commit {s s' : State} (hs : DbInv s) {c : ClientId} {m : Int}
    {bid : Uuid} (hpc : s.clients c = .updated m bid)
    (hclients : s'.clients = s.move c (.created bid))
    (hdrawn : s'.drawn = s.drawn) : Settled s' bid := by
  refine ⟨by rw [hdrawn]; exact hs.open_drawn c m bid hpc, fun c' m' hpc' => ?_⟩
  rw [hclients] at hpc'
  obtain ⟨hne, hold⟩ := updated_of_move (fun _ _ h => by cases h) hpc'
  exact hne (hs.open_inj c' c m' m bid hold hpc)

/-- A batch id `create_batch` returned is settled. -/
theorem returned_settled_step {s s' : State} {a : Action} (hs : DbInv s)
    (hret : ∀ p ∈ s.returned, Settled s p.1) (h : DbStep s a s') :
    ∀ p ∈ s'.returned, Settled s' p.1 := by
  have hst := stable_step hs h
  cases h with
  | quiet _ _ _ _ hreturned _ _ =>
      rw [hreturned]
      exact fun p hp => (hst.settled p.1 (hret p hp)).1
  | @commit _ c m bid hpc =>
      intro p hp
      rcases List.mem_cons.1 hp with rfl | hp
      · exact settled_commit hs hpc rfl rfl
      · exact (hst.settled p.1 (hret p hp)).1
  | insert => exact fun p hp => (hst.settled p.1 (hret p hp)).1
  | update => exact fun p hp => (hst.settled p.1 (hret p hp)).1
  | record => exact fun p hp => (hst.settled p.1 (hret p hp)).1
  | crash => exact fun p hp => (hst.settled p.1 (hret p hp)).1

end Proofstand.Anchor
