/-
`orchestrator/hires.py`: one hire, and the calls that cancel it.

`_run` and the worker it awaits take their steps one after the other.
`cancel` runs in other threads, as often as it is called: its look at the
status, its mark on the hire and its answer are steps of their own.
`run_hire` reads nothing that a cancel writes, so its phases are steps
that name themselves, and what it does to the tables is the step of its
commit; it may raise after any phase. The event stream and the texts of
the phases are left out.

# What may be interleaved

An `Act` is one step of `_run` or of one call. The calls are a list, each
with a program counter of its own; a new one can begin at any moment, and
none has to go on. A step that is not the coroutine's next is no step at
all (`runStep` has no result), so a run of the system is a list of acts
that can be taken from `start`.

# The worker

What `run_hire` does to the tables is a function in the `Job`, given by
whoever hires; `Job.ofAgent` is the one that runs the persisted harness.
It takes place in one step, at its commit: what an agent has done before
that is seen by nobody else.
-/
import Proofstand.Lib.Transition
import Proofstand.Orchestrator.Persist

namespace Proofstand.Hires

open Session Persist

variable {K S D P : Type}

-- ================================================================ a hire

/-- The status of a hire. -/
inductive HireStatus
  | queued | running | ok | failed | halted | cancelled
  deriving DecidableEq, Repr

/-- The phases the harness and the hire emit. -/
inductive Phase
  | start | validate | observe | decide | act | report | baseline | persist
  | done | error
  deriving DecidableEq, Repr

/-- `Hire`; its `run_id` and `receipt_id` are those of the outcome. -/
structure Hire (K : Type) where
  status : HireStatus := .queued
  phase : Option Phase := none
  error : Option String := none
  outcome : Option (Hired K) := none
  cancelled : Bool := false

/-- What a hire is about: whether its agent can be built, and its
`run_hire`. -/
structure Job (K : Type) where
  build : Py Unit
  runHire : Db K → Outcome Exc (Db K) (Hired K)

/-- The hire of an agent: no signer, and persisted. -/
def Job.ofAgent [Field K] [LinearOrder K] [DecidableEq P] (build : Py Unit)
    (sha : PyVal K → String) (baseline : PyVal K → Py (Result K))
    (agent : LiveAgent K S D P) (tier : Nat) (inputs : Dict K)
    (sv : Server K) : Job K where
  build := build
  runHire := Persist.runHire sha baseline agent tier inputs none true sv

-- =============================================================== its state

/-- Where `_run` and its worker are. -/
inductive Pc (K : Type)
  | queued
  | begun
  | built
  | inHarness (todo : List Phase)
  | committed (hired : Hired K)
  | returned (hired : Hired K)
  | flagRead (flag : Bool)
  | raised (e : Exc)
  | ended

/-- Where a call of `cancel` is. -/
inductive Call
  | called
  | passed
  | marked
  | returned (answer : Bool)
  deriving DecidableEq, Repr

/-- The hire, the tables, where its coroutine is, and the cancel calls there
are. -/
structure State (K : Type) where
  hire : Hire K
  pc : Pc K
  calls : List Call
  db : Db K

/-- `start`: the hire is made, its task not begun. -/
def start (db : Db K) : State K := ⟨{}, .queued, [], db⟩

-- ================================================================== steps

/-- What `run_hire` emits before its commit. -/
def harnessPhases : List Phase :=
  [.validate, .observe, .decide, .act, .report, .baseline, .persist]

/-- The steps of `_run` and of `_blocking`. -/
inductive RunStep
  | begin | build | check | emit | harness | done | readFlag | settle | fail
  deriving DecidableEq, Repr

/-- One step of the coroutine or of a call. -/
inductive Act
  | run (r : RunStep)
  | call
  | look (i : Nat)
  | mark (i : Nat)
  | answer (i : Nat)
  deriving DecidableEq, Repr

/-- What a step of the coroutine does, if it is the next. -/
def runStep (job : Job K) (s : State K) : RunStep → Option (State K)
  | .begin =>
      match s.pc with
      | .queued => some { s with
          hire := { s.hire with status := .running, phase := some .start }
          pc := .begun }
      | _ => none
  | .build =>
      match s.pc, job.build with
      | .begun, .ok () => some { s with pc := .built }
      | .begun, .error e => some { s with pc := .raised e }
      | _, _ => none
  | .check =>
      match s.pc with
      | .built =>
          if s.hire.cancelled then
            some { s with
              pc := .raised ⟨.RuntimeError, "cancelled before start"⟩ }
          else some { s with pc := .inHarness harnessPhases }
      | _ => none
  | .emit =>
      match s.pc with
      | .inHarness (p :: todo) => some { s with
          hire := { s.hire with phase := some p }
          pc := .inHarness todo }
      | _ => none
  | .harness =>
      match s.pc, job.runHire s.db with
      | .inHarness [], (.ok hired, db) =>
          some { s with pc := .committed hired, db := db }
      | .inHarness _, (.error e, db) =>
          some { s with pc := .raised e, db := db }
      | _, _ => none
  | .done =>
      match s.pc with
      | .committed hired => some { s with
          hire := { s.hire with phase := some .done }
          pc := .returned hired }
      | _ => none
  | .readFlag =>
      match s.pc with
      | .returned hired => some { s with
          hire := { s.hire with outcome := some hired }
          pc := .flagRead s.hire.cancelled }
      | _ => none
  | .settle =>
      match s.pc with
      | .flagRead flag => some { s with
          hire := { s.hire with
            status := if flag then .cancelled else .ok
            phase := some .done }
          pc := .ended }
      | _ => none
  | .fail =>
      match s.pc with
      | .raised e => some { s with
          hire := { s.hire with
            status := .failed
            error := some (String.ofList (e.msg.toList.take 400))
            phase := some .error }
          pc := .ended }
      | _ => none

/-- `h.status not in ("queued", "running")`, as `cancel` asks it. -/
def cancellable (h : Hire K) : Bool :=
  h.status = .queued ∨ h.status = .running

/-- What each step does, if it can be taken. -/
def step (job : Job K) (s : State K) : Act → Option (State K)
  | .run r => runStep job s r
  | .call => some { s with calls := s.calls ++ [.called] }
  | .look i =>
      match s.calls[i]? with
      | some .called => some { s with
          calls := s.calls.set i
            (if cancellable s.hire then .passed else .returned false) }
      | _ => none
  | .mark i =>
      match s.calls[i]? with
      | some .passed => some { s with
          hire := { s.hire with cancelled := true }
          calls := s.calls.set i .marked }
      | _ => none
  | .answer i =>
      match s.calls[i]? with
      | some .marked => some { s with
          calls := s.calls.set i (.returned true) }
      | _ => none

end Proofstand.Hires
