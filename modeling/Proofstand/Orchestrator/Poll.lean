/-
`orchestrator/hires.py` `Hire.snapshot`, which `GET /hires/{id}` answers
with.

`_run` sets a hire's attributes one at a time and a handler, in a thread of
its own, reads them one at a time; nothing puts either in one piece. A
step of `Orchestrator.Hires` that sets several leaves the assignments in
`pending`, and each of them takes effect as a step of its own before `_run`
goes on. What other hires write to the tables is left out.

# Why assignments are steps

Python swaps threads between bytecodes, so a handler may read the status,
wait, and read the outcome after several more assignments. A record that
is written in one piece would rule out the very answers in question.

The order of the assignments is the source's: the outcome and the id of
the receipt come before a status that is no failure, and after `failed`
comes its error. The order of the reads is that of `snapshot`, and the
receipt is looked up in the tables of the moment the handler asks.
-/
import Proofstand.Orchestrator.Hires
import Proofstand.Orchestrator.Queries

namespace Proofstand.Hires

open Anchor (Uuid)
open Harness Persist Queries

variable {K : Type}

-- ============================================================== attributes

/-- The attributes `snapshot` reads. -/
structure Attrs (K : Type) where
  status : HireStatus := .queued
  phase : Option Phase := none
  error : Option String := none
  outcome : Option (HireOutcome K) := none
  receiptId : Option Uuid := none

/-- An assignment to one of them. -/
inductive Write (K : Type)
  | status (status : HireStatus)
  | phase (phase : Phase)
  | error (error : String)
  | outcome (outcome : HireOutcome K)
  | receiptId (receiptId : Option Uuid)

/-- An assignment has taken effect. -/
def Attrs.set (h : Attrs K) : Write K → Attrs K
  | .status st => { h with status := st }
  | .phase p => { h with phase := some p }
  | .error e => { h with error := some e }
  | .outcome o => { h with outcome := some o }
  | .receiptId r => { h with receiptId := r }

/-- `hire.receipt_id`, of what was written. -/
def receiptIdOf (hired : Hired K) : Option Uuid :=
  hired.written.map fun ids => ids.2.2

/-- The assignments of a step, in the order of the source. -/
def writes (s : State K) : Act → List (Write K)
  | .run .begin => [.status .running, .phase .start]
  | .run .emit =>
      match s.pc with
      | .inHarness (p :: _) => [.phase p]
      | _ => []
  | .run .done => [.phase .done]
  | .run .readFlag =>
      match s.pc with
      | .returned hired =>
          [.outcome hired.outcome, .receiptId (receiptIdOf hired)]
      | _ => []
  | .run .settle =>
      match s.pc with
      | .flagRead flag =>
          [.status (if flag then .cancelled else .ok), .phase .done]
      | _ => []
  | .run .fail =>
      match s.pc with
      | .raised e =>
          [.status .failed,
           .error (String.ofList (e.msg.toList.take 400)), .phase .error]
      | _ => []
  | _ => []

-- ================================================================= readers

/-- What `snapshot` returns; the receipt is none where there is no id, and
none inside where there is no row. -/
structure Snapshot (K : Type) where
  status : HireStatus := .queued
  phase : Option Phase := none
  error : Option String := none
  outcome : Option (HireOutcome K) := none
  receipt : Option (Option (ReceiptOut K)) := none

/-- What a handler reads next. -/
inductive ReaderPc
  | status | phase | error | outcome | receiptId
  | query (id : Uuid)
  | returned
  deriving DecidableEq, Repr

/-- A handler of the request, with the attributes it has read. -/
structure Reader (K : Type) where
  pc : ReaderPc := .status
  snap : Snapshot K := {}

/-- The next read of a handler. -/
def Reader.next [Field K] [LinearOrder K] (r : Reader K) (h : Attrs K)
    (db : Db K) : Reader K :=
  match r.pc with
  | .status => ⟨.phase, { r.snap with status := h.status }⟩
  | .phase => ⟨.error, { r.snap with phase := h.phase }⟩
  | .error => ⟨.outcome, { r.snap with error := h.error }⟩
  | .outcome => ⟨.receiptId, { r.snap with outcome := h.outcome }⟩
  | .receiptId =>
      match h.receiptId with
      | some id => { r with pc := .query id }
      | none => { r with pc := .returned }
  | .query id =>
      ⟨.returned, { r.snap with receipt := some (receiptById db id) }⟩
  | .returned => r

-- ================================================================== system

/-- The hire, its attributes as a handler sees them, the assignments still to
come, and the handlers. -/
structure Polled (K : Type) where
  base : State K
  attrs : Attrs K
  pending : List (Write K)
  readers : List (Reader K)

/-- Nothing assigned yet, and nobody asking. -/
def Polled.start (db : Db K) : Polled K := ⟨Hires.start db, {}, [], []⟩

/-- One step of the hire, of an assignment or of a handler. -/
inductive PollAct
  | hire (a : Act)
  | assign
  | get
  | read (i : Nat)
  deriving DecidableEq, Repr

/-- A step of `_run` waits for the assignments before it. -/
def Act.waits : Act → Bool
  | .run _ => true
  | _ => false

/-- What each step does, if it can be taken. -/
def pollStep [Field K] [LinearOrder K] (job : Job K) (s : Polled K) :
    PollAct → Option (Polled K)
  | .hire a =>
      if a.waits && !s.pending.isEmpty then none
      else (step job s.base a).map fun base => { s with
        base := base
        pending := s.pending ++ writes s.base a }
  | .assign =>
      match s.pending with
      | w :: rest => some { s with attrs := s.attrs.set w, pending := rest }
      | [] => none
  | .get => some { s with readers := s.readers ++ [{}] }
  | .read i =>
      match s.readers[i]? with
      | some r => some { s with
          readers := s.readers.set i (r.next s.attrs s.base.db) }
      | none => none

end Proofstand.Hires
