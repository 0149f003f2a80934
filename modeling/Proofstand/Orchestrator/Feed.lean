/-
`orchestrator/hires.py`: the events of a hire and the streams that read
them.

There is one queue per hire. `on_phase`, and the `finally` of `_run`,
have the event loop put an item on it; every `stream` of the hire takes
its items from it. The steps of `_run`, of its worker and of `cancel`
are those of `Orchestrator.Hires`, each with what it schedules. The rest
are the loop's `put_nowait`, and what one subscriber does between two
points at which another may run: it connects, takes an item, gives up a
wait, or looks at the status after the keepalive it then sent.

A wait may be given up with an item in the queue, which stays there. A
message's text is whatever its step says (no modelled code reads it),
and a client reads its stream to the end.
-/
import Proofstand.Orchestrator.Hires

namespace Proofstand.Hires

variable {K : Type}

-- ============================================================== its events

/-- What `on_phase` puts on the queue. -/
structure Event where
  phase : Phase
  message : String
  deriving DecidableEq, Repr

/-- What a step schedules: its event, and the sentinel after the last. -/
def scheduled (s : State K) (message : String) : Act → List (Option Event)
  | .run .begin => [some ⟨.start, message⟩]
  | .run .emit =>
      match s.pc with
      | .inHarness (p :: _) => [some ⟨p, message⟩]
      | _ => []
  | .run .done => [some ⟨.done, message⟩]
  | .run .settle => [some ⟨.done, message⟩, none]
  | .run .fail =>
      match s.pc with
      | .raised e =>
          [some ⟨.error, String.ofList (e.msg.toList.take 400)⟩, none]
      | _ => []
  | _ => []

-- ============================================================= subscribers

/-- What `stream` yields. -/
inductive Msg (K : Type)
  | connected (phase : Option Phase) (status : HireStatus)
  | event (e : Event) (status : HireStatus)
  | keepalive (phase : Option Phase) (status : HireStatus)
  | closed (status : HireStatus) (delta : Option K)

/-- Where a subscriber's coroutine is. -/
inductive SubscriberPc
  | waiting
  | timedOut
  | ended
  deriving DecidableEq, Repr

/-- A subscriber, what it was sent so far, and whether it connected before
the hire's first event. -/
structure Subscriber (K : Type) where
  early : Bool
  sent : List (Msg K)
  pc : SubscriberPc

/-- One message more, and where it goes on. -/
def Subscriber.send (sub : Subscriber K) (msg : Msg K) (pc : SubscriberPc) :
    Subscriber K :=
  { sub with sent := sub.sent ++ [msg], pc := pc }

/-- The stream's last message. -/
def closing (h : Hire K) : Msg K :=
  .closed h.status (h.outcome.map fun o => o.outcome.delta)

/-- What a subscriber does with an item: it passes an event on, and closes
at the sentinel. -/
def Subscriber.take (sub : Subscriber K) (h : Hire K) :
    Option Event → Subscriber K
  | some e => sub.send (.event e h.status) .waiting
  | none => sub.send (closing h) .ended

/-- A hire with its events: all that were emitted, those the loop has still
to put on the queue, the queue, and who reads it. -/
structure Feed (K : Type) where
  base : State K
  emitted : List Event
  soon : List (Option Event)
  queue : List (Option Event)
  subs : List (Subscriber K)

/-- No event yet, and nobody subscribed. -/
def Feed.start (db : Db K) : Feed K := ⟨Hires.start db, [], [], [], []⟩

-- ================================================================== steps

/-- One step of the hire, of the callbacks it scheduled, or of a subscriber. -/
inductive FeedAct
  | hire (a : Act) (message : String)
  | put
  | connect
  | read (i : Nat)
  | timeout (i : Nat)
  | recheck (i : Nat)
  deriving DecidableEq, Repr

/-- What each step does, if it can be taken. -/
def feedStep (job : Job K) (s : Feed K) : FeedAct → Option (Feed K)
  | .hire a message =>
      (step job s.base a).map fun base => { s with
        base := base
        emitted := s.emitted ++ (scheduled s.base message a).reduceOption
        soon := s.soon ++ scheduled s.base message a }
  | .put =>
      match s.soon with
      | x :: rest => some { s with soon := rest, queue := s.queue ++ [x] }
      | [] => none
  | .connect => some { s with
      subs := s.subs ++ [{
        early := s.emitted = []
        sent := [.connected s.base.hire.phase s.base.hire.status]
        pc := .waiting }] }
  | .read i =>
      match s.subs[i]?, s.queue with
      | some sub, x :: rest =>
          if sub.pc = .waiting then some { s with
            queue := rest
            subs := s.subs.set i (sub.take s.base.hire x) }
          else none
      | _, _ => none
  | .timeout i =>
      match s.subs[i]? with
      | some sub =>
          if sub.pc = .waiting then some { s with
            subs := s.subs.set i (sub.send
              (.keepalive s.base.hire.phase s.base.hire.status) .timedOut) }
          else none
      | none => none
  | .recheck i =>
      match s.subs[i]? with
      | some sub =>
          if sub.pc = .timedOut then some { s with
            subs := s.subs.set i (if cancellable s.base.hire then
                { sub with pc := .waiting }
              else sub.send (closing s.base.hire) .ended) }
          else none
      | none => none

end Proofstand.Hires
