/-
Who sees a hire's events.

The queue hands each item to one reader, so every event is with one
subscriber or still to be taken (`Sound.partition`). A subscriber that
was there before the first event therefore misses an event as soon as
another takes one, and misses what is left when it closes on a status
instead of on the sentinel. A run without such a step (`keepsWhole`)
gives it every event, in order, and then the close
(`delivered_of_guarded`); a run with one has lost an event for good
(`lost_step`). So a run in which the early subscribers' streams have
ended delivered exactly if none of its steps was of that kind.
-/
import Proofstand.Orchestrator.Feed
import Proofstand.Orchestrator.Proofs.Hires

namespace Proofstand.Hires

open Session Persist Transition

variable {K : Type}

-- ============================================================== the promise

def Msg.event? : Msg K → Option Event
  | .event e _ => some e
  | _ => none

def Msg.isClosed : Msg K → Bool
  | .closed _ _ => true
  | _ => false

/-- The phase events a subscriber was sent. -/
def Subscriber.events (sub : Subscriber K) : List Event :=
  sub.sent.filterMap Msg.event?

/-- The events no subscriber has taken. -/
def Feed.left (s : Feed K) : List Event := (s.queue ++ s.soon).reduceOption

/-- The subscriber was sent every phase event of the hire, each once and in
the order they were emitted, and then that the stream is closed. -/
def Sees (s : Feed K) (sub : Subscriber K) : Prop :=
  s.base.pc = .ended ∧ sub.events = s.emitted
    ∧ ∃ sent status delta, sub.sent = sent ++ [.closed status delta]
      ∧ ∀ msg ∈ sent, msg.isClosed = false

/-- What an early subscriber was sent so far begins the hire's events; all
of them, once its stream has ended. -/
def Delivered (s : Feed K) : Prop :=
  ∀ (i : Nat) sub, s.subs[i]? = some sub → sub.early = true →
    sub.events <+: s.emitted ∧ (sub.pc = .ended → Sees s sub)

/-- There from the first event on, and its stream not ended. -/
def Subscriber.follows (sub : Subscriber K) : Bool :=
  sub.early && sub.pc ≠ .ended

/-- What a step needs to keep the promise: no event is taken while another
subscriber follows the hire, and none is left where an early one closes
after a wait. -/
def keepsWhole (s : Feed K) : FeedAct → Bool
  | .read i =>
      match s.queue with
      | some _ :: _ => s.subs.zipIdx.all fun p => p.2 = i || !p.1.follows
      | _ => true
  | .recheck i =>
      match s.subs[i]? with
      | some sub =>
          !sub.early || cancellable s.base.hire || s.left.isEmpty
      | none => true
  | _ => true

-- ==================================================================== steps

/-- What a step of the feed does. -/
inductive Fed (job : Job K) (s : Feed K) : FeedAct → Feed K → Prop
  | hire {a : Act} {message : String} {base : State K}
      (hstep : step job s.base a = some base) :
      Fed job s (.hire a message) { s with
        base := base
        emitted := s.emitted ++ (scheduled s.base message a).reduceOption
        soon := s.soon ++ scheduled s.base message a }
  | put {x : Option Event} {rest : List (Option Event)}
      (hsoon : s.soon = x :: rest) :
      Fed job s .put { s with soon := rest, queue := s.queue ++ [x] }
  | connect : Fed job s .connect { s with
      subs := s.subs ++ [{
        early := s.emitted = []
        sent := [.connected s.base.hire.phase s.base.hire.status]
        pc := .waiting }] }
  | read {i : Nat} {sub : Subscriber K} {x : Option Event}
      {rest : List (Option Event)} (hsub : s.subs[i]? = some sub)
      (hpc : sub.pc = .waiting) (hqueue : s.queue = x :: rest) :
      Fed job s (.read i) { s with
        queue := rest
        subs := s.subs.set i (sub.take s.base.hire x) }
  | timeout {i : Nat} {sub : Subscriber K} (hsub : s.subs[i]? = some sub)
      (hpc : sub.pc = .waiting) :
      Fed job s (.timeout i) { s with
        subs := s.subs.set i (sub.send
          (.keepalive s.base.hire.phase s.base.hire.status) .timedOut) }
  | again {i : Nat} {sub : Subscriber K} (hsub : s.subs[i]? = some sub)
      (hpc : sub.pc = .timedOut) (hopen : cancellable s.base.hire = true) :
      Fed job s (.recheck i) { s with
        subs := s.subs.set i { sub with pc := .waiting } }
  | closes {i : Nat} {sub : Subscriber K} (hsub : s.subs[i]? = some sub)
      (hpc : sub.pc = .timedOut) (hover : cancellable s.base.hire = false) :
      Fed job s (.recheck i) { s with
        subs := s.subs.set i (sub.send (closing s.base.hire) .ended) }

/-- The step function does what the account says, and nothing else. -/
theorem fed_of_step {job : Job K} {s s' : Feed K} {a : FeedAct}
    (h : feedStep job s a = some s') : Fed job s a s' := by
  cases a with
  | hire a message =>
      obtain ⟨base, hstep, rfl⟩ := Option.map_eq_some_iff.1 h
      exact .hire hstep
  | put =>
      simp only [feedStep] at h
      split at h
      case h_2 => cases h
      case h_1 hsoon =>
        cases h
        exact .put hsoon
  | connect =>
      cases h
      exact .connect
  | read i =>
      simp only [feedStep] at h
      split at h
      case h_2 => cases h
      case h_1 hsub hqueue =>
        split at h
        · rename_i hpc
          cases h
          exact .read hsub hpc hqueue
        · cases h
  | timeout i =>
      simp only [feedStep] at h
      split at h
      case h_2 => cases h
      case h_1 hsub =>
        split at h
        · rename_i hpc
          cases h
          exact .timeout hsub hpc
        · cases h
  | recheck i =>
      simp only [feedStep] at h
      split at h
      case h_2 => cases h
      case h_1 hsub =>
        split at h
        · rename_i hpc
          cases hcan : cancellable s.base.hire with
          | true =>
              rw [hcan, if_pos rfl] at h
              cases h
              exact .again hsub hpc hcan
          | false =>
              rw [hcan, if_neg Bool.false_ne_true] at h
              cases h
              exact .closes hsub hpc hcan
        · cases h

-- ================================================================= the hire

/-- While `_run` goes on, the status is one that a cancel may find. -/
def Open (s : State K) : Prop :=
  s.pc ≠ .ended → cancellable s.hire = true

theorem open_start (db : Db K) : Open (start db) := fun _ => rfl

/-- Until it ends, the run changes the status to RUNNING only. -/
theorem runStep_status {job : Job K} {s s' : State K} {r : RunStep}
    (h : runStep job s r = some s') (hpc : s'.pc ≠ .ended) :
    s'.hire.status = .running ∨ s'.hire.status = s.hire.status := by
  cases r with
  | begin =>
      simp only [runStep] at h
      split at h
      case h_2 => cases h
      case h_1 =>
        cases h
        exact Or.inl rfl
  | build | harness =>
      simp only [runStep] at h
      split at h
      case h_3 => cases h
      case h_1 =>
        cases h
        exact Or.inr rfl
      case h_2 =>
        cases h
        exact Or.inr rfl
  | check =>
      simp only [runStep] at h
      split at h
      case h_2 => cases h
      case h_1 =>
        split at h
        · cases h
          exact Or.inr rfl
        · cases h
          exact Or.inr rfl
  | emit | done | readFlag =>
      simp only [runStep] at h
      split at h
      case h_2 => cases h
      case h_1 =>
        cases h
        exact Or.inr rfl
  | settle | fail =>
      simp only [runStep] at h
      split at h
      case h_2 => cases h
      case h_1 =>
        cases h
        exact absurd rfl hpc

/-- The feed stays open until the run has ended. -/
theorem open_step {job : Job K} {s s' : State K} {a : Act} (hs : Open s)
    (h : step job s a = some s') : Open s' := by
  intro hpc
  by_cases hrun : ∃ r, a = .run r
  · obtain ⟨r, rfl⟩ := hrun
    have hgoes : s.pc ≠ .ended := by
      intro hended
      rw [step, runStep_ended hended] at h
      cases h
    rcases runStep_status h hpc with hrunning | hsame
    · simp [cancellable, hrunning]
    · have hopen := hs hgoes
      simp only [cancellable, hsame] at hopen ⊢
      exact hopen
  · have hcall := callStep_of_step (fun r hr => hrun ⟨r, hr⟩) h
    rw [hcall.pc] at hpc
    have hopen := hs hpc
    simp only [cancellable, hcall.status] at hopen ⊢
    exact hopen

/-- What a step schedules: events while `_run` goes on, one event and the
sentinel where it ends, and nothing else. -/
inductive Schedules (s s' : State K) : List (Option Event) → Prop
  | going (es : List Event) (hgoes : s.pc ≠ .ended) (hpc : s'.pc ≠ .ended) :
      Schedules s s' (es.map some)
  | last (e : Event) (hgoes : s.pc ≠ .ended) (hpc : s'.pc = .ended) :
      Schedules s s' [some e, none]
  | call (hpc : s'.pc = s.pc) : Schedules s s' []

/-- An `emit` schedules events, and never the end of the stream; -/
theorem scheduled_emit (s : State K) (message : String) :
    ∃ es : List Event, scheduled s message (.run .emit) = es.map some := by
  simp only [scheduled]
  split
  · exact ⟨[⟨_, message⟩], rfl⟩
  · exact ⟨[], rfl⟩

/-- and a step schedules what `scheduled` lists. -/
theorem schedules_of_step {job : Job K} {s s' : State K} {a : Act}
    (message : String) (h : step job s a = some s') :
    Schedules s s' (scheduled s message a) := by
  by_cases hrun : ∃ r, a = .run r
  · obtain ⟨r, rfl⟩ := hrun
    have hgoes : s.pc ≠ .ended := by
      intro hended
      rw [step, runStep_ended hended] at h
      cases h
    obtain ⟨-, hran⟩ := runStep_ran h
    cases hran with
    | went hr hpc _ =>
        obtain ⟨hharness, hsettle, hfail⟩ := hr
        cases r with
        | harness => exact absurd rfl hharness
        | settle => exact absurd rfl hsettle
        | fail => exact absurd rfl hfail
        | begin => exact .going [⟨.start, message⟩] hgoes hpc
        | done => exact .going [⟨.done, message⟩] hgoes hpc
        | build | check | readFlag => exact .going [] hgoes hpc
        | emit =>
            obtain ⟨es, hes⟩ := scheduled_emit s message
            rw [hes]
            exact .going es hgoes hpc
    | hired hpc _ => exact .going [] hgoes hpc
    | settled _ _ hpc _ _ => exact .last ⟨.done, message⟩ hgoes hpc
    | failed hpc _ _ =>
        simp only [step, runStep] at h
        split at h
        case h_2 => cases h
        case h_1 e hraised =>
          simp only [scheduled, hraised]
          exact .last _ hgoes hpc
  · have hcall := callStep_of_step (fun r hr => hrun ⟨r, hr⟩) h
    cases a with
    | run r => exact absurd ⟨r, rfl⟩ hrun
    | call | look _ | mark _ | answer _ => exact .call hcall.pc

-- ============================================================ the readers

/-- What a subscriber was sent, after one more message, -/
@[simp] theorem events_send (sub : Subscriber K) (msg : Msg K)
    (pc : SubscriberPc) :
    (sub.send msg pc).events = sub.events ++ msg.event?.toList := by
  unfold Subscriber.events Subscriber.send
  rw [List.filterMap_append]
  cases h : msg.event? <;> simp [h]

/-- and where its handler stands; -/
@[simp] theorem send_pc (sub : Subscriber K) (msg : Msg K)
    (pc : SubscriberPc) : (sub.send msg pc).pc = pc := rfl

/-- taking an item from the queue adds its event, if it is one. -/
theorem events_take (sub : Subscriber K) (h : Hire K) (x : Option Event) :
    (sub.take h x).events = sub.events ++ x.toList := by
  cases x with
  | none =>
      rw [Subscriber.take, events_send]
      rfl
  | some e =>
      rw [Subscriber.take, events_send]
      rfl

/-- Replacing one reader takes its events from the readers' and adds the
new one's. -/
theorem flatMap_set {l : List (Subscriber K)} {i : Nat}
    {sub sub' : Subscriber K} {es : List Event} (hsub : l[i]? = some sub)
    (hevents : sub'.events = sub.events ++ es) :
    ((l.set i sub').flatMap Subscriber.events).Perm
      (l.flatMap Subscriber.events ++ es) := by
  induction l generalizing i with
  | nil => simp at hsub
  | cons c l ih =>
      cases i with
      | zero =>
          obtain rfl : c = sub := by simpa using hsub
          rw [List.set_cons_zero, List.flatMap_cons, List.flatMap_cons,
            hevents, List.append_assoc, List.append_assoc]
          exact List.perm_append_comm.append_left c.events
      | succ i =>
          rw [List.set_cons_succ, List.flatMap_cons, List.flatMap_cons,
            List.append_assoc]
          exact (ih (by simpa using hsub)).append_left c.events

/-- Two readers' events are among all readers'. -/
theorem length_two_le {l : List (Subscriber K)} {i j : Nat}
    {a b : Subscriber K} (hij : i < j) (ha : l[i]? = some a)
    (hb : l[j]? = some b) :
    a.events.length + b.events.length
      ≤ (l.flatMap Subscriber.events).length := by
  induction l generalizing i j with
  | nil => simp at ha
  | cons c l ih =>
      rw [List.flatMap_cons, List.length_append]
      match i, j with
      | 0, j + 1 =>
          obtain rfl : c = a := by simpa using ha
          have hb' : b ∈ l := List.mem_of_getElem? (by simpa using hb)
          have hsub := List.sublist_flatten_of_mem
            (List.mem_map_of_mem (f := Subscriber.events) hb')
          exact Nat.add_le_add_left hsub.length_le c.events.length
      | i + 1, j + 1 =>
          exact (ih (Nat.lt_of_succ_lt_succ hij) (by simpa using ha)
            (by simpa using hb)).trans (Nat.le_add_left _ _)

-- =============================================================== every run

/-- A subscriber's last message, and no other, closes its stream, once it
has ended. -/
def Subscriber.WellSent (sub : Subscriber K) : Prop :=
  if sub.pc = .ended then
    ∃ sent status delta, sub.sent = sent ++ [.closed status delta]
      ∧ ∀ msg ∈ sent, msg.isClosed = false
  else ∀ msg ∈ sub.sent, msg.isClosed = false

/-- What every step of a feed keeps. -/
structure Sound (s : Feed K) : Prop where
  closed : Closed s.base
  opened : Open s.base
  /-- the sentinel comes after the last event -/
  items : (∃ es : List Event, s.queue ++ s.soon = es.map some)
    ∨ s.base.pc = .ended
      ∧ ∃ es : List Event, s.queue ++ s.soon = es.map some ++ [none]
  /-- each event is with one subscriber, or left -/
  partition : (s.subs.flatMap Subscriber.events ++ s.left).Perm s.emitted
  begun : s.base.pc = .ended → s.emitted ≠ []
  sent : ∀ sub ∈ s.subs, sub.WellSent

theorem sound_start (db : Db K) : Sound (Feed.start db) where
  closed := closed_start db
  opened := open_start db
  items := Or.inl ⟨[], rfl⟩
  partition := List.Perm.refl _
  begun := by
    intro h
    cases h
  sent := by
    intro sub hsub
    cases hsub

-- what each kind of step does to the events left

/-- What is scheduled is left at the end of what is left; -/
theorem left_schedule (s : Feed K) (base : State K) (emitted : List Event)
    (new : List (Option Event)) :
    Feed.left { s with
      base := base, emitted := emitted, soon := s.soon ++ new }
      = s.left ++ new.reduceOption := by
  unfold Feed.left
  rw [← List.append_assoc, List.reduceOption_append]

/-- moving an item into the queue changes neither the items nor their order, -/
theorem items_put {s : Feed K} {x : Option Event}
    {rest : List (Option Event)} (hsoon : s.soon = x :: rest) :
    s.queue ++ [x] ++ rest = s.queue ++ s.soon := by
  rw [hsoon, List.append_assoc]
  rfl

/-- nor what is left, -/
theorem left_put {s : Feed K} {x : Option Event}
    {rest : List (Option Event)} (hsoon : s.soon = x :: rest) :
    Feed.left { s with soon := rest, queue := s.queue ++ [x] } = s.left :=
  congrArg List.reduceOption (items_put hsoon)

/-- and reading one takes it off the front. -/
theorem left_read {s : Feed K} {x : Option Event}
    {rest : List (Option Event)} (hqueue : s.queue = x :: rest)
    (subs : List (Subscriber K)) :
    s.left = x.toList
      ++ Feed.left { s with queue := rest, subs := subs } := by
  unfold Feed.left
  rw [hqueue, List.cons_append]
  cases x with
  | none => rfl
  | some e => rfl

/-- A message that does not close keeps a stream well formed, -/
theorem wellSent_send {sub : Subscriber K} {msg : Msg K} {pc : SubscriberPc}
    (h : sub.WellSent) (hopen : sub.pc ≠ .ended)
    (hmsg : msg.isClosed = false) (hpc : pc ≠ .ended) :
    (sub.send msg pc).WellSent := by
  rw [Subscriber.WellSent, if_neg hopen] at h
  rw [Subscriber.WellSent, Subscriber.send, if_neg hpc]
  intro m hm
  rcases List.mem_append.1 hm with hm | hm
  · exact h m hm
  · rw [List.mem_singleton.1 hm]
    exact hmsg

/-- and so does the closing one, when it is the last. -/
theorem wellSent_close {sub : Subscriber K} (hire : Hire K)
    (h : sub.WellSent) (hopen : sub.pc ≠ .ended) :
    (sub.send (closing hire) .ended).WellSent := by
  rw [Subscriber.WellSent, if_neg hopen] at h
  rw [Subscriber.WellSent, Subscriber.send, if_pos rfl]
  exact ⟨sub.sent, _, _, rfl, h⟩

/-- A subscriber that is moved on leaves the hire, the items and the events
of all subscribers as they were. -/
theorem Sound.setSub {s : Feed K} (h : Sound s) {i : Nat}
    {sub sub' : Subscriber K} (hsub : s.subs[i]? = some sub)
    (hevents : sub'.events = sub.events) (hsent : sub'.WellSent) :
    Sound { s with subs := s.subs.set i sub' } where
  closed := h.closed
  opened := h.opened
  items := h.items
  partition := by
    have hnone : sub'.events = sub.events ++ [] := by
      rw [hevents, List.append_nil]
    have hperm := flatMap_set hsub hnone
    rw [List.append_nil] at hperm
    exact (hperm.append_right s.left).trans h.partition
  begun := h.begun
  sent := by
    intro m hm
    rcases List.mem_or_eq_of_mem_set hm with hm | rfl
    · exact h.sent m hm
    · exact hsent

/-- A step of the hire, or of a cancel. -/
theorem Sound.hire {job : Job K} {s : Feed K} (h : Sound s) {a : Act}
    {message : String} {base : State K}
    (hbase : step job s.base a = some base) :
    Sound { s with
      base := base
      emitted := s.emitted ++ (scheduled s.base message a).reduceOption
      soon := s.soon ++ scheduled s.base message a } := by
  have hnew := schedules_of_step message hbase
  generalize scheduled s.base message a = new at hnew
  have hplain : s.base.pc ≠ .ended →
      ∃ es : List Event, s.queue ++ s.soon = es.map some := by
    intro hgoes
    rcases h.items with hes | ⟨hended, -⟩
    · exact hes
    · exact absurd hended hgoes
  refine ⟨closed_step h.closed hbase, open_step h.opened hbase, ?_, ?_, ?_,
    h.sent⟩
  · simp only
    rw [← List.append_assoc]
    cases hnew with
    | going es hgoes hpc =>
        obtain ⟨es₀, hes₀⟩ := hplain hgoes
        left
        exact ⟨es₀ ++ es, by rw [hes₀, List.map_append]⟩
    | last e hgoes hpc =>
        obtain ⟨es₀, hes₀⟩ := hplain hgoes
        right
        refine ⟨hpc, es₀ ++ [e], ?_⟩
        rw [hes₀, List.map_append, List.append_assoc]
        rfl
    | call hpc =>
        rw [List.append_nil, hpc]
        exact h.items
  · rw [left_schedule, ← List.append_assoc]
    exact h.partition.append_right _
  · intro hended
    simp only
    cases hnew with
    | going es hgoes hpc => exact absurd hended hpc
    | last e hgoes hpc => simp
    | call hpc =>
        rw [hpc] at hended
        simpa using h.begun hended

/-- The loop's callbacks keep the account, -/
theorem Sound.put {s : Feed K} (h : Sound s) {x : Option Event}
    {rest : List (Option Event)} (hsoon : s.soon = x :: rest) :
    Sound { s with soon := rest, queue := s.queue ++ [x] } := by
  refine ⟨h.closed, h.opened, ?_, ?_, h.begun, h.sent⟩
  · simp only
    rw [items_put hsoon]
    exact h.items
  · rw [left_put hsoon]
    exact h.partition

/-- and so does a subscriber that connects. -/
theorem Sound.connect {s : Feed K} (h : Sound s) {sub : Subscriber K}
    (hpc : sub.pc ≠ .ended) (hevents : sub.events = [])
    (hsent : ∀ msg ∈ sub.sent, msg.isClosed = false) :
    Sound { s with subs := s.subs ++ [sub] } := by
  refine ⟨h.closed, h.opened, h.items, ?_, h.begun, ?_⟩
  · simp only [List.flatMap_append, List.flatMap_singleton]
    rw [hevents, List.append_nil]
    exact h.partition
  · intro m hm
    rcases List.mem_append.1 hm with hm | hm
    · exact h.sent m hm
    · rw [List.mem_singleton.1 hm, Subscriber.WellSent, if_neg hpc]
      exact hsent

/-- A subscriber takes an item. -/
theorem Sound.read {s : Feed K} (h : Sound s) {i : Nat}
    {sub : Subscriber K} {x : Option Event} {rest : List (Option Event)}
    (hsub : s.subs[i]? = some sub) (hopen : sub.pc ≠ .ended)
    (hqueue : s.queue = x :: rest) :
    Sound { s with
      queue := rest
      subs := s.subs.set i (sub.take s.base.hire x) } := by
  have hitems := h.items
  rw [hqueue, List.cons_append] at hitems
  refine ⟨h.closed, h.opened, ?_, ?_, h.begun, ?_⟩
  · rcases hitems with ⟨es, hes⟩ | ⟨hended, es, hes⟩
    · cases es with
      | nil => cases hes
      | cons e es =>
          left
          exact ⟨es, (List.cons.inj hes).2⟩
    · cases es with
      | nil =>
          left
          exact ⟨[], (List.cons.inj hes).2⟩
      | cons e es =>
          right
          exact ⟨hended, es, (List.cons.inj hes).2⟩
  · have hperm := flatMap_set hsub (events_take sub s.base.hire x)
    have hparts := h.partition
    rw [left_read hqueue (s.subs.set i (sub.take s.base.hire x)),
      ← List.append_assoc] at hparts
    exact (hperm.append_right _).trans hparts
  · have hwell := h.sent sub (List.mem_of_getElem? hsub)
    intro m hm
    rcases List.mem_or_eq_of_mem_set hm with hm | rfl
    · exact h.sent m hm
    · cases x with
      | none => exact wellSent_close s.base.hire hwell hopen
      | some e => exact wellSent_send hwell hopen rfl (by simp)

/-- Every step keeps the account. -/
theorem sound_step {job : Job K} {s s' : Feed K} {a : FeedAct} (h : Sound s)
    (hstep : feedStep job s a = some s') : Sound s' := by
  cases fed_of_step hstep with
  | hire hbase => exact h.hire hbase
  | put hsoon => exact h.put hsoon
  | connect => exact h.connect (by simp) rfl (by simp [Msg.isClosed])
  | read hsub hpc hqueue => exact h.read hsub (by simp [hpc]) hqueue
  | @timeout i sub hsub hpc =>
      have hwell := h.sent sub (List.mem_of_getElem? hsub)
      exact h.setSub hsub (by simp [Msg.event?])
        (wellSent_send hwell (by simp [hpc]) rfl (by simp))
  | @again i sub hsub hpc hcan =>
      have hwell := h.sent sub (List.mem_of_getElem? hsub)
      refine h.setSub hsub rfl ?_
      rw [Subscriber.WellSent, if_neg (by simp [hpc])] at hwell
      rw [Subscriber.WellSent, if_neg (by simp)]
      exact hwell
  | @closes i sub hsub hpc hover =>
      have hwell := h.sent sub (List.mem_of_getElem? hsub)
      exact h.setSub hsub (by simp [Msg.event?, closing])
        (wellSent_close s.base.hire hwell (by simp [hpc]))

-- ========================================================== guarded runs

/-- A subscriber's events and those left are the hire's; all of them are its
own once its stream has ended. -/
def WholeFor (s : Feed K) (sub : Subscriber K) : Prop :=
  (sub.pc ≠ .ended → sub.events ++ s.left = s.emitted)
    ∧ (sub.pc = .ended → s.base.pc = .ended ∧ sub.events = s.emitted)

/-- Every subscriber that was early has it so. -/
def Whole (s : Feed K) : Prop :=
  ∀ (i : Nat) sub, s.subs[i]? = some sub → sub.early = true →
    WholeFor s sub

/-- It holds at the start, where there is nothing to have. -/
theorem whole_start (db : Db K) : Whole (Feed.start db) := by
  intro i sub hsub
  cases hsub

/-- The entries of a list with one replaced. -/
theorem getElem?_set_cases {α : Type} {l : List α} {i j : Nat} {b c : α}
    (h : (l.set i b)[j]? = some c) : j = i ∧ c = b ∨ j ≠ i ∧ l[j]? = some c := by
  by_cases hij : i = j
  · subst hij
    rw [List.getElem?_set_self'] at h
    obtain ⟨d, -, rfl⟩ := Option.map_eq_some_iff.1 h
    exact Or.inl ⟨rfl, rfl⟩
  · rw [List.getElem?_set_ne hij] at h
    exact Or.inr ⟨fun hji => hij hji.symm, h⟩

/-- At the sentinel nothing is left. -/
theorem Sound.sentinel {s : Feed K} (h : Sound s)
    {rest : List (Option Event)} (hqueue : s.queue = none :: rest) :
    s.base.pc = .ended ∧ s.left = [] := by
  rcases h.items with ⟨es, hes⟩ | ⟨hended, es, hes⟩
  · rw [hqueue, List.cons_append] at hes
    cases es with
    | nil => cases hes
    | cons e es => cases hes
  · refine ⟨hended, ?_⟩
    rw [hqueue, List.cons_append] at hes
    cases es with
    | nil =>
        have hrest : rest ++ s.soon = [] := (List.cons.inj hes).2
        rw [left_read hqueue s.subs, Feed.left, hrest]
        rfl
    | cons e es => cases hes

/-- Where an event is taken under `keepsWhole`, no other subscriber
follows. -/
theorem alone_of_keepsWhole {s : Feed K} {i j : Nat} {e : Event}
    {rest : List (Option Event)} {sub : Subscriber K}
    (hguard : keepsWhole s (.read i) = true)
    (hqueue : s.queue = some e :: rest) (hsub : s.subs[j]? = some sub)
    (hji : j ≠ i) (hearly : sub.early = true) : sub.pc = .ended := by
  rw [keepsWhole, hqueue] at hguard
  have hj := List.all_eq_true.1 hguard (sub, j)
    (List.mk_mem_zipIdx_iff_getElem?.2 hsub)
  simpa [hji, Subscriber.follows, hearly] using hj

/-- A step of the hire, or of a cancel: what it emits is left. -/
theorem WholeFor.hire {job : Job K} {s : Feed K} {sub : Subscriber K}
    (h : WholeFor s sub) {a : Act} {message : String} {base : State K}
    (hbase : step job s.base a = some base) :
    WholeFor { s with
      base := base
      emitted := s.emitted ++ (scheduled s.base message a).reduceOption
      soon := s.soon ++ scheduled s.base message a } sub := by
  have hnew := schedules_of_step message hbase
  generalize scheduled s.base message a = new at hnew
  constructor
  · intro hpc
    rw [left_schedule, ← List.append_assoc, h.1 hpc]
  · intro hpc
    obtain ⟨hover, hall⟩ := h.2 hpc
    cases hnew with
    | going es hgoes _ => exact absurd hover hgoes
    | last e hgoes _ => exact absurd hover hgoes
    | call hsame => exact ⟨hsame.trans hover, by simpa using hall⟩

/-- The subscriber that takes an item has one more event, or has ended with
all of them. -/
theorem WholeFor.take {s : Feed K} {sub : Subscriber K} (h : Sound s)
    (hwhole : WholeFor s sub) (hopen : sub.pc ≠ .ended)
    {x : Option Event} {rest : List (Option Event)}
    (hqueue : s.queue = x :: rest) (subs : List (Subscriber K)) :
    WholeFor { s with queue := rest, subs := subs }
      (sub.take s.base.hire x) := by
  have hall := hwhole.1 hopen
  cases x with
  | none =>
      obtain ⟨hover, hnone⟩ := h.sentinel hqueue
      rw [hnone, List.append_nil] at hall
      refine ⟨fun hwaits => absurd rfl hwaits, fun _ => ⟨hover, ?_⟩⟩
      rw [events_take, ← hall]
      exact List.append_nil _
  | some e =>
      refine ⟨fun _ => ?_, fun hends => by cases hends⟩
      rw [left_read hqueue subs, ← List.append_assoc] at hall
      rw [events_take]
      exact hall

/-- A subscriber that is moved on, and the others. -/
theorem Whole.setSub {s : Feed K} (h : Whole s) {i : Nat}
    {sub sub' : Subscriber K} (hsub : s.subs[i]? = some sub)
    (hearly : sub'.early = sub.early)
    (hnew : sub.early = true → WholeFor s sub → WholeFor s sub') :
    Whole { s with subs := s.subs.set i sub' } := by
  intro j c hc hcearly
  rcases getElem?_set_cases hc with ⟨rfl, rfl⟩ | ⟨-, hj⟩
  · have hearly' : sub.early = true := hearly.symm.trans hcearly
    exact hnew hearly' (h j sub hsub hearly')
  · exact h j c hj hcearly

/-- Every step keeps it that the guard allows. -/
theorem whole_step {job : Job K} {s s' : Feed K} {a : FeedAct} (h : Sound s)
    (hguard : keepsWhole s a = true) (hwhole : Whole s)
    (hstep : feedStep job s a = some s') : Whole s' := by
  cases fed_of_step hstep with
  | hire hbase =>
      intro i sub hsub hearly
      exact (hwhole i sub hsub hearly).hire hbase
  | put hsoon =>
      intro i sub hsub hearly
      rw [WholeFor, left_put hsoon]
      exact hwhole i sub hsub hearly
  | connect =>
      intro i sub hsub hearly
      rcases List.mem_append.1 (List.mem_of_getElem? hsub) with hold | hnew
      · obtain ⟨j, hj⟩ := List.getElem?_of_mem hold
        exact hwhole j sub hj hearly
      · rw [List.mem_singleton.1 hnew] at hearly ⊢
        have hnone : s.emitted = [] := of_decide_eq_true hearly
        have hparts := h.partition
        rw [hnone, List.perm_nil, List.append_eq_nil_iff] at hparts
        refine ⟨fun _ => ?_, fun hpc => by cases hpc⟩
        exact hparts.2.trans hnone.symm
  | @read i sub x rest hsub hpc hqueue =>
      have hopen : sub.pc ≠ .ended := by simp [hpc]
      intro j c hc hearly
      rcases getElem?_set_cases hc with ⟨rfl, rfl⟩ | ⟨hji, hj⟩
      · have hearly' : sub.early = true := by cases x <;> exact hearly
        exact (hwhole j sub hsub hearly').take h hopen hqueue _
      · obtain ⟨hfollows, hended⟩ := hwhole j c hj hearly
        refine ⟨fun hwaits => ?_, hended⟩
        cases x with
        | none =>
            have hall := hfollows hwaits
            rw [left_read hqueue] at hall
            exact hall
        | some e =>
            exact absurd (alone_of_keepsWhole hguard hqueue hj hji hearly)
              hwaits
  | @timeout i sub hsub hpc =>
      refine hwhole.setSub hsub rfl fun _ hsub' => ⟨fun _ => ?_, ?_⟩
      · have hall := hsub'.1 (by simp [hpc])
        simpa [Msg.event?] using hall
      · intro hends
        cases hends
  | @again i sub hsub hpc hcan =>
      refine hwhole.setSub hsub rfl fun _ hsub' => ⟨fun _ => ?_, ?_⟩
      · exact hsub'.1 (by simp [hpc])
      · intro hends
        cases hends
  | @closes i sub hsub hpc hover =>
      refine hwhole.setSub hsub rfl fun hearly hsub' =>
        ⟨fun hwaits => absurd rfl hwaits, fun _ => ⟨?_, ?_⟩⟩
      · -- the status it saw is final
        by_contra hgoes
        rw [h.opened hgoes] at hover
        cases hover
      · have hall := hsub'.1 (by simp [hpc])
        have hnone : s.left = [] := by
          simpa [keepsWhole, hsub, hearly, hover] using hguard
        rw [hnone, List.append_nil] at hall
        simpa [Msg.event?, closing] using hall

/-- A run whose steps all meet `keepsWhole` gives every early subscriber
the hire's events, in order, and the close after the last. -/
theorem delivered_of_guarded {job : Job K} {db : Db K} {as : List FeedAct}
    {s : Feed K} (hrun : run (feedStep job) (Feed.start db) as = some s)
    (hguard : guarded (feedStep job) keepsWhole (Feed.start db) as = true) :
    Delivered s := by
  have hsound : Sound s := run_invariant sound_step (sound_start db) hrun
  have hwhole : Whole s := run_invariant_of_guard sound_step whole_step
    (sound_start db) (whole_start db) hguard hrun
  intro i sub hsub hearly
  obtain ⟨hfollows, hended⟩ := hwhole i sub hsub hearly
  by_cases hpc : sub.pc = .ended
  · obtain ⟨hover, hall⟩ := hended hpc
    have hsent := hsound.sent sub (List.mem_of_getElem? hsub)
    rw [Subscriber.WellSent, if_pos hpc] at hsent
    exact ⟨hall ▸ List.prefix_refl _, fun _ => ⟨hover, hall, hsent⟩⟩
  · exact ⟨⟨s.left, hfollows hpc⟩, fun hends => absurd hends hpc⟩

-- ========================================================== lost events

/-- Fewer events than the hire's are with an early subscriber and still to
be taken. -/
def Lost (s : Feed K) : Prop :=
  ∃ (i : Nat) (sub : Subscriber K), s.subs[i]? = some sub
    ∧ sub.early = true
    ∧ sub.events.length + (if sub.pc = .ended then 0 else s.left.length)
      < s.emitted.length

/-- A subscriber that is sent no event. -/
theorem lost_setSub {s : Feed K} {i : Nat} {sub sub' : Subscriber K}
    (hsub : s.subs[i]? = some sub) (hopen : sub.pc ≠ .ended)
    (hearly : sub'.early = sub.early) (hevents : sub'.events = sub.events)
    (h : Lost s) : Lost { s with subs := s.subs.set i sub' } := by
  obtain ⟨j, c, hc, hcearly, hlt⟩ := h
  have hi := (List.getElem?_eq_some_iff.1 hsub).1
  by_cases hij : i = j
  · subst hij
    obtain rfl : sub = c := Option.some.inj (hsub.symm.trans hc)
    rw [if_neg hopen] at hlt
    refine ⟨i, sub', List.getElem?_set_self hi, hearly.trans hcearly, ?_⟩
    rw [hevents]
    refine lt_of_le_of_lt (Nat.add_le_add_left ?_ _) hlt
    split
    · exact Nat.zero_le _
    · exact le_refl _
  · exact ⟨j, c, (List.getElem?_set_ne hij).trans hc, hcearly, hlt⟩

/-- What is lost stays lost. -/
theorem lost_step {job : Job K} {s s' : Feed K} {a : FeedAct} (h : Lost s)
    (hstep : feedStep job s a = some s') : Lost s' := by
  cases fed_of_step hstep with
  | @hire a message base hbase =>
      obtain ⟨i, sub, hsub, hearly, hlt⟩ := h
      refine ⟨i, sub, hsub, hearly, ?_⟩
      rw [left_schedule, List.length_append, List.length_append]
      split
      · rename_i hpc
        rw [if_pos hpc] at hlt
        omega
      · rename_i hpc
        rw [if_neg hpc] at hlt
        omega
  | put hsoon =>
      obtain ⟨i, sub, hsub, hearly, hlt⟩ := h
      refine ⟨i, sub, hsub, hearly, ?_⟩
      rw [left_put hsoon]
      exact hlt
  | connect =>
      obtain ⟨i, sub, hsub, hearly, hlt⟩ := h
      have hi := (List.getElem?_eq_some_iff.1 hsub).1
      exact ⟨i, sub, (List.getElem?_append_left hi).trans hsub, hearly, hlt⟩
  | @read i sub x rest hsub hpc hqueue =>
      obtain ⟨j, c, hc, hearly, hlt⟩ := h
      have hi := (List.getElem?_eq_some_iff.1 hsub).1
      have hleft := congrArg List.length
        (left_read hqueue (s.subs.set i (sub.take s.base.hire x)))
      rw [List.length_append] at hleft
      by_cases hij : i = j
      · subst hij
        obtain rfl : sub = c := Option.some.inj (hsub.symm.trans hc)
        rw [if_neg (by simp [hpc])] at hlt
        refine ⟨i, _, List.getElem?_set_self hi, by cases x <;> exact hearly, ?_⟩
        rw [events_take, List.length_append]
        show _ < s.emitted.length
        split
        · omega
        · omega
      · refine ⟨j, c, (List.getElem?_set_ne hij).trans hc, hearly, ?_⟩
        refine lt_of_le_of_lt (Nat.add_le_add_left ?_ _) hlt
        split
        · exact Nat.zero_le _
        · omega
  | @timeout i sub hsub hpc =>
      exact lost_setSub hsub (by simp [hpc]) rfl (by simp [Msg.event?]) h
  | @again i sub hsub hpc hcan =>
      exact lost_setSub hsub (by simp [hpc]) rfl rfl h
  | @closes i sub hsub hpc hover =>
      exact lost_setSub hsub (by simp [hpc]) rfl
        (by simp [Msg.event?, closing]) h

/-- One reader's events and those left are among the hire's. -/
theorem Sound.length_le {s : Feed K} (h : Sound s) {i : Nat}
    {sub : Subscriber K} (hsub : s.subs[i]? = some sub) :
    sub.events.length + s.left.length ≤ s.emitted.length := by
  rw [← h.partition.length_eq, List.length_append]
  have hmem : sub.events ∈ s.subs.map Subscriber.events :=
    List.mem_map_of_mem (List.mem_of_getElem? hsub)
  exact Nat.add_le_add_right (List.sublist_flatten_of_mem hmem).length_le _

/-- A step that does not meet `keepsWhole` loses an event. -/
theorem lost_of_unguarded {job : Job K} {s s' : Feed K} {a : FeedAct}
    (h : Sound s) (hguard : keepsWhole s a = false)
    (hstep : feedStep job s a = some s') : Lost s' := by
  cases fed_of_step hstep with
  | hire _ => cases hguard
  | put _ => cases hguard
  | connect => cases hguard
  | timeout _ _ => cases hguard
  | @read i sub x rest hsub hpc hqueue =>
      cases x with
      | none =>
          rw [keepsWhole, hqueue] at hguard
          cases hguard
      | some e =>
          rw [keepsWhole, hqueue] at hguard
          simp only [List.all_eq_false] at hguard
          obtain ⟨⟨c, j⟩, hc, hfollows⟩ := hguard
          have hj := List.mk_mem_zipIdx_iff_getElem?.1 hc
          simp only [Bool.not_eq_true, Bool.or_eq_false_iff,
            decide_eq_false_iff_not, Bool.not_eq_false',
            Subscriber.follows, Bool.and_eq_true, decide_eq_true_eq]
            at hfollows
          obtain ⟨hji, hearly, hopen⟩ := hfollows
          have hle := h.length_le hj
          have hleft := congrArg List.length (left_read hqueue
            (s.subs.set i (sub.take s.base.hire (some e))))
          refine ⟨j, c, (List.getElem?_set_ne (Ne.symm hji)).trans hj, hearly, ?_⟩
          rw [if_neg hopen]
          simp only [Option.toList_some, List.length_append,
            List.length_singleton] at hleft ⊢
          omega
  | @again i sub hsub hpc hcan =>
      rw [keepsWhole, hsub] at hguard
      simp [hcan] at hguard
  | @closes i sub hsub hpc hover =>
      rw [keepsWhole, hsub] at hguard
      simp only [Bool.or_eq_false_iff, Bool.not_eq_false'] at hguard
      obtain ⟨⟨hearly, -⟩, hsome⟩ := hguard
      have hi := (List.getElem?_eq_some_iff.1 hsub).1
      have hle := h.length_le hsub
      have hpos : 0 < s.left.length := by
        rw [List.length_pos_iff]
        intro hnone
        rw [hnone] at hsome
        cases hsome
      refine ⟨i, _, List.getElem?_set_self hi, hearly, ?_⟩
      rw [events_send, send_pc, if_pos rfl]
      simp only [closing, Msg.event?, Option.toList_none, List.append_nil]
      omega

/-- A run of a hire and its streams delivers, as far as it has gone, if all
its steps meet `keepsWhole`: no event is taken while another early
subscriber's stream goes on, and no early subscriber closes after a wait
with events left. Where the early subscribers' streams have ended it
delivered only if they do. -/
theorem delivered_iff {job : Job K} {db : Db K} {as : List FeedAct}
    {s : Feed K} (hrun : run (feedStep job) (Feed.start db) as = some s) :
    (guarded (feedStep job) keepsWhole (Feed.start db) as = true →
        Delivered s)
      ∧ ((∀ sub ∈ s.subs, sub.early = true → sub.pc = .ended) →
        (Delivered s
          ↔ guarded (feedStep job) keepsWhole (Feed.start db) as = true)) := by
  refine ⟨delivered_of_guarded hrun, fun hended =>
    ⟨fun hdelivered => ?_, delivered_of_guarded hrun⟩⟩
  rcases guarded_or_of_run sound_step lost_of_unguarded
    (fun _ hlost hstep => lost_step hlost hstep) (sound_start db) hrun
    with hguard | hlost
  · exact hguard
  · obtain ⟨i, sub, hsub, hearly, hlt⟩ := hlost
    have hpc := hended sub (List.mem_of_getElem? hsub) hearly
    obtain ⟨-, hall, -⟩ := (hdelivered i sub hsub hearly).2 hpc
    rw [if_pos hpc, hall] at hlt
    exact absurd hlt (lt_irrefl _)

/-- Of two subscribers at most one sees the hire. -/
theorem not_both_see {job : Job K} {db : Db K} {as : List FeedAct}
    {s : Feed K} (hrun : run (feedStep job) (Feed.start db) as = some s)
    {i j : Nat} {a b : Subscriber K} (hij : i < j)
    (ha : s.subs[i]? = some a) (hb : s.subs[j]? = some b) :
    ¬ (Sees s a ∧ Sees s b) := by
  intro hboth
  obtain ⟨⟨hended, halla, -⟩, -, hallb, -⟩ := hboth
  have hsound : Sound s := run_invariant sound_step (sound_start db) hrun
  have htwo := length_two_le hij ha hb
  have hparts := hsound.partition.length_eq
  have hsome := List.length_pos_iff.2 (hsound.begun hended)
  rw [halla, hallb] at htwo
  rw [List.length_append] at hparts
  omega

-- ================================================================= two runs

/-- A step of `_run`, its event put on the queue, and who takes it. -/
def served (r : RunStep) (i : Nat) : List FeedAct :=
  [.hire (.run r) "", .put, .read i]

/-- A step of `_run` that emits nothing. -/
def silent (r : RunStep) : List FeedAct := [.hire (.run r) ""]

/-- A hire from its beginning to its end, its events taken by two readers in
turn. -/
def servedTo (i j : Nat) : List FeedAct :=
  [served .begin i, silent .build, silent .check,
    served .emit j, served .emit i, served .emit j, served .emit i,
    served .emit j, served .emit i, served .emit j,
    silent .harness, served .done i, silent .readFlag, served .settle j,
    [.put, .read i]].flatten

/-- One reader from the beginning. -/
def oneReader : List FeedAct := .connect :: servedTo 0 0

/-- Two readers from the beginning; the second gets no sentinel, and closes
after a wait. -/
def twoReaders : List FeedAct :=
  [[.connect, .connect], servedTo 0 1, [.timeout 1, .recheck 1]].flatten

/-- One reader; the hire ends while it sends the keepalive. -/
def slowReader : List FeedAct :=
  [[.connect], served .begin 0, [.timeout 0],
    ([.build, .check].append (harnessPhases.map fun _ => .emit)).flatMap silent,
    [.harness, .done, .readFlag, .settle].flatMap silent,
    List.replicate 10 .put, [.recheck 0]].flatten

/-- One reader sees the whole hire. -/
theorem delivered_iff_oneReader : ∃ s,
    run (feedStep steadyJob) (Feed.start emptyDb) oneReader = some s
      ∧ Delivered s
      ∧ (s.subs.any fun sub => sub.early && sub.pc = .ended) = true := by
  have hruns : ((run (feedStep steadyJob) (Feed.start emptyDb)
      oneReader).any fun s => s.subs.any fun sub =>
        sub.early && sub.pc = .ended) = true := by decide +kernel
  obtain ⟨s, hrun, hended⟩ := (Option.any_eq_true _ _).1 hruns
  exact ⟨s, hrun, (delivered_iff hrun).1 (by decide +kernel), hended⟩

/-- A reader's stream has ended without all the events. -/
def missed (s : Feed ℚ) : Bool :=
  s.subs.any fun sub =>
    sub.early && sub.pc = .ended && decide (sub.events ≠ s.emitted)

/-- A run in which `missed` computes is one in which something was not
delivered. -/
theorem not_delivered_of_missed {s : Feed ℚ} (h : missed s = true) :
    ¬ Delivered s := by
  intro hdelivered
  obtain ⟨sub, hsub, hfacts⟩ := List.any_eq_true.1 h
  simp only [Bool.and_eq_true, decide_eq_true_eq] at hfacts
  obtain ⟨⟨hearly, hpc⟩, hmiss⟩ := hfacts
  obtain ⟨i, hi⟩ := List.getElem?_of_mem hsub
  exact hmiss ((hdelivered i sub hi hearly).2 hpc).2.1

/-- Two readers get every other event each; a slow one gets the first, and
the close. -/
theorem events_split :
    (∃ s, run (feedStep steadyJob) (Feed.start emptyDb) twoReaders = some s
        ∧ ¬ Delivered s)
      ∧ ∃ s, run (feedStep steadyJob) (Feed.start emptyDb) slowReader = some s
        ∧ ¬ Delivered s := by
  constructor
  · have hruns : ((run (feedStep steadyJob) (Feed.start emptyDb)
        twoReaders).any missed) = true := by decide +kernel
    obtain ⟨s, hrun, hmiss⟩ := (Option.any_eq_true _ _).1 hruns
    exact ⟨s, hrun, not_delivered_of_missed hmiss⟩
  · have hruns : ((run (feedStep steadyJob) (Feed.start emptyDb)
        slowReader).any missed) = true := by decide +kernel
    obtain ⟨s, hrun, hmiss⟩ := (Option.any_eq_true _ _).1 hruns
    exact ⟨s, hrun, not_delivered_of_missed hmiss⟩

end Proofstand.Hires
