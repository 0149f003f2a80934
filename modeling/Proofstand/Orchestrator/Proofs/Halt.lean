/-
A halted deployment stays halted.

As long as no save fails, nor the printing behind one, and nobody starts
anew, a process goes on only with a record that is not halted, and the file
reads as a halted one only while that record is being written, or after it
was (`steady_step`). From then on the file reads as it does, and no cycle
takes place (`halted_for_good`).

# The invariant

`Steady` has a clause for each phase. Nothing is asked of a process that
is down; one between two cycles has a record that is not halted, and a
file that does not read as a halted one; one that is saving goes on, once
it is done, only with a record that runs, and what is in the file is the
old text or a part of the new. A cycle that halts goes on to a save that
leaves the loop, so a halted record is only ever being written or has
been.

# What a part of a text can say

A file cut off in the middle of a save parses only where nothing but the
final newline is missing (`reads_written`), so an unfinished halt does not
read as a running record, and a file reads as one record at most
(`ReadsAs.unique`).

# The two assumptions

One process at a time has the file, which is in the model's state, and
`plain` is asked of the steps: no save that raises, no print behind a save
that raises, no new deployment over an old one. Where a save fails at the
halting cycle, or the print behind it, the loop reports that and goes on
with the halted record in memory; that is how a halted deployment would
run another cycle.
-/
import Proofstand.Orchestrator.Proofs.Paper

namespace Proofstand.Paper

open Anchor (Keccak)
open Persist Session Json Transition

variable {K T : Type} [Field K] [LinearOrder K] [FloorRing K]

/-- The file reads as this record. -/
def ReadsAs (file : Option String) (rec : Dict K) : Prop :=
  ∃ text, file = some text ∧ loads text = .ok (.dict rec)

/-- No save that fails, or whose printing does, and no new deployment in
the place of an old one. -/
def plain : Action K T → Bool
  | .saveFails => false
  | .saved false => false
  | .launch true _ => false
  | _ => true

/-- The file as the process with this record has it. -/
def writtenFile (repr : K → String) (rec : Dict K) (n : Nat) : String :=
  String.ofList ((stateText repr rec).toList.take n)

/-- What a process goes on with is not halted, and nor is what it reads,
unless it is writing that very record. -/
structure Steady (repr : K → String) (s : State K) : Prop where
  idle : ∀ rec, s.phase = .idle rec → isHalted rec = false
    ∧ ∀ rec' : Dict K, ReadsAs s.file rec' → isHalted rec' = false
  saving : ∀ rec next written, s.phase = .saving rec next written →
    (next ≠ .halts → isHalted rec = false)
      ∧ (written = none →
        ∀ rec' : Dict K, ReadsAs s.file rec' → isHalted rec' = false)
      ∧ ∀ n, written = some n → s.file = some (writtenFile repr rec n)

/-- The file reads as a halted record, and nothing but its own writing can
change the file. -/
structure Halted (repr : K → String) (rec : Dict K) (s : State K) : Prop where
  writes : Writes repr (.dict rec)
  halted : isHalted rec = true
  reads : ReadsAs s.file rec
  phase : s.phase = .down
    ∨ ∃ n, s.phase = .saving rec .halts (some n)
      ∧ s.file = some (writtenFile repr rec n)

-- ================================================================= the phase

section Phase

variable {repr : K → String} {s : State K} {rec : Dict K}

omit [LinearOrder K] [FloorRing K] in
/-- A process that is down is steady; -/
theorem Steady.of_down (h : s.phase = .down) : Steady repr s where
  idle r hr := by
    rw [h] at hr
    cases hr
  saving r next written hr := by
    rw [h] at hr
    cases hr

omit [LinearOrder K] [FloorRing K] in
/-- one that is idle is, where neither its record nor the file's is halted; -/
theorem Steady.of_idle (h : s.phase = .idle rec)
    (hrunning : isHalted rec = false)
    (hfile : ∀ rec' : Dict K, ReadsAs s.file rec' → isHalted rec' = false) :
    Steady repr s where
  idle r hr := by
    rw [h] at hr
    cases hr
    exact ⟨hrunning, hfile⟩
  saving r next written hr := by
    rw [h] at hr
    cases hr

omit [LinearOrder K] [FloorRing K] in
/-- and one that saves is, where it goes on only with a record that runs, and
the file is the old one or what was written of the new. -/
theorem Steady.of_saving {next : Next} {written : Option Nat}
    (h : s.phase = .saving rec next written)
    (hrunning : next ≠ .halts → isHalted rec = false)
    (hold : written = none →
      ∀ rec' : Dict K, ReadsAs s.file rec' → isHalted rec' = false)
    (hnew : ∀ n, written = some n → s.file = some (writtenFile repr rec n)) :
    Steady repr s where
  idle r hr := by
    rw [h] at hr
    cases hr
  saving r next' written' hr := by
    rw [h] at hr
    cases hr
    exact ⟨hrunning, hold, hnew⟩

omit [LinearOrder K] [FloorRing K] in
theorem steady_start (repr : K → String) : Steady repr (start : State K) :=
  .of_down rfl

omit [LinearOrder K] [FloorRing K] in
theorem Halted.not_idle (hs : Halted repr rec s) {r : Dict K} :
    s.phase ≠ .idle r := by
  intro hidle
  rcases hs.phase with hdown | ⟨n, hsaving, -⟩
  · rw [hdown] at hidle
    cases hidle
  · rw [hsaving] at hidle
    cases hidle

omit [LinearOrder K] [FloorRing K] in
/-- What is being written there is the halted record. -/
theorem Halted.saving (hs : Halted repr rec s) {r : Dict K} {next : Next}
    {written : Option Nat} (h : s.phase = .saving r next written) :
    r = rec ∧ next = .halts
      ∧ ∃ n, written = some n ∧ s.file = some (writtenFile repr rec n) := by
  rcases hs.phase with hdown | ⟨n, hsaving, hfile⟩
  · rw [hdown] at h
    cases h
  · rw [hsaving] at h
    cases h
    exact ⟨rfl, rfl, n, rfl, hfile⟩

end Phase

-- ================================================================== the file

section File

variable {repr : K → String} {rec rec' : Dict K}

omit [LinearOrder K] [FloorRing K] in
/-- A file reads as one record at most, -/
theorem ReadsAs.unique {file : Option String} (h : ReadsAs file rec)
    (h' : ReadsAs file rec') : rec' = rec := by
  obtain ⟨text, rfl, hread⟩ := h
  obtain ⟨text', htext, hread'⟩ := h'
  cases htext
  rw [hread] at hread'
  cases hread'
  rfl

omit [LinearOrder K] [FloorRing K] in
/-- and what the script wrote reads as what it meant to write. -/
theorem reads_whole (hw : Writes repr (.dict rec)) :
    ReadsAs (some (stateText repr rec)) rec :=
  ⟨_, rfl, loads_line (indented 2) hw⟩

omit [LinearOrder K] [FloorRing K] in
/-- What can be read of what is written is the record, and can be read of
any more of it. -/
theorem reads_written (hw : Writes repr (.dict rec)) {n m : Nat}
    (hnm : n ≤ m) (h : ReadsAs (some (writtenFile repr rec n)) rec') :
    rec' = rec ∧ ReadsAs (some (writtenFile repr rec m)) rec := by
  obtain ⟨text, htext, hread⟩ := h
  cases htext
  have hwhole : writtenFile repr rec n
        ++ String.ofList ((stateText repr rec).toList.drop n)
      = stateText repr rec := by
    rw [writtenFile, ← String.ofList_append, List.take_append_drop,
      String.ofList_toList]
  obtain ⟨heq, hmore⟩ := loads_part (indented 2) hw hwhole hread
  cases heq
  refine ⟨rfl, ?_⟩
  by_cases hsame : m = n
  · rw [hsame]
    exact ⟨_, rfl, hread⟩
  · -- nothing is left to write but what the part lacked
    have hrest : ((stateText repr rec).toList.drop n).length ≤ 1 := by
      rcases hmore with hmore | hmore
      · have hlist := congrArg String.toList hmore
        rw [String.toList_ofList] at hlist
        simp [hlist]
      · have hlist := congrArg String.toList hmore
        rw [String.toList_ofList] at hlist
        simp [hlist]
    rw [List.length_drop] at hrest
    have hall : writtenFile repr rec m = stateText repr rec := by
      rw [writtenFile, List.take_of_length_le (by omega),
        String.ofList_toList]
    rw [hall]
    exact reads_whole hw

end File

-- ================================================================== one step

section Run

variable {sha : PyVal K → String} {sc : Script K T} {keys : ValueKeys}
  {repr : K → String} {H : Keccak}
  {hires : Nat → Db K → Outcome Exc (Db K) (Hired K)}
  {hire : Nat → PyVal K → Dict K → Db K → Outcome Exc (Db K) (Hired K)}

omit [Field K] [LinearOrder K] [FloorRing K] in
theorem isHalted_congr {rec rec' : Dict K}
    (h : rec'.lookup "status" = rec.lookup "status") :
    isHalted rec' = isHalted rec := by
  rw [isHalted, isHalted, h]

/-- A cycle that goes on leaves a record that is no more halted than it
was. -/
theorem evaluate_status (hsc : Regular sc keys) {rec : Dict K} {n : Int}
    (hn : rec.lookup "cycles" = some (.int n)) (hired : Hired K)
    (told : Told T) (h : (evaluate sc rec hired told).2 ≠ some .halts) :
    isHalted (evaluate sc rec hired told).1 = isHalted rec := by
  obtain ⟨-, -, hstatus⟩ := lookup_cycled rec n hsc hired told
  rw [evaluate_eq hn] at h ⊢
  by_cases hprint : (sc.printsFirst && !told.printed) = true
  · rw [if_pos hprint]
    exact isHalted_congr hstatus
  · rw [if_neg hprint] at h ⊢
    cases hhalt : sc.haltPairs told.stats with
    | none => exact isHalted_congr hstatus
    | some pairs =>
        rw [hhalt] at h
        exact absurd rfl h

/-- What is gone on with is read from the file, or made anew where there
is none. -/
theorem steady_launch (hsc : Regular sc keys) (hstops : sc.stopsHalted = true)
    (s : State K) (args : Args K) :
    Steady repr { s with phase := launch sc s.file false args } := by
  cases s.file with
  | none =>
      refine .of_saving rfl (fun _ => hsc.fresh_running args) ?_
        (fun n hn => by cases hn)
      intro _ rec' hread
      obtain ⟨text, htext, -⟩ := hread
      cases htext
  | some text =>
      rw [launch]
      split
      case h_1 rec hread =>
          by_cases hhalted : (sc.stopsHalted && isHalted rec) = true
          · rw [if_pos hhalted]
            exact .of_down rfl
          · rw [if_neg hhalted]
            rw [hstops, Bool.true_and, Bool.not_eq_true] at hhalted
            have hreads : ReadsAs (some text) rec := ⟨text, rfl, hread⟩
            refine .of_idle rfl hhalted ?_
            intro rec' hread'
            rw [hreads.unique hread']
            exact hhalted
      case h_2 => exact .of_down rfl

/-- A step that is plain keeps a process steady: it stops as it halts. -/
theorem steady_step (hsc : Regular sc keys) (hstops : sc.stopsHalted = true)
    {s s' : State K} {a : Action K T} (hsound : Sound sc.agentId keys repr s)
    (hs : Steady repr s) (hplain : plain a = true)
    (h : step sc repr H hires hire s a = some s') : Steady repr s' := by
  cases a with
  | platform a =>
      obtain ⟨base, -, rfl⟩ := Option.map_eq_some_iff.1 h
      exact ⟨hs.idle, hs.saving⟩
  | launch reset args =>
      cases reset with
      | true => cases hplain
      | false =>
          rw [step] at h
          split at h
          case h_2 => cases h
          case h_1 hphase =>
            cases h
            exact steady_launch hsc hstops s args
  | cycle i told =>
      rw [step] at h
      split at h
      case h_2 => cases h
      case h_1 rec hphase =>
          obtain ⟨hrunning, hfile⟩ := hs.idle rec hphase
          obtain ⟨-, ids, -, -, hcycles⟩ := hsound.of_idle hphase
          split at h
          case h_1 =>
              cases h
              exact hs
          case h_2 since raw hasked =>
              dsimp only at h
              cases hresult : (hire i since raw s.base.db).1 with
              | error e =>
                  rw [hresult] at h
                  cases h
                  exact ⟨hs.idle, hs.saving⟩
              | ok hired =>
                  rw [hresult] at h
                  have hstatus := evaluate_status hsc hcycles hired told
                  dsimp only at h
                  split at h
                  case h_1 rec' heval =>
                      cases h
                      rw [heval] at hstatus
                      exact .of_idle rfl
                        ((hstatus (by simp)).trans hrunning) hfile
                  case h_2 rec' next heval =>
                      cases h
                      rw [heval] at hstatus
                      refine .of_saving rfl ?_ (fun _ => hfile)
                        (fun n hn => by cases hn)
                      intro hne
                      exact (hstatus fun heq =>
                        hne (Option.some.inj heq)).trans hrunning
  | write n =>
      rw [step] at h
      split at h
      case h_2 => cases h
      case h_1 rec next written hphase =>
          split at h
          case isFalse => cases h
          case isTrue =>
              cases h
              refine .of_saving rfl (hs.saving _ _ _ hphase).1
                (fun hn => by cases hn) ?_
              intro m hm
              cases hm
              rfl
  | saved printed =>
      cases printed with
      | false => cases hplain
      | true =>
          rw [step] at h
          split at h
          case h_2 => cases h
          case h_1 rec next written hphase =>
              cases h
              have hwrites := (hsound.of_saving hphase).1
              have hrunning := (hs.saving _ _ _ hphase).1
              have hidle : next ≠ .halts → ∀ rec' : Dict K,
                  ReadsAs (some (stateText repr rec)) rec' →
                  isHalted rec' = false := by
                intro hne rec' hread
                rw [(reads_whole hwrites).unique hread]
                exact hrunning hne
              cases next with
              | created =>
                  exact .of_idle rfl (hrunning (by simp)) (hidle (by simp))
              | on => exact .of_idle rfl (hrunning (by simp)) (hidle (by simp))
              | halts => exact .of_down rfl
  | saveFails => cases hplain
  | stop =>
      cases h
      exact .of_down rfl

/-- Where a file reads as halted, nothing but its own writing is under
way. -/
theorem halted_of_steady {s : State K} {rec : Dict K}
    (hsound : Sound sc.agentId keys repr s) (hs : Steady repr s)
    (hread : ReadsAs s.file rec) (hhalted : isHalted rec = true) :
    Halted repr rec s := by
  have hnot : isHalted rec ≠ false := by
    rw [hhalted]
    simp
  obtain ⟨text, htext, hloads⟩ := hread
  have hok := hsound.file
  rw [htext] at hok
  obtain ⟨rec', heq, hw, -⟩ := hok.read hloads
  cases heq
  refine ⟨hw, hhalted, ⟨text, htext, hloads⟩, ?_⟩
  cases hphase : s.phase with
  | down => exact Or.inl rfl
  | idle r =>
      exact absurd ((hs.idle r hphase).2 rec ⟨text, htext, hloads⟩) hnot
  | saving r next written =>
      obtain ⟨hrunning, hold, hnew⟩ := hs.saving r next written hphase
      have hwrites := (hsound.of_saving hphase).1
      cases written with
      | none => exact absurd (hold rfl rec ⟨text, htext, hloads⟩) hnot
      | some n =>
          have hfile := hnew n rfl
          have hreads : ReadsAs (some (writtenFile repr r n)) rec := by
            rw [← hfile]
            exact ⟨text, htext, hloads⟩
          obtain ⟨rfl, -⟩ := reads_written hwrites (le_refl n) hreads
          cases next with
          | created => exact absurd (hrunning (by simp)) hnot
          | on => exact absurd (hrunning (by simp)) hnot
          | halts => exact Or.inr ⟨n, rfl, hfile⟩

omit [LinearOrder K] [FloorRing K] in
/-- From there on there is no cycle, -/
theorem halted_no_cycle {s : State K} {rec : Dict K}
    (hs : Halted repr rec s) (i : Nat) (told : Told T) :
    step sc repr H hires hire s (.cycle i told) = none := by
  rw [step]
  split
  case h_1 r hphase => exact absurd hphase hs.not_idle
  case h_2 => rfl

omit [LinearOrder K] [FloorRing K] in
/-- and a step changes nothing of it. -/
theorem halted_step (hstops : sc.stopsHalted = true) {s s' : State K}
    {a : Action K T} {rec : Dict K} (hs : Halted repr rec s)
    (hplain : plain a = true)
    (h : step sc repr H hires hire s a = some s') : Halted repr rec s' := by
  cases a with
  | platform a =>
      obtain ⟨base, -, rfl⟩ := Option.map_eq_some_iff.1 h
      exact ⟨hs.writes, hs.halted, hs.reads, hs.phase⟩
  | launch reset args =>
      cases reset with
      | true => cases hplain
      | false =>
          rw [step] at h
          split at h
          case h_2 => cases h
          case h_1 =>
              cases h
              refine ⟨hs.writes, hs.halted, hs.reads, Or.inl ?_⟩
              obtain ⟨text, htext, hread⟩ := hs.reads
              show launch sc s.file false args = .down
              rw [htext, launch, hread]
              simp [hstops, hs.halted]
  | cycle i told =>
      rw [halted_no_cycle hs] at h
      cases h
  | write n =>
      rw [step] at h
      split at h
      case h_2 => cases h
      case h_1 r next written hphase =>
          obtain ⟨rfl, rfl, m, rfl, hfile⟩ := hs.saving hphase
          split at h
          case isFalse => cases h
          case isTrue hle =>
              cases h
              have hmn : m ≤ n := by simpa using hle
              have hreads := hs.reads
              rw [hfile] at hreads
              obtain ⟨-, hmore⟩ := reads_written hs.writes hmn hreads
              exact ⟨hs.writes, hs.halted, hmore, Or.inr ⟨n, rfl, rfl⟩⟩
  | saved printed =>
      cases printed with
      | false => cases hplain
      | true =>
          rw [step] at h
          split at h
          case h_2 => cases h
          case h_1 r next written hphase =>
              obtain ⟨rfl, rfl, -⟩ := hs.saving hphase
              cases h
              exact ⟨hs.writes, hs.halted, reads_whole hs.writes,
                Or.inl rfl⟩
  | saveFails => cases hplain
  | stop =>
      cases h
      exact ⟨hs.writes, hs.halted, hs.reads, Or.inl rfl⟩

-- ==================================================================== for good

omit [LinearOrder K] [FloorRing K] in
/-- Once halted, a run of plain steps stays halted, and none of them is a
cycle. -/
theorem halted_run (hstops : sc.stopsHalted = true) {s s' : State K}
    {acts : List (Action K T)} {rec : Dict K} (hs : Halted repr rec s)
    (hplain : ∀ a ∈ acts, plain a = true)
    (hrun : run (step sc repr H hires hire) s acts = some s') :
    Halted repr rec s' ∧ ∀ i told, Action.cycle i told ∉ acts := by
  induction acts generalizing s with
  | nil =>
      cases hrun
      exact ⟨hs, fun i told hin => by cases hin⟩
  | cons a acts ih =>
      obtain ⟨t, ht, hrest⟩ := (run_cons_eq_some _).1 hrun
      obtain ⟨hfirst, hothers⟩ := List.forall_mem_cons.1 hplain
      obtain ⟨hend, hnone⟩ :=
        ih (halted_step hstops hs hfirst ht) hothers hrest
      refine ⟨hend, fun i told hin => ?_⟩
      rcases List.mem_cons.1 hin with rfl | hin
      · rw [halted_no_cycle hs] at ht
        cases ht
      · exact hnone i told hin

/-- The file of a grid deployment, once it reads as a halted record, reads
as that very record for good, and no cycle takes place any more: whichever
process has the file, one at a time, wherever each ends, and whatever hires,
anchors and requests there are beside it. A save of the halt that raises, or
the printing behind it, would be followed by another cycle, of a process
whose record says it is halted: `plain` leaves both out. -/
theorem halted_for_good
    {s s' : State K} {acts acts' : List (Action K (BnbGrid.SimResult K))}
    (hhires : ∀ i, Platform.IsHire sha (hires i))
    (hhire : ∀ i since raw,
      IsCycleHire sha (gridScript (K := K)).agentId raw (hire i since raw))
    (hplain : ∀ a ∈ acts ++ acts', plain a = true)
    (hspelled : Along (step gridScript repr H hires hire) (Spelled repr) start
      acts)
    (hrun : run (step gridScript repr H hires hire) start acts = some s)
    (hrun' : run (step gridScript repr H hires hire) s acts' = some s')
    {rec : Dict K} (hread : ReadsAs s.file rec)
    (hhalted : isHalted rec = true) :
    ReadsAs s'.file rec ∧ ∀ i told, Action.cycle i told ∉ acts' := by
  have hsc : Regular (gridScript (K := K)) gridKeys := gridScript_regular
  have hkeep : ∀ {s s' : State K} {a : Action K (BnbGrid.SimResult K)},
      Sound (gridScript (K := K)).agentId gridKeys repr s ∧ Steady repr s →
      a ∈ acts → Spelled repr s' →
      step gridScript repr H hires hire s a = some s' →
      Sound (gridScript (K := K)).agentId gridKeys repr s'
        ∧ Steady repr s' := by
    intro s s' a hs ha hsp h
    exact ⟨sound_step hsc hhires hhire hs.1 hsp h,
      steady_step hsc rfl hs.1 hs.2
        (hplain a (List.mem_append_left acts' ha)) h⟩
  obtain ⟨hsound, hsteady⟩ := run_invariant_along hkeep
    ⟨sound_start _ gridKeys repr, steady_start repr⟩ hspelled hrun
  have hhalt := halted_of_steady hsound hsteady hread hhalted
  obtain ⟨hend, hnone⟩ := halted_run rfl hhalt
    (fun a ha => hplain a (List.mem_append_right acts ha)) hrun'
  exact ⟨hend.reads, hnone⟩

end Run

/-- The process of the deployment above, started again, runs no cycle. -/
theorem halted_for_good_trial : ∃ s' : State ℚ,
    run trialStep ⟨trialBase, some (stateText trialText trialRecord), .down⟩
        [.launch false trialArgs, .platform (.hire 1), .stop] = some s'
      ∧ ReadsAs s'.file trialRecord := by
  obtain ⟨hrun, hspelled⟩ := run_trial
  have hkeys : (trialRecord.map Prod.fst).Nodup := by simp [trialRecord]
  have hread := loads_line (indented 2)
    (writes_record hkeys fun p hp => spelled_trial p (Or.inr hp))
  have hlaunch : launch gridScript (some (stateText trialText trialRecord))
      false trialArgs = .down := by
    rw [launch, stateText, hread]
    rfl
  have hagain : trialStep
      ⟨trialBase, some (stateText trialText trialRecord), .down⟩
        (.launch false trialArgs)
      = some ⟨trialBase, some (stateText trialText trialRecord), .down⟩ := by
    rw [trialStep, step, hlaunch]
  obtain ⟨s', hrun'⟩ : ∃ s', run trialStep
      ⟨trialBase, some (stateText trialText trialRecord), .down⟩
      [.launch false trialArgs, .platform (.hire 1), .stop] = some s' :=
    ⟨_, (run_cons_eq_some trialStep).2 ⟨_, hagain, rfl⟩⟩
  have hplain : ∀ a ∈ trialRun
      ++ [.launch false trialArgs, .platform (.hire 1), .stop],
      plain a = true := by
    simp [trialRun, plain]
  obtain ⟨hfor, -⟩ := halted_for_good Platform.isHire_steady
    isCycleHire_trial hplain hspelled hrun hrun' ⟨_, rfl, hread⟩ rfl
  exact ⟨s', hrun', hfor⟩

end Proofstand.Paper
