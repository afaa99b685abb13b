import OpendataIngest.Runtime.Pipeline.Progress
import OpendataIngest.Runtime.Pipeline.RootCause

/-!
# A failed run can end

From wherever the error of the one root failure is, the run goes on to its return by
steps in which nothing fails.  First the actor comes back to its `select!` and empties its
queue up to the error; each stage has a rank that some step lowers.  Then the supervisor
cancels the hard-abort token, and every worker is a few steps away from its end.
-/

set_option autoImplicit false

namespace OpendataIngest.Runtime.Pipeline

open MachineInt Pool AckCoordinator

variable {R : Type}

/-- A run with the one root failure `error`. -/
structure Failing [TypedRecords R] (cfg : Config) (error : RuntimeError)
    (s : State R × List Fault) : Prop where
  reachable : (faultMachine R cfg).Reachable s
  once : s.2 = [.root error]

namespace Failing

variable [TypedRecords R] {cfg : Config} {error : RuntimeError} {s : State R × List Fault}
  (failing : Failing cfg error s)
include failing

theorem base : (machine R cfg).Reachable s.1 := failing.reachable.untraced.unrestricted

theorem located : Located error s.1 :=
  (located_of_reachable failing.reachable).2 error failing.once

/-- A step in which nothing fails. -/
theorem step {action : Action R} {s' : State R} (allowed : findsWorkers s.1 action = true)
    (taken : Pipeline.step cfg s.1 action = some s') (quiet : faults action s' = []) :
    (faultMachine R cfg).step s action = some (s', s.2) ∧ Failing cfg error (s', s.2) := by
  have moved : (faultMachine R cfg).step s action = some (s', s.2) := by
    refine Machine.traced_step.mpr ⟨Machine.restrict_step.mpr ⟨allowed, taken⟩, ?_⟩
    rw [quiet, List.append_nil]
  exact ⟨moved, .step action failing.reachable moved, failing.once⟩

end Failing

/-! ## The workers, once the run is aborted -/

def FetchPoint.unwinds : FetchPoint → Nat
  | .exited _ => 0
  | .sending _ => 2
  | _ => 1

def DecodePoint.unwinds : DecodePoint R → Nat
  | .exited _ => 0
  | .sending _ => 2
  | .releasingPermit => 2
  | .releasingBytes _ => 3
  | _ => 1

def WriterPoint.unwinds : WriterPoint R → Nat
  | .exited _ => 0
  | .writing _ _ => 2
  | .checking _ _ _ => 2
  | .backingOff _ _ => 2
  | .releasingPermit => 2
  | .releasingBytes _ => 3
  | _ => 1

/-- How many steps the tasks still take, the supervisor's signal included. -/
def State.unwinds (s : State R) : Nat :=
  total FetchPoint.unwinds s.fetchers + total DecodePoint.unwinds s.decoders +
    total WriterPoint.unwinds s.writers + if s.shared.hardAbort then 0 else 1

section Aborted

variable {cfg : Config} {s : State R} (accounts : Accounts cfg s)
  (closed : s.shared.completionClosed = true) (aborted : s.shared.hardAbort = true)
include closed aborted

include accounts in
theorem fetcher_unwinds {p : FetchPoint} (member : p ∈ s.fetchers) (alive : p.hasExited = false) :
    ∃ action moved, stepFetch cfg s.killed s.decodersGone s.shared p action = some moved ∧
      FetchAction.faults action moved.1 = [] ∧ moved.1.unwinds < p.unwinds := by
  cases p with
  | recv => exact ⟨.abort, _, (FetchStep.aborts aborted).taken, rfl, Nat.lt_succ_self 0⟩
  | fetching unit =>
      exact ⟨.abort, _, (FetchStep.abandons unit aborted).taken, rfl, Nat.lt_succ_self 0⟩
  | sending unit =>
      by_cases gone : s.decodersGone = true
      · exact ⟨.send, _, (FetchStep.cutOff unit gone).taken, rfl, Nat.lt_succ_self 1⟩
      · have room := room_for_fetched accounts member
        exact ⟨.send, _, (FetchStep.sends unit gone room).taken, rfl, Nat.lt_succ_self 1⟩
  | reportingFatal error reservation =>
      exact ⟨.report, _, (FetchStep.unheard error reservation closed).taken, rfl,
        Nat.lt_succ_self 0⟩
  | exited result => cases alive

include accounts in
theorem decoder_unwinds [TypedRecords R] {p : DecodePoint R} (member : p ∈ s.decoders)
    (alive : p.hasExited = false) :
    ∃ action moved, stepDecode cfg s.fetchersGone s.writersGone s.shared p action = some moved ∧
      DecodeAction.faults action moved.1 = [] ∧ moved.1.unwinds < p.unwinds := by
  cases p with
  | recv => exact ⟨.abort, _, (DecodeStep.aborts aborted).taken, rfl, Nat.lt_succ_self 0⟩
  | decoding unit =>
      exact ⟨.abort, _, (DecodeStep.abandons unit aborted).taken, rfl, Nat.lt_succ_self 0⟩
  | sending unit =>
      by_cases gone : s.writersGone = true
      · exact ⟨.send, _, (DecodeStep.cutOff unit gone).taken, rfl, Nat.lt_succ_self 1⟩
      · have room := room_for_sinkCommit accounts member
        exact ⟨.send, _, (DecodeStep.sends unit gone room).taken, rfl, Nat.lt_succ_self 1⟩
  | reportingDryRun report reservation =>
      exact ⟨.report, _, (DecodeStep.dryRunUnheard report reservation closed).taken, rfl,
        Nat.lt_succ_self 0⟩
  | releasingBytes reservation =>
      exact ⟨.releaseBytes, _, (DecodeStep.releasesBytes reservation).taken, rfl,
        Nat.lt_succ_self 2⟩
  | releasingPermit =>
      exact ⟨.releasePermit, _, DecodeStep.releasesPermit.taken, rfl, Nat.lt_succ_self 1⟩
  | reportingFatal error reservation =>
      exact ⟨.report, _, (DecodeStep.unheard error reservation closed).taken, rfl,
        Nat.lt_succ_self 0⟩
  | exited result => cases alive

variable (cfg) in
theorem writer_unwinds {p : WriterPoint R} (alive : p.hasExited = false) :
    ∃ action moved, stepWriter cfg s.decodersGone s.shared p action = some moved ∧
      WriterAction.faults action moved.1 = [] ∧ moved.1.unwinds < p.unwinds := by
  cases p with
  | recv => exact ⟨.abort, _, (WriterStep.aborts aborted).taken, rfl, Nat.lt_succ_self 0⟩
  | writing attempt unit =>
      exact ⟨.abort, _, (WriterStep.abandons _ unit _ (.writing attempt unit) aborted).taken, rfl,
        Nat.lt_succ_self 1⟩
  | checking attempt unit error =>
      exact ⟨.abort, _,
        (WriterStep.abandons _ unit _ (.checking attempt unit error) aborted).taken, rfl,
        Nat.lt_succ_self 1⟩
  | backingOff attempt unit =>
      exact ⟨.abort, _, (WriterStep.abandons _ unit _ (.backingOff attempt unit) aborted).taken,
        rfl, Nat.lt_succ_self 1⟩
  | reportingCommitted report reservation =>
      exact ⟨.report, _, (WriterStep.commitUnheard report reservation closed).taken, rfl,
        Nat.lt_succ_self 0⟩
  | releasingBytes reservation =>
      exact ⟨.releaseBytes, _, (WriterStep.releasesBytes reservation).taken, rfl,
        Nat.lt_succ_self 2⟩
  | releasingPermit =>
      exact ⟨.releasePermit, _, WriterStep.releasesPermit.taken, rfl, Nat.lt_succ_self 1⟩
  | reportingFatal error reservation =>
      exact ⟨.report, _, (WriterStep.unheard error reservation closed).taken, rfl,
        Nat.lt_succ_self 0⟩
  | exited result => cases alive

end Aborted

/-- A worker that is still there takes a step towards its end. -/
theorem worker_unwinds [TypedRecords R] {cfg : Config} {s : State R} (accounts : Accounts cfg s)
    (closed : s.shared.completionClosed = true) (aborted : s.shared.hardAbort = true)
    (staffed : ¬ (s.fetchersGone = true ∧ s.decodersGone = true ∧ s.writersGone = true)) :
    ∃ action s', findsWorkers s action = true ∧ step cfg s action = some s' ∧
      faults action s' = [] ∧ s'.unwinds < s.unwinds := by
  by_cases fetchersGone : s.fetchersGone = true
  · by_cases decodersGone : s.decodersGone = true
    · have writersGone : ¬ s.writersGone = true := fun gone =>
        staffed ⟨fetchersGone, decodersGone, gone⟩
      obtain ⟨p, member, alive⟩ := exists_alive writersGone
      obtain ⟨action, moved, taken, quiet, less⟩ :=
        writer_unwinds cfg closed aborted alive
      obtain ⟨i, present⟩ := List.mem_iff_getElem?.mp member
      refine ⟨.writer i action, _, rfl, Transition.taken (.writer present taken), ?_, ?_⟩
      · rw [faults_writer _ present]
        exact quiet
      · have weights := total_set WriterPoint.unwinds s.writers i p moved.1 present
        have same := (stepWriter_flow taken).flags.hardAbort
        simp only [State.unwinds, same]
        omega
    · obtain ⟨p, member, alive⟩ := exists_alive decodersGone
      obtain ⟨action, moved, taken, quiet, less⟩ :=
        decoder_unwinds accounts closed aborted member alive
      obtain ⟨i, present⟩ := List.mem_iff_getElem?.mp member
      refine ⟨.decode i action, _, rfl, Transition.taken (.decode present taken), ?_, ?_⟩
      · rw [faults_decode _ present]
        exact quiet
      · have weights := total_set DecodePoint.unwinds s.decoders i p moved.1 present
        have same := (stepDecode_flow taken).flags.hardAbort
        simp only [State.unwinds, same]
        omega
  · obtain ⟨p, member, alive⟩ := exists_alive fetchersGone
    obtain ⟨action, moved, taken, quiet, less⟩ :=
      fetcher_unwinds accounts closed aborted member alive
    obtain ⟨i, present⟩ := List.mem_iff_getElem?.mp member
    refine ⟨.fetch i action, _, rfl, Transition.taken (.fetch present taken), ?_, ?_⟩
    · rw [faults_fetch _ present]
      exact quiet
    · have weights := total_set FetchPoint.unwinds s.fetchers i p moved.1 present
      have same := (stepFetch_flow taken).flags.hardAbort
      simp only [State.unwinds, same]
      omega

/-- The actor has returned the error. -/
structure Returning [TypedRecords R] (cfg : Config) (error : RuntimeError)
    (s : State R × List Fault) : Prop extends Failing cfg error s where
  exits : s.1.actor.point = .exited (.error error)

section Ending

variable [TypedRecords R] {cfg : Config} {error : RuntimeError}

theorem Returning.step {s : State R × List Fault} (returning : Returning cfg error s)
    {action : Action R} {s' : State R} (allowed : findsWorkers s.1 action = true)
    (taken : Pipeline.step cfg s.1 action = some s') (quiet : faults action s' = []) :
    (faultMachine R cfg).step s action = some (s', s.2) ∧ Returning cfg error (s', s.2) := by
  obtain ⟨moved, failing⟩ := returning.toFailing.step allowed taken quiet
  refine ⟨moved, failing, ?_⟩
  simp only
  rw [(step_flagsRise taken).returned (by rw [returning.exits]; rfl), returning.exits]

/-- Every worker task ends. -/
theorem Returning.ends {s : State R × List Fault} (returning : Returning cfg error s) :
    (faultMachine R cfg).CanReach (fun s => Returning cfg error s ∧
      s.1.fetchersGone = true ∧ s.1.decodersGone = true ∧ s.1.writersGone = true) s := by
  refine Machine.canReach_of_rank (P := Returning cfg error) (fun s => s.1.unwinds) ?_ s returning
  intro s returning
  by_cases gone : s.1.fetchersGone = true ∧ s.1.decodersGone = true ∧ s.1.writersGone = true
  · exact Or.inl ⟨returning, gone⟩
  · right
    cases aborted : s.1.shared.hardAbort with
    | false =>
        have taken : Pipeline.step cfg s.1 .cancelHardAbort =
            some { s.1 with shared := { s.1.shared with hardAbort := true } } :=
          Transition.taken (.hardAborts returning.exits)
        obtain ⟨moved, next⟩ := returning.step rfl taken rfl
        refine ⟨_, _, moved, next, ?_⟩
        simp [State.unwinds, aborted]
    | true =>
        have closed : s.1.shared.completionClosed = true := by
          rw [(orderly_of_reachable returning.base).closed, returning.exits]
          rfl
        obtain ⟨action, s', allowed, taken, quiet, less⟩ :=
          worker_unwinds (accounts_of_reachable returning.base) closed aborted gone
        obtain ⟨moved, next⟩ := returning.step allowed taken quiet
        exact ⟨action, _, moved, next, less⟩

/-- And `Runtime::run` returns the error. -/
theorem Returning.joins {s : State R × List Fault} (returning : Returning cfg error s)
    (gone : s.1.fetchersGone = true ∧ s.1.decodersGone = true ∧ s.1.writersGone = true) :
    (faultMachine R cfg).CanReach (fun s => Failing cfg error s ∧
      s.1.result = some (.error error)) s := by
  cases joined : s.1.result with
  | some result =>
      refine ⟨[], s, rfl, returning.toFailing, ?_⟩
      rw [joined, returning.located.result returning.base joined]
  | none =>
      have taken : Pipeline.step cfg s.1 .join =
          some { s.1 with result := some (.error error) } := by
        simp only [Pipeline.step, returning.exits, joined, gone, and_self, if_true, runResult]
      obtain ⟨moved, next⟩ := returning.toFailing.step rfl taken rfl
      refine ⟨[.join], _, ?_, next, rfl⟩
      rw [Machine.runFrom, moved]
      rfl

end Ending

/-! ## The actor, on its way to the error -/

/-- How many steps the actor is away from its `select!`, if the buffer has nothing new. -/
def ActorPoint.away (cfg : Config) : ActorPoint → Nat
  | .sleeping => 1
  | .flushing _ _ => 1
  | .polling _ => 2
  | .extending _ extras => 3 + 2 * extras
  | .extendingBytes _ extras => 4 + 2 * extras
  | .counting _ _ => 4 + 2 * max cfg.options.maxDescriptorsPerPoll.val 1
  | .measuring _ => 5 + 2 * max cfg.options.maxDescriptorsPerPoll.val 1
  | .sending rest => 1 + rest.length
  | _ => 0

/-- A step of the actor towards its `select!`. -/
structure Approaches (cfg : Config) (s : State R) (action : ActorAction)
    (moved : Actor × Shared R) : Prop where
  taken : stepActor cfg s.shutdown s.fetchersGone s.decodersGone s.writersGone s.actor s.shared
    action = some moved
  quiet : action.faults moved.1.point = []
  nearer : moved.1.point.away cfg < s.actor.point.away cfg
  running : moved.1.point.hasExited = false
  findsWorkers : ({ s with actor := moved.1, shared := moved.2 } : State R).sendsLost = false
  queue : moved.2.completions = s.shared.completions

theorem actor_approaches {cfg : Config} {s : State R} (accounts : Accounts cfg s)
    (orderly : Orderly s) (running : s.actor.point.hasExited = false)
    (findsWorkers : s.sendsLost = false) (away : ∀ permit, s.actor.point ≠ .select permit)
    (looping : ∀ sequence, s.actor.point ≠ .finalFlush sequence) :
    ∃ action moved, Approaches cfg s action moved := by
  cases point : s.actor.point with
  | select permit => exact absurd point (away permit)
  | measuring gate =>
      refine ⟨.readRoom, _, (ActorStep.measures gate _ point rfl).taken, rfl, ?_, rfl, rfl, rfl⟩
      rw [point]
      simp only [ActorPoint.away]
      omega
  | counting gate roomUnits =>
      refine ⟨.readPermits, _, (ActorStep.counts gate roomUnits point).taken, rfl, ?_, rfl, rfl,
        rfl⟩
      rw [point]
      simp only [ActorPoint.away, kTarget]
      omega
  | extending gates extras =>
      cases extras with
      | zero =>
          refine ⟨.tryAcquire, _, (ActorStep.enough gates point).taken, rfl, ?_, rfl, rfl, rfl⟩
          rw [point]
          exact Nat.lt_succ_self 2
      | succ extras =>
          by_cases available : 0 < s.shared.freePermits
          · refine ⟨.tryAcquire, _, (ActorStep.takesPermit gates extras point available).taken,
              rfl, ?_, rfl, rfl, rfl⟩
            rw [point]
            simp only [ActorPoint.away]
            omega
          · refine ⟨.tryAcquire, _, (ActorStep.noPermit gates extras point available).taken, rfl,
              ?_, rfl, rfl, rfl⟩
            rw [point]
            simp only [ActorPoint.away]
            omega
  | extendingBytes gates extras =>
      cases attempt : s.shared.counters.tryReserve cfg.capacity cfg.estimate with
      | none =>
          refine ⟨.tryReserve false, _,
            (ActorStep.noBytes false gates extras point (Or.inr attempt)).taken, rfl, ?_, rfl, rfl,
            rfl⟩
          rw [point]
          simp only [ActorPoint.away]
          omega
      | some claimed =>
          have unraced : ¬ (false = true ∧ cfg.estimate ≠ 0) := fun lost => by cases lost.1
          refine ⟨.tryReserve false, _,
            (ActorStep.takesBytes false gates extras _ _ point unraced attempt).taken, rfl, ?_, rfl,
            rfl, rfl⟩
          rw [point]
          simp only [ActorPoint.away]
          omega
  | polling gates =>
      refine ⟨.nextDescriptors (.ok []), _,
        (ActorStep.admits (.ok []) gates [] point rfl (Nat.zero_le _)).taken, rfl, ?_, rfl, rfl, ?_⟩
      · rw [point]
        exact Nat.lt_succ_self 1
      · simp only [admission, dropGates_eq]
        rfl
  | sleeping =>
      refine ⟨.wake, _, (ActorStep.wakes point).taken, rfl, ?_, rfl, rfl, rfl⟩
      rw [point]
      exact Nat.lt_succ_self 0
  | sending rest =>
      cases rest with
      | nil =>
          refine ⟨.send, _, (ActorStep.sentAll point).taken, rfl, ?_, rfl, rfl, rfl⟩
          rw [point]
          exact Nat.lt_succ_self 0
      | cons unit rest =>
          have staffed : s.fetchersGone = false := by
            rw [State.sendsLost, point] at findsWorkers
            exact findsWorkers
          have isOpen : s.shared.descriptorClosed = false := by
            rw [orderly.descriptorClosed running, orderly.admitting (by rw [point]; rfl)]
            rfl
          have finds : ¬ (s.shared.descriptorClosed = true ∨ s.fetchersGone = true) := by
            simp only [isOpen, staffed, Bool.false_eq_true, or_self, not_false_eq_true]
          have room := room_for_descriptor accounts point
          refine ⟨.send, _, (ActorStep.sends unit rest point finds room).taken, rfl, ?_, rfl, ?_,
            rfl⟩
          · rw [point]
            simp only [ActorPoint.away, List.length_cons]
            omega
          · cases rest with
            | nil => rfl
            | cons next rest => exact staffed
  | flushing sequence frontier =>
      refine ⟨.flushed (.ok ()), _, (ActorStep.flushed sequence frontier point).taken, rfl, ?_, rfl,
        rfl, rfl⟩
      rw [point]
      exact Nat.lt_succ_self 0
  | finalFlush sequence => exact absurd point (looping sequence)
  | exited result =>
      rw [point] at running
      cases running

/-- Where the completion arm ends. -/
theorem receiveCommitted_rests (cfg : Config) {a : Actor} (sh : Shared R)
    {report : CommittedReport} (accepted : ∀ c error,
      a.coordinator.markCommitted report.range.1.val report.range.2.val ≠ (c, .error error)) :
    (receiveCommitted cfg a sh report).2.completions = sh.completions ∧
      ((receiveCommitted cfg a sh report).1.point = .select false ∨
        ∃ frontier, (receiveCommitted cfg a sh report).1.point = .flushing frontier frontier) := by
  have shape := receiveCommitted_cases cfg a sh report
  generalize receiveCommitted cfg a sh report = moved at shape ⊢
  obtain ⟨a', sh'⟩ := moved
  cases shape with
  | rejected c error rejects => exact absurd rejects (accepted c error)
  | marked c marks acks =>
      cases acks with
      | silent => exact ⟨rfl, Or.inl rfl⟩
      | deferred frontier => exact ⟨rfl, Or.inl rfl⟩
      | flushes frontier => exact ⟨rfl, Or.inr ⟨frontier, rfl⟩⟩

/-- A worker with an error reports it when the queue has room. -/
theorem reporter_reports [TypedRecords R] (cfg : Config) {s : State R} {error : RuntimeError}
    (held : s.reports error) (isOpen : ¬ s.shared.completionClosed = true)
    (room : s.shared.completions.length < cfg.depth) :
    ∃ action s', findsWorkers s action = true ∧ step cfg s action = some s' ∧
      faults action s' = [] ∧ s'.actor = s.actor ∧
      s'.shared.completions = s.shared.completions ++ [.fatal error] := by
  rcases held with ⟨p, member, holds⟩ | ⟨p, member, holds⟩ | ⟨p, member, holds⟩
  · obtain ⟨i, present⟩ := List.mem_iff_getElem?.mp member
    cases p with
    | reportingFatal other reservation =>
        cases holds
        refine ⟨.fetch i .report, _, rfl,
          Transition.taken
            (.fetch present (FetchStep.reports error reservation isOpen room).taken), ?_, rfl, rfl⟩
        rw [faults_fetch _ present]
        rfl
    | _ => cases holds
  · obtain ⟨i, present⟩ := List.mem_iff_getElem?.mp member
    cases p with
    | reportingFatal other reservation =>
        cases holds
        refine ⟨.decode i .report, _, rfl,
          Transition.taken
            (.decode present (DecodeStep.reports error reservation isOpen room).taken), ?_, rfl,
          rfl⟩
        rw [faults_decode _ present]
        rfl
    | _ => cases holds
  · obtain ⟨i, present⟩ := List.mem_iff_getElem?.mp member
    cases p with
    | reportingFatal other reservation =>
        cases holds
        refine ⟨.writer i .report, _, rfl,
          Transition.taken
            (.writer present (WriterStep.reports error reservation isOpen room).taken), ?_, rfl,
          rfl⟩
        rw [faults_writer _ present]
        rfl
    | _ => cases holds

def WriteCompletion.isFatal : WriteCompletion → Bool
  | .committed _ => false
  | .fatal _ => true

/-- Two steps for each message, and three for an error that is not yet in the queue. -/
def queueSteps (queue : List WriteCompletion) : Nat :=
  2 * queue.length + if queue.any WriteCompletion.isFatal then 0 else 3

theorem queueSteps_committed (report : CommittedReport) (rest : List WriteCompletion) :
    queueSteps (.committed report :: rest) = queueSteps rest + 2 := by
  simp only [queueSteps, List.length_cons, List.any_cons, WriteCompletion.isFatal, Bool.false_or]
  omega

/-- How many steps the actor is away from reading the error. -/
def State.untilHeard (cfg : Config) (s : State R) : Nat :=
  if s.actor.point.hasExited then 0
  else 1 + s.actor.point.away cfg + queueSteps s.shared.completions

theorem untilHeard_running {cfg : Config} {s : State R}
    (running : s.actor.point.hasExited = false) :
    s.untilHeard cfg = 1 + s.actor.point.away cfg + queueSteps s.shared.completions := by
  rw [State.untilHeard, running]
  rfl

section Hearing

variable [TypedRecords R] {cfg : Config} {error : RuntimeError} {s : State R × List Fault}
  (failing : Failing cfg error s) (findsWorkers : s.1.sendsLost = false)
include failing findsWorkers

theorem Failing.hears_at_select {permit : Bool} (select : s.1.actor.point = .select permit)
    (lost : s.1.lost) : ∃ action s', (faultMachine R cfg).step s action = some s' ∧
      (Failing cfg error s' ∧ s'.1.sendsLost = false) ∧
      s'.1.untilHeard cfg < s.1.untilHeard cfg := by
  have busy : 0 < s.1.actor.inFlight :=
    Nat.pos_of_ne_zero (not_left_of_lost failing.base lost).1
  have allowed : Pipeline.findsWorkers s.1 (.actor .receive) = true := by
    simp [Pipeline.findsWorkers, findsWorkers]
  cases queue : s.1.shared.completions with
  | nil =>
      -- the error is still with its worker
      have orderly := orderly_of_reachable failing.base
      have isOpen : ¬ s.1.shared.completionClosed = true := by
        rw [orderly.closed, select]
        exact Bool.false_ne_true
      have room : s.1.shared.completions.length < cfg.depth := by
        rw [queue]
        exact Nat.lt_of_lt_of_le Nat.one_pos (Nat.le_max_right _ _)
      have held : s.1.reports error := by
        cases failing.located with
        | held unbroken reported => exact reported
        | queued running lost earlier later shape =>
            rw [queue] at shape
            exact absurd shape.symm (by simp)
        | returned exits =>
            rw [select] at exits
            cases exits
      obtain ⟨action, s', isAllowed, taken, quiet, sameActor, grown⟩ :=
        reporter_reports cfg held isOpen room
      obtain ⟨moved, next⟩ := failing.step isAllowed taken quiet
      refine ⟨action, _, moved, ⟨next, ?_⟩, ?_⟩
      · simp only [State.sendsLost, sameActor, select]
      · rw [untilHeard_running (by simp only [sameActor, select]; rfl),
          untilHeard_running (by rw [select]; rfl), sameActor, grown, queue]
        exact Nat.add_lt_add_left (Nat.lt_succ_self 2) _
  | cons message rest =>
      cases message with
      | committed report =>
          have waiting := report_unprocessed (custody_of_reachable failing.base)
            (books_of_reachable failing.base).keeps report (by rw [queue]; exact List.mem_cons_self)
          let popped := { s.1.shared.cancelAdmission permit with completions := rest }
          have taken : Pipeline.step cfg s.1 (.actor .receive) = some { s.1 with
              actor := (receiveCommitted cfg s.1.actor popped report).1
              shared := (receiveCommitted cfg s.1.actor popped report).2 } :=
            Transition.taken
              (.actor (ActorStep.receives permit report rest select queue busy).taken)
          obtain ⟨moved, next⟩ := failing.step allowed taken rfl
          obtain ⟨same, rests⟩ := receiveCommitted_rests cfg popped
            fun _ _ => (books_of_reachable failing.base).keeps.not_rejected waiting
          rw [untilHeard_running (s := s.1) (by rw [select]; rfl), queue, queueSteps_committed]
          rcases rests with isSelect | ⟨frontier, isFlush⟩
          · refine ⟨_, _, moved, ⟨next, ?_⟩, ?_⟩
            · simp only [State.sendsLost, isSelect]
            · rw [untilHeard_running (by simp only [isSelect]; rfl)]
              simp only [isSelect, same, select, ActorPoint.away, popped]
              omega
          · refine ⟨_, _, moved, ⟨next, ?_⟩, ?_⟩
            · simp only [State.sendsLost, isFlush]
            · rw [untilHeard_running (by simp only [isFlush]; rfl)]
              simp only [isFlush, same, select, ActorPoint.away, popped]
              omega
      | fatal heard =>
          let popped := { s.1.shared.cancelAdmission permit with completions := rest }
          have taken : Pipeline.step cfg s.1 (.actor .receive) = some { s.1 with
              actor := (exitActor s.1.actor popped (.error heard)).1
              shared := (exitActor s.1.actor popped (.error heard)).2 } :=
            Transition.taken
              (.actor (ActorStep.receivesFatal permit heard rest select queue busy).taken)
          obtain ⟨moved, next⟩ := failing.step allowed taken rfl
          refine ⟨_, _, moved, ⟨next, rfl⟩, ?_⟩
          rw [untilHeard_running (s := s.1) (by rw [select]; rfl), Nat.add_assoc, Nat.add_comm]
          exact Nat.succ_pos _

theorem Failing.approaches (running : s.1.actor.point.hasExited = false) (lost : s.1.lost) :
    ∃ action s', (faultMachine R cfg).step s action = some s' ∧
      (Failing cfg error s' ∧ s'.1.sendsLost = false) ∧
      s'.1.untilHeard cfg < s.1.untilHeard cfg := by
  by_cases atSelect : ∃ permit, s.1.actor.point = .select permit
  · obtain ⟨permit, select⟩ := atSelect
    exact failing.hears_at_select findsWorkers select lost
  · have looping : ∀ sequence, s.1.actor.point ≠ .finalFlush sequence := fun sequence flushing =>
      (not_left_of_lost failing.base lost).1
        ((drained_of_reachable failing.base).flushing sequence flushing)
    obtain ⟨action, moved, approaches⟩ := actor_approaches (accounts_of_reachable failing.base)
      (orderly_of_reachable failing.base) running findsWorkers
      (fun permit select => atSelect ⟨permit, select⟩) looping
    have taken : Pipeline.step cfg s.1 (.actor action) =
        some { s.1 with actor := moved.1, shared := moved.2 } :=
      Transition.taken (.actor approaches.taken)
    obtain ⟨steps, next⟩ := failing.step (by simp [Pipeline.findsWorkers, findsWorkers]) taken
      approaches.quiet
    refine ⟨_, _, steps, ⟨next, approaches.findsWorkers⟩, ?_⟩
    rw [untilHeard_running approaches.running, untilHeard_running running, approaches.queue]
    exact Nat.add_lt_add_right (Nat.add_lt_add_left approaches.nearer 1) _

/-- The actor reads the error and returns it. -/
theorem Failing.hears : (faultMachine R cfg).CanReach (Returning cfg error) s := by
  refine Machine.canReach_of_rank (P := fun s => Failing cfg error s ∧ s.1.sendsLost = false)
    (fun s => s.1.untilHeard cfg) ?_ s ⟨failing, findsWorkers⟩
  rintro s ⟨failing, findsWorkers⟩
  cases failing.located with
  | held unbroken reported only lost =>
      exact Or.inr (failing.approaches findsWorkers unbroken.running lost)
  | queued running lost => exact Or.inr (failing.approaches findsWorkers running lost)
  | returned exits => exact Or.inl ⟨failing, exits⟩

theorem Failing.returns : (faultMachine R cfg).CanReach
    (fun s => Failing cfg error s ∧ s.1.result = some (.error error)) s := by
  refine (failing.hears findsWorkers).trans fun heard returning => ?_
  exact returning.ends.trans fun ended done => done.1.joins done.2

end Hearing

/-! ## The error a run returns -/

/-- In a run with one root failure, in which the actor always finds a fetch worker when it
sends, `Runtime::run` returns the error of that failure; and unless the actor is about to
send with every fetch worker gone, the run can go on to that return. -/
theorem root_cause_returned [TypedRecords R] (cfg : Config) (s : State R) (error : RuntimeError)
    (reachable : (faultMachine R cfg).Reachable (s, [.root error])) :
    (∀ result, s.result = some result → result = .error error) ∧
    (s.sendsLost = false → (faultMachine R cfg).CanReach
      (fun last => last.2 = [.root error] ∧ last.1.result = some (.error error))
      (s, [.root error])) := by
  have failing : Failing cfg error (s, [.root error]) := ⟨reachable, rfl⟩
  refine ⟨fun result returned => failing.located.result failing.base returned, fun finds => ?_⟩
  obtain ⟨actions, last, ran, ended, returned⟩ := failing.returns finds
  exact ⟨actions, last, ran, ended.once, returned⟩

/-- The first poll of a run: batch 0 goes to the one fetch worker. -/
def firstPollRun : List (Action SizedRecords) :=
  [.actor .acquirePermit, .actor .reserveBytes, .actor .readRoom, .actor .readPermits,
    .actor .tryAcquire, .actor (.tryReserve false), .actor .tryAcquire,
    .actor (.nextDescriptors (.ok [⟨0, "a", []⟩])), .actor .send, .actor .send, .fetch 0 .take]

/-- The fetch fails, and its worker ends. -/
def fetchFailsRun : List (Action SizedRecords) :=
  [.fetch 0 (.answer (.error "unavailable")), .fetch 0 .report]

/-- Every other worker is torn down. -/
def tornDownRun : List (Action SizedRecords) :=
  [.cancelHardAbort, .decode 0 .abort, .writer 0 .abort, .writer 1 .abort, .writer 2 .abort,
    .writer 3 .abort, .join]

/-- The actor waits at its `select!` and reads the error. -/
theorem root_cause_returned_at_select : ∃ s : State SizedRecords, ∃ result,
    (faultMachine SizedRecords narrowConfig).Reachable (s, [.root (.source "unavailable")]) ∧
      s.result = some result ∧ result = .error (.source "unavailable") := by
  have ends : ((faultMachine SizedRecords narrowConfig).run
      (firstPollRun ++ fetchFailsRun ++ [.actor .receive] ++ tornDownRun)).map
        (fun s => (s.1.result.isSome, s.2)) =
      some (true, [.root (.source "unavailable")]) := by
    decide
  obtain ⟨⟨s, log⟩, ran, values⟩ := Option.map_eq_some_iff.mp ends
  obtain ⟨joined, once⟩ := Prod.mk.inj values
  obtain ⟨result, returned⟩ := Option.isSome_iff_exists.mp joined
  have reachable := Machine.run_reachable _ _ _ ran
  simp only at once
  rw [once] at reachable
  exact ⟨s, result, reachable, returned,
    (root_cause_returned narrowConfig s _ reachable).1 result returned⟩

/-- The run returned an error of the pipeline's own. -/
def failedInPipeline : Option (RuntimeResult Unit) → Bool
  | some (.error (.pipeline _)) => true
  | _ => false

/-- The fetch worker fails while the actor polls, and the descriptor of batch 1 finds no
worker: the run returns that loss. -/
theorem lost_descriptor_hides_cause : ¬ ∀ (cfg : Config) (s : State SizedRecords)
    (error : RuntimeError),
    ((machine SizedRecords cfg).traced faults).Reachable (s, [.root error]) →
      ∀ result, s.result = some result → result = .error error := by
  intro returns
  have ends : (((machine SizedRecords narrowConfig).traced faults).run
      (firstPollRun ++ [.actor .acquirePermit, .actor .reserveBytes, .actor .readRoom,
        .actor .readPermits, .actor .tryAcquire] ++ fetchFailsRun ++
        [.actor (.nextDescriptors (.ok [⟨1, "b", []⟩])), .actor .send] ++ tornDownRun)).map
        (fun s => (failedInPipeline s.1.result, s.2)) =
      some (true, [.root (.source "unavailable")]) := by
    decide
  obtain ⟨⟨s, log⟩, ran, values⟩ := Option.map_eq_some_iff.mp ends
  obtain ⟨isPipeline, once⟩ := Prod.mk.inj values
  have reachable := Machine.run_reachable _ _ _ ran
  simp only at once isPipeline
  rw [once] at reachable
  cases returned : s.result with
  | none =>
      rw [returned] at isPipeline
      cases isPipeline
  | some result =>
      rw [returned, returns narrowConfig s _ reachable result returned] at isPipeline
      cases isPipeline

end OpendataIngest.Runtime.Pipeline
