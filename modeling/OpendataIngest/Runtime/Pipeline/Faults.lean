import OpendataIngest.Runtime.Pipeline.CleanExit

/-!
# The failures of a run

A root failure is an error that a fetch, `decode_one` or `write_with_retry` returns.  The
worker sends it to the actor and ends.  What then fails because a queue has lost its
readers, or because the run is being aborted, is a consequence and no failure of its own.
A panic, the test killswitch and a failed call of the actor are failures of another kind.
-/

set_option autoImplicit false

namespace OpendataIngest.Runtime.Pipeline

open MachineInt Pool AckCoordinator

variable {R : Type}

inductive Fault where
  | root (error : RuntimeError)
  | other
  deriving DecidableEq

/-! ## The failures of a step -/

/-- The error a worker is about to report. -/
def FetchPoint.fatal? : FetchPoint → Option RuntimeError
  | .reportingFatal error _ => some error
  | _ => none

def DecodePoint.fatal? : DecodePoint R → Option RuntimeError
  | .reportingFatal error _ => some error
  | _ => none

def WriterPoint.fatal? : WriterPoint R → Option RuntimeError
  | .reportingFatal error _ => some error
  | _ => none

/-- The failures in a step that takes its worker to `p`. -/
def FetchAction.faults (action : FetchAction) (p : FetchPoint) : List Fault :=
  match action with
  | .answer _ => (p.fatal?.map Fault.root).toList
  | .kill => [.other]
  | .panic _ => [.other]
  | _ => []

def DecodeAction.faults (action : DecodeAction R) (p : DecodePoint R) : List Fault :=
  match action with
  | .decode _ => (p.fatal?.map Fault.root).toList
  | .panic _ => [.other]
  | _ => []

def WriterAction.faults (action : WriterAction) (p : WriterPoint R) : List Fault :=
  match action with
  | .write _ => (p.fatal?.map Fault.root).toList
  | .check _ => (p.fatal?.map Fault.root).toList
  | .panic _ => [.other]
  | _ => []

/-- The actor's own calls: `next_descriptors`, `register_pending`, `flush_acks`. -/
def ActorAction.faults (action : ActorAction) (point : ActorPoint) : List Fault :=
  match action with
  | .nextDescriptors _ => if point.hasFailed then [.other] else []
  | .flushed _ => if point.hasFailed then [.other] else []
  | _ => []

/-- The failures in a step that leads to `s`. -/
def faults (action : Action R) (s : State R) : List Fault :=
  match action with
  | .actor action => action.faults s.actor.point
  | .fetch i action => s.fetchers[i]?.elim [] action.faults
  | .decode i action => s.decoders[i]?.elim [] action.faults
  | .writer i action => s.writers[i]?.elim [] action.faults
  | _ => []

section Placed

variable {s : State R} {i : Nat} (sh' : Shared R)

theorem faults_fetch {p : FetchPoint} (present : s.fetchers[i]? = some p) (action : FetchAction)
    (p' : FetchPoint) : faults (.fetch i action)
      { s with fetchers := s.fetchers.set i p', shared := sh' } = action.faults p' := by
  rw [faults, present_set present, Option.elim_some]

theorem faults_decode {p : DecodePoint R} (present : s.decoders[i]? = some p)
    (action : DecodeAction R) (p' : DecodePoint R) : faults (.decode i action)
      { s with decoders := s.decoders.set i p', shared := sh' } = action.faults p' := by
  rw [faults, present_set present, Option.elim_some]

theorem faults_writer {p : WriterPoint R} (present : s.writers[i]? = some p)
    (action : WriterAction) (p' : WriterPoint R) : faults (.writer i action)
      { s with writers := s.writers.set i p', shared := sh' } = action.faults p' := by
  rw [faults, present_set present, Option.elim_some]

end Placed

/-! ## What a worker step does to the reports -/

/-- The completion queue after a step that reports no error. -/
def Announces (queue queue' : List WriteCompletion) : Prop :=
  queue' = queue ∨ ∃ report, queue' = queue ++ [.committed report]

/-- `before` and `after` are the error the worker holds, `exited` says that it has left,
`lost` that it gave up its unit.  The index lists the failures of the step. -/
inductive WorkerOutcome (sh sh' : Shared R) (upstreamGone downstreamGone : Bool)
    (before after : Option RuntimeError) (exited : Bool) (lost : Prop) : List Fault → Prop where
  | works (free : before = none) (quiet : after = none) (stays : exited = false)
      (queue : Announces sh.completions sh'.completions) :
      WorkerOutcome sh sh' upstreamGone downstreamGone before after exited lost []
  | fails (error : RuntimeError) (free : before = none) (holds : after = some error)
      (stays : exited = false) (gaveUp : lost) (queue : sh'.completions = sh.completions) :
      WorkerOutcome sh sh' upstreamGone downstreamGone before after exited lost [.root error]
  | cutOff (closed : downstreamGone = true) (queue : sh'.completions = sh.completions) :
      WorkerOutcome sh sh' upstreamGone downstreamGone before after exited lost []
  | reports (error : RuntimeError) (held : before = some error)
      (queue : sh'.completions = sh.completions ++ [.fatal error]) :
      WorkerOutcome sh sh' upstreamGone downstreamGone before after exited lost []
  | leaves (free : before = none) (quiet : after = none) (drained : upstreamGone = true)
      (queue : sh'.completions = sh.completions) :
      WorkerOutcome sh sh' upstreamGone downstreamGone before after exited lost []
  | tornDown (returned : sh.completionClosed = true ∨ sh.hardAbort = true)
      (queue : sh'.completions = sh.completions) :
      WorkerOutcome sh sh' upstreamGone downstreamGone before after exited lost []
  | breaks : WorkerOutcome sh sh' upstreamGone downstreamGone before after exited lost [.other]

/-- A worker adds to the end of the completion queue. -/
theorem WorkerOutcome.appends {sh sh' : Shared R} {upstreamGone downstreamGone : Bool}
    {before after : Option RuntimeError} {exited : Bool} {lost : Prop} {seen : List Fault}
    (outcome : WorkerOutcome sh sh' upstreamGone downstreamGone before after exited lost seen)
    (expected : .other ∉ seen) : ∃ added, sh'.completions = sh.completions ++ added := by
  cases outcome with
  | works free quiet stays queue =>
      rcases queue with same | ⟨report, announced⟩
      · exact ⟨[], by rw [same, List.append_nil]⟩
      · exact ⟨_, announced⟩
  | fails error free holds stays gaveUp queue => exact ⟨[], by rw [queue, List.append_nil]⟩
  | cutOff closed queue => exact ⟨[], by rw [queue, List.append_nil]⟩
  | reports error held queue => exact ⟨_, queue⟩
  | leaves free quiet drained queue => exact ⟨[], by rw [queue, List.append_nil]⟩
  | tornDown returned queue => exact ⟨[], by rw [queue, List.append_nil]⟩
  | breaks => exact absurd (List.mem_singleton_self _) expected

/-- Nobody has the custody of some range any more. -/
def GaveUp (before after : List Holding) : Prop :=
  ∃ range, total (custodyOf range) after < total (custodyOf range) before

theorem stepFetch_outcome {cfg : Config} {killed decodersGone : Bool} {sh sh' : Shared R}
    {p p' : FetchPoint} {action : FetchAction}
    (taken : stepFetch cfg killed decodersGone sh p action = some (p', sh')) :
    WorkerOutcome sh sh' sh.descriptorClosed decodersGone p.fatal? p'.fatal? p'.hasExited
      (GaveUp (sh.holdings ++ p.holdings) (sh'.holdings ++ p'.holdings)) (action.faults p') := by
  cases fetchStep_of_stepFetch taken with
  | takes | fetches | sends => exact .works rfl rfl rfl (Or.inl rfl)
  | fetchFails unit fetched error failed =>
      exact .fails error rfl rfl rfl ⟨_, custody_lost rfl rfl rfl⟩ rfl
  | cutOff unit gone => exact .cutOff gone rfl
  | unheard error reservation closed => exact .tornDown (Or.inl closed) rfl
  | reports error reservation notClosed room => exact .reports error rfl rfl
  | leaves queue closed => exact .leaves rfl rfl closed rfl
  | aborts aborting => exact .tornDown (Or.inr aborting) rfl
  | abandons unit aborting => exact .tornDown (Or.inr aborting) rfl
  | isKilled | panics => exact .breaks

theorem stepDecode_outcome [TypedRecords R] {cfg : Config} {fetchersGone writersGone : Bool}
    {sh sh' : Shared R} {p p' : DecodePoint R} {action : DecodeAction R}
    (taken : stepDecode cfg fetchersGone writersGone sh p action = some (p', sh')) :
    WorkerOutcome sh sh' fetchersGone writersGone p.fatal? p'.fatal? p'.hasExited
      (GaveUp (sh.holdings ++ p.holdings) (sh'.holdings ++ p'.holdings)) (action.faults p') := by
  cases decodeStep_of_stepDecode taken with
  | takes | decodes | decodesDry | sends | releasesBytes | releasesPermit =>
      exact .works rfl rfl rfl (Or.inl rfl)
  | decodeFails unit decoder error reservation k failed =>
      exact .fails error rfl rfl rfl ⟨_, custody_lost rfl rfl rfl⟩ rfl
  | cutOff unit gone => exact .cutOff gone rfl
  | dryRunUnheard report reservation closed => exact .tornDown (Or.inl closed) rfl
  | reportsDryRun report reservation notClosed room =>
      exact .works rfl rfl rfl (Or.inr ⟨report, rfl⟩)
  | unheard error reservation closed => exact .tornDown (Or.inl closed) rfl
  | reports error reservation notClosed room => exact .reports error rfl rfl
  | leaves queue gone => exact .leaves rfl rfl gone rfl
  | aborts aborting => exact .tornDown (Or.inr aborting) rfl
  | abandons unit aborting => exact .tornDown (Or.inr aborting) rfl
  | panics => exact .breaks

/-- Nobody reads after a writer, so no writer is cut off. -/
theorem stepWriter_outcome {cfg : Config} {decodersGone : Bool} {sh sh' : Shared R}
    {p p' : WriterPoint R} {action : WriterAction}
    (taken : stepWriter cfg decodersGone sh p action = some (p', sh')) :
    WorkerOutcome sh sh' decodersGone false p.fatal? p'.fatal? p'.hasExited
      (GaveUp (sh.holdings ++ p.holdings) (sh'.holdings ++ p'.holdings)) (action.faults p') := by
  cases writerStep_of_stepWriter taken with
  | takes | writes | writeUnclear | finds | wakes | releasesBytes | releasesPermit =>
      exact .works rfl rfl rfl (Or.inl rfl)
  | writeFails attempt unit error =>
      exact .fails (.sink error) rfl rfl rfl ⟨_, custody_lost rfl rfl rfl⟩ rfl
  | checkFails attempt unit error failure =>
      exact .fails failure rfl rfl rfl ⟨_, custody_lost rfl rfl rfl⟩ rfl
  | retries _ _ attempt unit error event answered left =>
      cases answered with
      | write => exact .works rfl rfl rfl (Or.inl rfl)
      | check => exact .works rfl rfl rfl (Or.inl rfl)
  | givesUp _ _ attempt unit error event answered spent =>
      cases answered with
      | write => exact .fails (.sink error) rfl rfl rfl ⟨_, custody_lost rfl rfl rfl⟩ rfl
      | check => exact .fails (.sink error) rfl rfl rfl ⟨_, custody_lost rfl rfl rfl⟩ rfl
  | commitUnheard report reservation closed => exact .tornDown (Or.inl closed) rfl
  | reportsCommit report reservation notClosed room =>
      exact .works rfl rfl rfl (Or.inr ⟨report, rfl⟩)
  | unheard error reservation closed => exact .tornDown (Or.inl closed) rfl
  | reports error reservation notClosed room => exact .reports error rfl rfl
  | leaves queue gone => exact .leaves rfl rfl gone rfl
  | aborts aborting => exact .tornDown (Or.inr aborting) rfl
  | abandons _ unit message inRetry aborting => exact .tornDown (Or.inr aborting) rfl
  | panics => exact .breaks

/-! ## How the actor goes on -/

/-- The actor is about to send a descriptor that no worker will receive. -/
def State.sendsLost (s : State R) : Bool :=
  match s.actor.point with
  | .sending (_ :: _) => s.fetchersGone
  | _ => false

/-- The index lists the failures of the step. -/
inductive ActorOutcome (s : State R) (a' : Actor) (sh' : Shared R) : List Fault → Prop where
  | stays (running : a'.point.hasExited = false)
      (queue : sh'.completions = s.shared.completions) : ActorOutcome s a' sh' []
  | receives (report : CommittedReport)
      (queue : s.shared.completions = .committed report :: sh'.completions)
      (running : a'.point.hasExited = false) : ActorOutcome s a' sh' []
  | hears (error : RuntimeError) (rest : List WriteCompletion)
      (queue : s.shared.completions = .fatal error :: rest)
      (exits : a'.point = .exited (.error error)) : ActorOutcome s a' sh' []
  | disagrees (report : CommittedReport) (rest : List WriteCompletion)
      (queue : s.shared.completions = .committed report :: rest) (c : AckCoordinator)
      (error : RuntimeError) (rejected : s.actor.coordinator.markCommitted report.range.1.val
        report.range.2.val = (c, .error error)) : ActorOutcome s a' sh' []
  | alone (empty : s.shared.completions = [])
      (gone : s.fetchersGone = true ∧ s.decodersGone = true ∧ s.writersGone = true) :
      ActorOutcome s a' sh' []
  | aborted (signalled : s.shared.hardAbort = true) : ActorOutcome s a' sh' []
  | losesDescriptor (unit : AdmittedDescriptor) (rest : List AdmittedDescriptor)
      (sending : s.actor.point = .sending (unit :: rest))
      (closed : s.shared.descriptorClosed = true ∨ s.fetchersGone = true) :
      ActorOutcome s a' sh' []
  | leaves (exits : a'.point = .exited (.ok ())) : ActorOutcome s a' sh' []
  | breaks : ActorOutcome s a' sh' [.other]

theorem admission_outcome {s : State R} (gates : List Reservation)
    (descriptors : List SourceBatchDescriptor) (answer : Except BoxError (List BatchDescriptor)) :
    ActorOutcome s (admission s.actor s.shared gates descriptors).1
      (admission s.actor s.shared gates descriptors).2
      ((ActorAction.nextDescriptors answer).faults
        (admission s.actor s.shared gates descriptors).1.point) := by
  cases descriptors with
  | nil =>
      refine .stays rfl ?_
      simp only [admission, dropGates_eq]
      rfl
  | cons first rest =>
      simp only [admission, dropGates_eq, recordRegistered_eq]
      split
      · exact .breaks
      · exact .stays rfl rfl

theorem receiveCommitted_outcome (cfg : Config) {s : State R} (sh : Shared R)
    {report : CommittedReport} {rest : List WriteCompletion}
    (queue : s.shared.completions = .committed report :: rest) (popped : sh.completions = rest) :
    ActorOutcome s (receiveCommitted cfg s.actor sh report).1
      (receiveCommitted cfg s.actor sh report).2 [] := by
  have shape := receiveCommitted_cases cfg s.actor sh report
  generalize receiveCommitted cfg s.actor sh report = moved at shape ⊢
  obtain ⟨a', sh'⟩ := moved
  cases shape with
  | rejected c error rejects => exact .disagrees report rest queue c error rejects
  | marked c marks acks =>
      rw [← popped] at queue
      cases acks with
      | silent => exact .receives report queue rfl
      | deferred frontier => exact .receives report queue rfl
      | flushes frontier => exact .receives report queue rfl

theorem stepActor_outcome {cfg : Config} {s : State R} {a' : Actor} {sh' : Shared R}
    {action : ActorAction}
    (taken : stepActor cfg s.shutdown s.fetchersGone s.decodersGone s.writersGone s.actor
      s.shared action = some (a', sh')) :
    ActorOutcome s a' sh' (action.faults a'.point) := by
  cases actorStep_of_stepActor taken with
  | aborts permit error at_select aborting => exact .aborted aborting
  | closes permit =>
      refine .stays rfl ?_
      rw [cancelAdmission_eq]
  | receives permit report rest at_select queue =>
      exact receiveCommitted_outcome cfg _ queue rfl
  | receivesFatal permit error rest at_select queue => exact .hears error rest queue rfl
  | workersGone permit error at_select queue busy gone => exact .alone queue gone
  | pollFails => exact .breaks
  | admits answer gates descriptors => exact admission_outcome gates descriptors answer
  | sendFails unit rest error at_sending closed =>
      exact .losesDescriptor unit rest at_sending closed
  | flushFails => exact .breaks
  | flushedLast | leaves => exact .leaves rfl
  | finishes permit =>
      refine .stays rfl ?_
      rw [cancelAdmission_eq]
      rfl
  | _ => exact .stays rfl rfl

end OpendataIngest.Runtime.Pipeline
