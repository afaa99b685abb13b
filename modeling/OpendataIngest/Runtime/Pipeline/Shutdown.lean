import OpendataIngest.Runtime.Pipeline.Unwinding

/-!
# Every run ends after shutdown

Once the actor has stopped admitting, or has returned, no new unit enters the pipeline.
Each unit has a bounded way to go, its retries included, so every step lowers the number of
steps that are left, whatever fails on the way.  And until `Runtime::run` has returned some
task is able to take one.
-/

set_option autoImplicit false

namespace OpendataIngest.Runtime.Pipeline

open MachineInt Pool

variable {R : Type}

/-! ## The steps that are left -/

def Config.retries (cfg : Config) : Nat := cfg.options.effectiveRetryMaxAttempts.val

/-- What a unit still costs in front of each pool. -/
def Config.sinkCommitSteps (cfg : Config) : Nat := 3 * cfg.retries + 9

def Config.fetchedSteps (cfg : Config) : Nat := cfg.sinkCommitSteps + 3

def Config.descriptorSteps (cfg : Config) : Nat := cfg.fetchedSteps + 3

/-- A worker's steps, with those of what it is about to send. -/
def FetchPoint.stepsLeft (cfg : Config) : FetchPoint → Nat
  | .recv => 1
  | .fetching _ => cfg.fetchedSteps + 3
  | .sending _ => cfg.fetchedSteps + 2
  | .reportingFatal _ _ => 3
  | .exited _ => 0

def DecodePoint.stepsLeft (cfg : Config) : DecodePoint R → Nat
  | .recv => 1
  | .decoding _ => cfg.sinkCommitSteps + 3
  | .sending _ => cfg.sinkCommitSteps + 2
  | .reportingDryRun _ _ => 6
  | .releasingBytes _ => 3
  | .releasingPermit => 2
  | .reportingFatal _ _ => 3
  | .exited _ => 0

def WriterPoint.stepsLeft (cfg : Config) : WriterPoint R → Nat
  | .recv => 1
  | .writing attempt _ => 3 * (cfg.retries - attempt) + 9
  | .checking attempt _ _ => 3 * (cfg.retries - attempt) + 8
  | .backingOff attempt _ => 3 * (cfg.retries - attempt) + 7
  | .reportingCommitted _ _ => 6
  | .releasingBytes _ => 3
  | .releasingPermit => 2
  | .reportingFatal _ _ => 3
  | .exited _ => 0

/-- The steps of an actor that no longer admits. -/
def ActorPoint.stepsLeft : ActorPoint → Nat
  | .flushing _ _ => 3
  | .finalFlush _ => 1
  | .exited _ => 0
  | .select _ => 2
  | _ => 3

def Shared.stepsLeft (cfg : Config) (sh : Shared R) : Nat :=
  cfg.descriptorSteps * sh.descriptors.length + cfg.fetchedSteps * sh.fetched.length +
    cfg.sinkCommitSteps * sh.sinkCommits.length + 2 * sh.completions.length

def State.stepsLeft (cfg : Config) (s : State R) : Nat :=
  s.actor.point.stepsLeft + s.shared.stepsLeft cfg +
    total (FetchPoint.stepsLeft cfg) s.fetchers + total (DecodePoint.stepsLeft cfg) s.decoders +
    total (WriterPoint.stepsLeft cfg) s.writers + s.result.isNone.toNat

/-- Cancelling a token, which may be done again and again. -/
def Action.isSignal : Action R → Bool
  | .cancelShutdownToken => true
  | .cancelKillswitch => true
  | .cancelHardAbort => true
  | _ => false

/-! ## Worker steps -/

theorem FetchPoint.stepsLeft_pos (cfg : Config) {p : FetchPoint} (alive : p.hasExited = false) :
    0 < p.stepsLeft cfg := by
  cases p with
  | exited result => cases alive
  | _ => exact Nat.succ_pos _

theorem DecodePoint.stepsLeft_pos (cfg : Config) {p : DecodePoint R}
    (alive : p.hasExited = false) : 0 < p.stepsLeft cfg := by
  cases p with
  | exited result => cases alive
  | _ => exact Nat.succ_pos _

theorem WriterPoint.stepsLeft_pos (cfg : Config) {p : WriterPoint R}
    (alive : p.hasExited = false) : 0 < p.stepsLeft cfg := by
  cases p with
  | exited result => cases alive
  | _ => exact Nat.succ_pos _

theorem dropHeld_stepsLeft (cfg : Config) (sh : Shared R) (reservation? : Option Reservation) :
    (dropHeld sh.fail reservation?).stepsLeft cfg = sh.stepsLeft cfg := by
  obtain ⟨k, free, dropped⟩ := dropHeld_eq sh.fail reservation?
  rw [dropped]
  rfl

@[simp] theorem dropUnit_stepsLeft (cfg : Config) (sh : Shared R) (reservation : Reservation) :
    (sh.dropUnit reservation).stepsLeft cfg = sh.stepsLeft cfg := rfl

theorem complete_stepsLeft (cfg : Config) (sh : Shared R) (message : WriteCompletion) :
    (sh.complete message).stepsLeft cfg = sh.stepsLeft cfg + 2 := by
  simp only [Shared.stepsLeft, Shared.complete, List.length_append, List.length_singleton]
  omega

theorem stepFetch_falls {cfg : Config} {killed decodersGone : Bool} {sh sh' : Shared R}
    {p p' : FetchPoint} {action : FetchAction}
    (taken : stepFetch cfg killed decodersGone sh p action = some (p', sh')) :
    sh'.stepsLeft cfg + p'.stepsLeft cfg < sh.stepsLeft cfg + p.stepsLeft cfg := by
  cases fetchStep_of_stepFetch taken with
  | takes unit rest queue =>
      simp only [Shared.stepsLeft, queue, List.length_cons, FetchPoint.stepsLeft,
        Config.descriptorSteps, Nat.mul_succ]
      omega
  | sends unit notGone room =>
      simp only [Shared.stepsLeft, List.length_append, List.length_singleton,
        FetchPoint.stepsLeft, Nat.mul_succ]
      omega
  | reports error reservation notClosed room =>
      rw [dropUnit_stepsLeft, complete_stepsLeft, FetchPoint.stepsLeft, FetchPoint.stepsLeft]
      omega
  | fetches | fetchFails | cutOff | unheard | leaves | aborts | abandons | isKilled =>
      simp only [Shared.stepsLeft, Shared.dropUnit, Shared.fail, FetchPoint.stepsLeft,
        Config.fetchedSteps, Config.sinkCommitSteps]
      omega
  | panics p message alive =>
      have own := FetchPoint.stepsLeft_pos cfg alive
      rw [dropHeld_stepsLeft, FetchPoint.stepsLeft]
      omega

theorem stepDecode_falls [TypedRecords R] {cfg : Config} {fetchersGone writersGone : Bool}
    {sh sh' : Shared R} {p p' : DecodePoint R} {action : DecodeAction R}
    (taken : stepDecode cfg fetchersGone writersGone sh p action = some (p', sh')) :
    sh'.stepsLeft cfg + p'.stepsLeft cfg < sh.stepsLeft cfg + p.stepsLeft cfg := by
  cases decodeStep_of_stepDecode taken with
  | takes unit rest queue =>
      simp only [Shared.stepsLeft, queue, List.length_cons, DecodePoint.stepsLeft,
        Config.fetchedSteps, Nat.mul_succ]
      omega
  | sends unit notGone room =>
      simp only [Shared.stepsLeft, List.length_append, List.length_singleton,
        DecodePoint.stepsLeft, Nat.mul_succ]
      omega
  | reports error reservation notClosed room =>
      rw [dropUnit_stepsLeft, complete_stepsLeft, DecodePoint.stepsLeft, DecodePoint.stepsLeft]
      omega
  | reportsDryRun report reservation notClosed room =>
      rw [complete_stepsLeft, DecodePoint.stepsLeft, DecodePoint.stepsLeft]
      omega
  | decodes | decodesDry | decodeFails | cutOff | unheard | dryRunUnheard | leaves | aborts
  | abandons | releasesBytes | releasesPermit =>
      simp only [Shared.stepsLeft, Shared.dropUnit, Shared.fail, DecodePoint.stepsLeft,
        Config.sinkCommitSteps]
      omega
  | panics p message alive =>
      have own := DecodePoint.stepsLeft_pos cfg alive
      rw [dropHeld_stepsLeft, DecodePoint.stepsLeft]
      omega

/-- A worker that backs off has an attempt left. -/
def WriterPoint.Patient (cfg : Config) : WriterPoint R → Prop
  | .backingOff attempt _ => attempt < cfg.retries
  | _ => True

theorem stepWriter_falls {cfg : Config} {decodersGone : Bool} {sh sh' : Shared R}
    {p p' : WriterPoint R} {action : WriterAction} (patient : p.Patient cfg)
    (taken : stepWriter cfg decodersGone sh p action = some (p', sh')) :
    sh'.stepsLeft cfg + p'.stepsLeft cfg < sh.stepsLeft cfg + p.stepsLeft cfg := by
  cases writerStep_of_stepWriter taken with
  | takes unit rest queue =>
      simp only [Shared.stepsLeft, Shared.record, queue, List.length_cons, WriterPoint.stepsLeft,
        Config.sinkCommitSteps, Nat.mul_succ]
      omega
  | retries p action attempt unit error event answered left =>
      cases answered
      all_goals
        simp only [Shared.stepsLeft, Shared.record, WriterPoint.stepsLeft]
        omega
  | givesUp p action attempt unit error event answered spent =>
      cases answered
      all_goals
        simp only [Shared.stepsLeft, Shared.record, Shared.fail, WriterPoint.stepsLeft]
        omega
  | wakes attempt unit =>
      have left : attempt < cfg.retries := patient
      have bound : cfg.retries < 2 ^ 32 := cfg.options.effectiveRetryMaxAttempts.isLt
      simp only [Shared.stepsLeft, Shared.record, WriterPoint.stepsLeft, nextAttempt]
      omega
  | reports error reservation notClosed room =>
      rw [dropUnit_stepsLeft, complete_stepsLeft, WriterPoint.stepsLeft, WriterPoint.stepsLeft]
      omega
  | reportsCommit report reservation notClosed room =>
      rw [complete_stepsLeft, WriterPoint.stepsLeft, WriterPoint.stepsLeft]
      omega
  | abandons p unit message inRetry aborting =>
      cases inRetry
      all_goals
        simp only [Shared.stepsLeft, Shared.fail, WriterPoint.stepsLeft]
        omega
  | writes | writeFails | writeUnclear | finds | checkFails | unheard | commitUnheard | leaves
  | aborts | releasesBytes | releasesPermit =>
      simp only [Shared.stepsLeft, Shared.record, Shared.dropUnit, Shared.fail,
        WriterPoint.stepsLeft]
      omega
  | panics p message alive =>
      have own := WriterPoint.stepsLeft_pos cfg alive
      rw [dropHeld_stepsLeft, WriterPoint.stepsLeft]
      omega

theorem stepWriter_patient {cfg : Config} {decodersGone : Bool} {sh sh' : Shared R}
    {p p' : WriterPoint R} {action : WriterAction}
    (taken : stepWriter cfg decodersGone sh p action = some (p', sh')) : p'.Patient cfg := by
  cases writerStep_of_stepWriter taken with
  | retries p action attempt unit error event answered left => exact left
  | _ => trivial

/-! ## Actor steps -/

theorem exitActor_stepsLeft (cfg : Config) (a : Actor) {base : Shared R} {sh : Shared R}
    (result : RuntimeResult Unit) (kept : ChannelsKept sh base) :
    (exitActor a base result).2.stepsLeft cfg + 2 * sh.completions.length = sh.stepsLeft cfg := by
  simp only [exitActor, Shared.stepsLeft, kept.descriptors, kept.fetched, kept.sinkCommits,
    List.length_nil]
  omega

theorem cancelAdmission_stepsLeft (cfg : Config) (sh : Shared R) (permit : Bool) :
    (sh.cancelAdmission permit).stepsLeft cfg = sh.stepsLeft cfg := by
  rw [cancelAdmission_eq]
  rfl

/-- The completion arm takes a message from its queue and comes back to its `select!`,
perhaps over a flush. -/
theorem receiveCommitted_falls (cfg : Config) (a : Actor) {sh base : Shared R}
    (report : CommittedReport) {rest : List WriteCompletion} {permit : Bool}
    (queue : sh.completions = .committed report :: rest)
    (popped : base = { sh.cancelAdmission permit with completions := rest }) :
    (receiveCommitted cfg a base report).2.stepsLeft cfg +
        (receiveCommitted cfg a base report).1.point.stepsLeft < sh.stepsLeft cfg + 2 := by
  have shape := receiveCommitted_cases cfg a base report
  have before : base.stepsLeft cfg + 2 = sh.stepsLeft cfg := by
    rw [popped, cancelAdmission_eq]
    simp only [Shared.stepsLeft, queue, List.length_cons]
    omega
  generalize receiveCommitted cfg a base report = moved at shape ⊢
  obtain ⟨a', sh'⟩ := moved
  cases shape with
  | rejected c error =>
      simp only [Shared.stepsLeft, Shared.record, ActorPoint.stepsLeft, List.length_nil]
        at before ⊢
      omega
  | marked c marks acks =>
      cases acks
      all_goals
        simp only [Shared.stepsLeft, Shared.record, ActorPoint.stepsLeft, Actor.acked] at before ⊢
        omega

theorem stepActor_falls {cfg : Config} {shutdown fetchersGone decodersGone writersGone : Bool}
    {a a' : Actor} {sh sh' : Shared R} {action : ActorAction} (closed : a.admissionOpen = false)
    (idle : a.point.isAdmitting = false)
    (taken : stepActor cfg shutdown fetchersGone decodersGone writersGone a sh action =
      some (a', sh')) :
    sh'.stepsLeft cfg + a'.point.stepsLeft < sh.stepsLeft cfg + a.point.stepsLeft := by
  cases actorStep_of_stepActor taken with
  | aborts permit error at_select aborting busy text =>
      have ends := exitActor_stepsLeft cfg a (.error error) (.cancelAdmission sh permit)
      rw [at_select]
      simp only [ActorPoint.stepsLeft, exitActor] at ends ⊢
      omega
  | receives permit report rest at_select queue busy =>
      rw [at_select]
      exact receiveCommitted_falls cfg a report queue rfl
  | receivesFatal permit error rest at_select queue busy =>
      rw [at_select, cancelAdmission_eq]
      simp only [Shared.stepsLeft, ActorPoint.stepsLeft, exitActor, queue, List.length_cons,
        List.length_nil]
      omega
  | workersGone permit error at_select queue busy gone text =>
      have ends := exitActor_stepsLeft cfg a (.error error) (.cancelAdmission sh permit)
      rw [at_select]
      simp only [ActorPoint.stepsLeft, exitActor] at ends ⊢
      omega
  | wakes at_sleeping =>
      rw [at_sleeping]
      exact Nat.lt_succ_self _
  | flushed sequence frontier at_flushing =>
      rw [at_flushing]
      exact Nat.lt_succ_self _
  | flushFails sequence error at_flushing =>
      have awaits : 0 < a.point.stepsLeft := by
        rcases at_flushing with ⟨frontier, at_flushing⟩ | at_flushing
        all_goals
          rw [at_flushing]
          exact Nat.succ_pos _
      have ends := exitActor_stepsLeft cfg a (.error (.source error)) (.refl (sh.record
        (.consumerAckReturned sequence (.error error))))
      change _ = sh.stepsLeft cfg at ends
      change _ + 0 < _
      omega
  | flushedLast sequence at_flushing =>
      rw [at_flushing]
      simp only [leaveCleanly, Shared.stepsLeft, Shared.record, exitActor, ActorPoint.stepsLeft,
        List.length_nil]
      omega
  | finishes permit sequence at_select closed drained live pending =>
      have kept := cancelAdmission_stepsLeft cfg sh permit
      rw [at_select]
      simp only [Shared.stepsLeft, Shared.record, ActorPoint.stepsLeft] at kept ⊢
      omega
  | leaves permit at_select closed drained settled =>
      have ends := exitActor_stepsLeft cfg a.publish (.ok ()) (.cancelAdmission sh permit)
      rw [at_select]
      simp only [ActorPoint.stepsLeft, leaveCleanly, exitActor] at ends ⊢
      omega
  | closes permit at_select asked isOpen =>
      rw [closed] at isOpen
      cases isOpen
  | acquires at_select isOpen available =>
      rw [closed] at isOpen
      cases isOpen
  | claims gate k at_select isOpen fits claimed =>
      rw [closed] at isOpen
      cases isOpen
  -- the other steps are those of the admission arm
  | measures _ _ at_point | counts _ _ at_point | enough _ at_point | takesPermit _ _ at_point
  | noPermit _ _ at_point | takesBytes _ _ _ _ _ at_point | noBytes _ _ _ at_point
  | pollFails _ _ _ at_point | admits _ _ _ at_point | sentAll at_point
  | sendFails _ _ _ at_point | sends _ _ at_point =>
      rw [at_point] at idle
      cases idle

/-! ## Steps of the pipeline -/

theorem patient_of_reachable [TypedRecords R] {cfg : Config} {s : State R}
    (reachable : (machine R cfg).Reachable s) : ∀ p ∈ s.writers, p.Patient cfg := by
  refine reachable.invariant (P := fun s => ∀ p ∈ s.writers, p.Patient cfg) ?_
    fun s action s' _ patient taken => ?_
  · intro p member
    rw [List.eq_of_mem_replicate member]
    trivial
  · cases transition_of_step taken with
    | writer present moved =>
        intro p member
        rcases List.mem_or_eq_of_mem_set member with before | new
        · exact patient p before
        · rw [new]
          exact stepWriter_patient moved
    | _ => exact patient

/-- A state from which no unit enters the pipeline any more. -/
structure Closing [TypedRecords R] (cfg : Config) (s : State R) : Prop where
  reachable : (machine R cfg).Reachable s
  closed : s.shared.descriptorClosed = true

namespace Closing

variable [TypedRecords R] {cfg : Config} {s s' : State R} {action : Action R}

theorem step (closing : Closing cfg s) (taken : Pipeline.step cfg s action = some s') :
    Closing cfg s' := by
  refine ⟨.step action closing.reachable taken, ?_⟩
  cases transition_of_step taken with
  | actor moved => exact (stepActor_flow moved).closed_mono closing.closed
  | fetch present moved => exact (stepFetch_flow moved).flags.descriptorClosed.trans closing.closed
  | decode present moved =>
      exact (stepDecode_flow moved).flags.descriptorClosed.trans closing.closed
  | writer present moved =>
      exact (stepWriter_flow moved).flags.descriptorClosed.trans closing.closed
  | _ => exact closing.closed

/-- The actor has left its admission arm for good. -/
theorem admissionOpen (closing : Closing cfg s) (running : s.actor.point.hasExited = false) :
    s.actor.admissionOpen = false := by
  have linked := (orderly_of_reachable closing.reachable).descriptorClosed running
  rw [closing.closed] at linked
  simpa using linked.symm

theorem notAdmitting (closing : Closing cfg s) (running : s.actor.point.hasExited = false) :
    s.actor.point.isAdmitting = false := by
  by_contra admits
  have isOpen := (orderly_of_reachable closing.reachable).admitting (by simpa using admits)
  rw [closing.admissionOpen running] at isOpen
  cases isOpen

theorem lowers (closing : Closing cfg s) (taken : Pipeline.step cfg s action = some s')
    (acts : action.isSignal = false) : s'.stepsLeft cfg < s.stepsLeft cfg := by
  cases transition_of_step taken with
  | actor moved =>
      have running := (stepActor_flow moved).alive
      have falls := stepActor_falls (closing.admissionOpen running) (closing.notAdmitting running)
        moved
      simp only [State.stepsLeft]
      omega
  | @fetch i _ p p' _ present moved =>
      have falls := stepFetch_falls moved
      have weights := total_set (FetchPoint.stepsLeft cfg) s.fetchers i p p' present
      simp only [State.stepsLeft]
      omega
  | @decode i _ p p' _ present moved =>
      have falls := stepDecode_falls moved
      have weights := total_set (DecodePoint.stepsLeft cfg) s.decoders i p p' present
      simp only [State.stepsLeft]
      omega
  | @writer i _ p p' _ present moved =>
      have patient := patient_of_reachable closing.reachable _ (List.mem_of_getElem? present)
      have falls := stepWriter_falls patient moved
      have weights := total_set (WriterPoint.stepsLeft cfg) s.writers i p p' present
      simp only [State.stepsLeft]
      omega
  | shutsDown | kills | hardAborts => cases acts
  | discardsDescriptor queue =>
      simp only [State.stepsLeft, Shared.stepsLeft, Shared.dropUnit, queue, List.length_cons,
        Config.descriptorSteps, Nat.mul_succ]
      omega
  | discardsFetched queue =>
      simp only [State.stepsLeft, Shared.stepsLeft, Shared.dropUnit, queue, List.length_cons,
        Config.fetchedSteps, Nat.mul_succ]
      omega
  | discardsSinkCommit queue =>
      simp only [State.stepsLeft, Shared.stepsLeft, Shared.dropUnit, queue, List.length_cons,
        Config.sinkCommitSteps, Nat.mul_succ]
      omega
  | joins exited unjoined gone =>
      simp only [State.stepsLeft, unjoined, Option.isNone_none, Option.isNone_some, Bool.toNat_true,
        Bool.toNat_false]
      omega

theorem rests (taken : Pipeline.step cfg s action = some s') (signal : action.isSignal = true) :
    s'.stepsLeft cfg ≤ s.stepsLeft cfg := by
  cases transition_of_step taken with
  | shutsDown | kills | hardAborts => exact Nat.le_refl _
  | _ => cases signal

end Closing

theorem closing_exhausts [TypedRecords R] (cfg : Config) :
    (machine R cfg).Exhausts (Closing cfg) (State.stepsLeft cfg) Action.isSignal where
  kept _ _ _ closing taken := closing.step taken
  lowers _ _ _ closing taken acts := closing.lowers taken acts
  rests _ _ _ _ taken signal := Closing.rests taken signal

/-! ## Some task is able to move -/

section Moves

variable [TypedRecords R] {cfg : Config} {s : State R}

theorem fatal_fetcher_advances {p : FetchPoint} (member : p ∈ s.fetchers)
    (fatal : p.isFatal = true)
    (heard : s.shared.completionClosed = true ∨ s.shared.completions.length < cfg.depth) :
    s.Advances cfg := by
  cases p with
  | reportingFatal error reservation =>
      by_cases closed : s.shared.completionClosed = true
      · exact advances_of_fetcher member (.unheard error reservation closed) rfl
      · exact advances_of_fetcher member
          (.reports error reservation closed (heard.resolve_left closed)) rfl
  | _ => cases fatal

theorem fatal_decoder_advances {p : DecodePoint R} (member : p ∈ s.decoders)
    (fatal : p.isFatal = true)
    (heard : s.shared.completionClosed = true ∨ s.shared.completions.length < cfg.depth) :
    s.Advances cfg := by
  cases p with
  | reportingFatal error reservation =>
      by_cases closed : s.shared.completionClosed = true
      · exact advances_of_decoder member (.unheard error reservation closed) rfl
      · exact advances_of_decoder member
          (.reports error reservation closed (heard.resolve_left closed)) rfl
  | _ => cases fatal

theorem fatal_writer_advances {p : WriterPoint R} (member : p ∈ s.writers)
    (fatal : p.isFatal = true)
    (heard : s.shared.completionClosed = true ∨ s.shared.completions.length < cfg.depth) :
    s.Advances cfg := by
  cases p with
  | reportingFatal error reservation =>
      by_cases closed : s.shared.completionClosed = true
      · exact advances_of_writer member (.unheard error reservation closed) rfl
      · exact advances_of_writer member
          (.reports error reservation closed (heard.resolve_left closed)) rfl
  | _ => cases fatal

/-- The pools end one after the other: the fetchers since their channel is closed, and then
each pool since the one before it is gone. -/
theorem staff_advances (accounts : Accounts cfg s) (closed : s.shared.descriptorClosed = true)
    (heard : s.shared.completionClosed = true ∨ s.shared.completions.length < cfg.depth)
    (staffed : ¬ (s.fetchersGone = true ∧ s.decodersGone = true ∧ s.writersGone = true)) :
    s.Advances cfg := by
  by_cases fetchersGone : s.fetchersGone = true
  · by_cases decodersGone : s.decodersGone = true
    · have writersGone : ¬ s.writersGone = true := fun gone =>
        staffed ⟨fetchersGone, decodersGone, gone⟩
      obtain ⟨p, member, alive⟩ := exists_alive writersGone
      cases fatal : p.isFatal with
      | true => exact fatal_writer_advances member fatal heard
      | false =>
          exact writer_advances member alive fatal (fun _ _ _ => heard)
            (Or.inr (Or.inl decodersGone))
    · obtain ⟨p, member, alive⟩ := exists_alive decodersGone
      cases fatal : p.isFatal with
      | true => exact fatal_decoder_advances member fatal heard
      | false =>
          exact decoder_advances accounts member alive fatal (fun _ _ _ => heard)
            (Or.inr (Or.inl fetchersGone))
  · obtain ⟨p, member, alive⟩ := exists_alive fetchersGone
    cases fatal : p.isFatal with
    | true => exact fatal_fetcher_advances member fatal heard
    | false => exact fetcher_advances accounts member alive fatal (Or.inr (Or.inl closed))

namespace Closing

variable (closing : Closing cfg s)
include closing

/-- At its `select!` the actor ends, or reads a message, or waits for workers that are able
to move. -/
theorem advances_at_select {permit : Bool} (select : s.actor.point = .select permit) :
    s.Advances cfg := by
  have running : s.actor.point.hasExited = false := by rw [select]; rfl
  by_cases busy : 0 < s.actor.inFlight
  · cases queue : s.shared.completions with
    | nil =>
        by_cases gone : s.fetchersGone = true ∧ s.decodersGone = true ∧ s.writersGone = true
        · exact advances_of_actor (.workersGone permit _ select queue busy gone rfl)
        · have depth : 0 < cfg.depth := Nat.lt_of_lt_of_le Nat.one_pos (Nat.le_max_right _ _)
          refine staff_advances (accounts_of_reachable closing.reachable) closing.closed
            (Or.inr ?_) gone
          rw [queue]
          exact depth
    | cons message rest =>
        cases message with
        | committed report =>
            exact advances_of_actor (.receives permit report rest select queue busy)
        | fatal error =>
            exact advances_of_actor (.receivesFatal permit error rest select queue busy)
  · have drained : s.actor.inFlight = 0 := Nat.eq_zero_of_not_pos busy
    have isClosed := closing.admissionOpen running
    by_cases settled : cfg.dryRun = false → s.actor.source.pendingDurableAck = none
    · exact advances_of_actor (.leaves permit select isClosed drained settled)
    · rw [Classical.not_imp] at settled
      obtain ⟨sequence, pending⟩ := Option.ne_none_iff_exists'.mp settled.2
      exact advances_of_actor
        (.finishes permit sequence select isClosed drained settled.1 pending)

theorem advances (notJoined : s.result = none) : s.Advances cfg := by
  have orderly := orderly_of_reachable closing.reachable
  cases point : s.actor.point with
  | select permit => exact closing.advances_at_select point
  | sleeping => exact advances_of_actor (.wakes point)
  | flushing sequence frontier => exact advances_of_actor (.flushed sequence frontier point)
  | finalFlush sequence => exact advances_of_actor (.flushedLast sequence point)
  | exited result =>
      by_cases gone : s.fetchersGone = true ∧ s.decodersGone = true ∧ s.writersGone = true
      · exact ⟨.join, _, rfl, Transition.taken (.joins point notJoined gone)⟩
      · refine staff_advances (accounts_of_reachable closing.reachable) closing.closed
          (Or.inl ?_) gone
        rw [orderly.closed, point]
        rfl
  | _ =>
      have admits := closing.notAdmitting (by rw [point]; rfl)
      rw [point] at admits
      cases admits

end Closing

end Moves

/-! ## How many steps are left -/

theorem complete_bounded {cfg : Config} {sh : Shared R} (message : WriteCompletion)
    (room : sh.completions.length < cfg.depth) :
    (sh.complete message).completions.length ≤ cfg.depth := by
  rw [Shared.complete, List.length_append]
  exact room

theorem stepFetch_completions {cfg : Config} {killed decodersGone : Bool} {sh sh' : Shared R}
    {p p' : FetchPoint} {action : FetchAction} (bounded : sh.completions.length ≤ cfg.depth)
    (taken : stepFetch cfg killed decodersGone sh p action = some (p', sh')) :
    sh'.completions.length ≤ cfg.depth := by
  cases fetchStep_of_stepFetch taken with
  | reports error reservation notClosed room =>
      exact complete_bounded (.fatal error) room
  | panics p message alive =>
      obtain ⟨k, free, dropped⟩ := dropHeld_eq sh.fail p.reservation?
      rw [dropped]
      exact bounded
  | _ => exact bounded

theorem stepDecode_completions [TypedRecords R] {cfg : Config} {fetchersGone writersGone : Bool}
    {sh sh' : Shared R} {p p' : DecodePoint R} {action : DecodeAction R}
    (bounded : sh.completions.length ≤ cfg.depth)
    (taken : stepDecode cfg fetchersGone writersGone sh p action = some (p', sh')) :
    sh'.completions.length ≤ cfg.depth := by
  cases decodeStep_of_stepDecode taken with
  | reports error reservation notClosed room =>
      exact complete_bounded (.fatal error) room
  | reportsDryRun report reservation notClosed room =>
      exact complete_bounded (.committed report) room
  | panics p message alive =>
      obtain ⟨k, free, dropped⟩ := dropHeld_eq sh.fail p.reservation?
      rw [dropped]
      exact bounded
  | _ => exact bounded

theorem stepWriter_completions {cfg : Config} {decodersGone : Bool} {sh sh' : Shared R}
    {p p' : WriterPoint R} {action : WriterAction} (bounded : sh.completions.length ≤ cfg.depth)
    (taken : stepWriter cfg decodersGone sh p action = some (p', sh')) :
    sh'.completions.length ≤ cfg.depth := by
  cases writerStep_of_stepWriter taken with
  | reports error reservation notClosed room =>
      exact complete_bounded (.fatal error) room
  | reportsCommit report reservation notClosed room =>
      exact complete_bounded (.committed report) room
  | panics p message alive =>
      obtain ⟨k, free, dropped⟩ := dropHeld_eq sh.fail p.reservation?
      rw [dropped]
      exact bounded
  | _ => exact bounded

/-- The actor only takes messages out of its queue. -/
theorem stepActor_completions {cfg : Config}
    {shutdown fetchersGone decodersGone writersGone : Bool} {a a' : Actor} {sh sh' : Shared R}
    {action : ActorAction}
    (taken : stepActor cfg shutdown fetchersGone decodersGone writersGone a sh action =
      some (a', sh')) :
    sh'.completions.length ≤ sh.completions.length := by
  cases actorStep_of_stepActor taken with
  | closes permit =>
      rw [cancelAdmission_eq]
  | receives permit report rest at_select queue busy =>
      have shape := receiveCommitted_cases cfg a
        { sh.cancelAdmission permit with completions := rest } report
      generalize receiveCommitted cfg a { sh.cancelAdmission permit with completions := rest }
        report = moved at shape ⊢
      obtain ⟨a', sh'⟩ := moved
      rw [queue]
      cases shape with
      | rejected c error => exact Nat.zero_le _
      | marked c marks acks =>
          cases acks
          all_goals exact Nat.le_succ _
  | finishes permit =>
      rw [cancelAdmission_eq]
      exact Nat.le_refl _
  | admits answer gates descriptors =>
      cases descriptors with
      | nil =>
          simp only [admission, dropGates_eq]
          exact Nat.le_refl _
      | cons first rest =>
          simp only [admission, dropGates_eq, recordRegistered_eq]
          split
          · exact Nat.zero_le _
          · exact Nat.le_refl _
  | _ => first | exact Nat.zero_le _ | exact Nat.le_refl _

/-- The pools keep their sizes, and the completion channel its bound. -/
structure Staff (cfg : Config) (s : State R) : Prop where
  fetchers : s.fetchers.length = max cfg.bp.fetchConcurrency.val 1
  decoders : s.decoders.length = max cfg.bp.decodeConcurrency.val 1
  writers : s.writers.length = max cfg.options.sink.maxConcurrentCommits.val 1
  completions : s.shared.completions.length ≤ cfg.depth

theorem staff_of_reachable [TypedRecords R] {cfg : Config} {s : State R}
    (reachable : (machine R cfg).Reachable s) : Staff cfg s := by
  refine reachable.invariant (P := Staff cfg) ?_ fun s action s' _ staff taken => ?_
  · exact ⟨List.length_replicate, List.length_replicate, List.length_replicate, Nat.zero_le _⟩
  · obtain ⟨fetchers, decoders, writers, completions⟩ := staff
    cases transition_of_step taken with
    | actor moved =>
        exact ⟨fetchers, decoders, writers, (stepActor_completions moved).trans completions⟩
    | fetch present moved =>
        exact ⟨List.length_set.trans fetchers, decoders, writers,
          stepFetch_completions completions moved⟩
    | decode present moved =>
        exact ⟨fetchers, List.length_set.trans decoders, writers,
          stepDecode_completions completions moved⟩
    | writer present moved =>
        exact ⟨fetchers, decoders, List.length_set.trans writers,
          stepWriter_completions completions moved⟩
    | _ => exact ⟨fetchers, decoders, writers, completions⟩

/-- The steps of a shutdown, by the configuration alone: each batch slot for the longest way
of a unit, one for each worker's exit, two for each report, and the actor's own. -/
def Config.shutdownSteps (cfg : Config) : Nat :=
  (cfg.descriptorSteps + 2) * cfg.depth + max cfg.bp.fetchConcurrency.val 1 +
    max cfg.bp.decodeConcurrency.val 1 + max cfg.options.sink.maxConcurrentCommits.val 1 + 4

theorem FetchPoint.stepsLeft_le (cfg : Config) (p : FetchPoint) :
    p.stepsLeft cfg ≤ cfg.descriptorSteps * total Holding.permits p.holdings + 1 := by
  cases p with
  | recv | exited =>
      simp [FetchPoint.stepsLeft]
  | _ =>
      simp only [FetchPoint.stepsLeft, FetchPoint.holdings, AdmittedDescriptor.holding,
        FetchedBatch.holding, spentHolding, total_cons, total_nil, Config.descriptorSteps,
        Config.fetchedSteps, Config.sinkCommitSteps]
      omega

theorem DecodePoint.stepsLeft_le (cfg : Config) (p : DecodePoint R) :
    p.stepsLeft cfg ≤ cfg.descriptorSteps * total Holding.permits p.holdings + 1 := by
  cases p with
  | recv | exited =>
      simp [DecodePoint.stepsLeft]
  | _ =>
      simp only [DecodePoint.stepsLeft, DecodePoint.holdings, FetchedBatch.holding,
        SinkCommitEnvelope.holding, reportingHolding, permitHolding, spentHolding, total_cons,
        total_nil, Config.descriptorSteps, Config.fetchedSteps, Config.sinkCommitSteps]
      omega

theorem WriterPoint.stepsLeft_le (cfg : Config) (p : WriterPoint R) :
    p.stepsLeft cfg ≤ cfg.descriptorSteps * total Holding.permits p.holdings + 1 := by
  cases p with
  | recv | exited =>
      simp [WriterPoint.stepsLeft]
  | _ =>
      simp only [WriterPoint.stepsLeft, WriterPoint.holdings, SinkCommitEnvelope.holding,
        reportingHolding, permitHolding, spentHolding, total_cons, total_nil,
        Config.descriptorSteps, Config.fetchedSteps, Config.sinkCommitSteps]
      omega

theorem ActorPoint.stepsLeft_le (p : ActorPoint) : p.stepsLeft ≤ 3 := by
  cases p with
  | _ => simp [ActorPoint.stepsLeft]

/-- Every unit holds a permit, so there are no more of them than batch slots. -/
theorem stepsLeft_le_shutdownSteps [TypedRecords R] {cfg : Config} {s : State R}
    (reachable : (machine R cfg).Reachable s) : s.stepsLeft cfg ≤ cfg.shutdownSteps := by
  have permits := (accounts_of_reachable reachable).permits
  have queued := queued_le_permits s
  obtain ⟨fetchers, decoders, writers, completions⟩ := staff_of_reachable reachable
  have fetching := total_le_scaled _ _ _ s.fetchers (FetchPoint.stepsLeft_le cfg)
  have decoding := total_le_scaled _ _ _ s.decoders (DecodePoint.stepsLeft_le cfg)
  have writing := total_le_scaled _ _ _ s.writers (WriterPoint.stepsLeft_le cfg)
  have actor := s.actor.point.stepsLeft_le
  have joining : s.result.isNone.toNat ≤ 1 := Bool.toNat_le _
  have fetched : cfg.fetchedSteps * s.shared.fetched.length ≤
      cfg.descriptorSteps * s.shared.fetched.length :=
    Nat.mul_le_mul_right _ (Nat.le_add_right _ _)
  have sinkCommits : cfg.sinkCommitSteps * s.shared.sinkCommits.length ≤
      cfg.descriptorSteps * s.shared.sinkCommits.length :=
    Nat.mul_le_mul_right _ ((Nat.le_add_right _ _).trans (Nat.le_add_right _ _))
  have units := Nat.mul_le_mul_left cfg.descriptorSteps (queued.trans (Nat.le.intro
    ((Nat.add_comm _ _).trans permits)))
  simp only [Nat.mul_add] at units
  simp only [State.stepsLeft, Shared.stepsLeft, Config.shutdownSteps, Nat.add_mul]
  omega

/-- Once the actor has stopped admitting, or has returned, the run is in its shutdown: it has
no more than `shutdownSteps` steps, whatever fails and in whatever order the tasks move, and
until `Runtime::run` has returned some task is able to take one. -/
theorem shutdown_terminates [TypedRecords R] (cfg : Config) (s : State R)
    (reachable : (machine R cfg).Reachable s)
    (closing : s.actor.admissionOpen = false ∨ s.actor.point.hasExited = true)
    (actions : List (Action R)) (s' : State R)
    (ran : (machine R cfg).runFrom s actions = some s') :
    (actions.countP fun action => !action.isSignal) ≤ cfg.shutdownSteps ∧
      (s'.result = none → s'.Advances cfg) := by
  have orderly := orderly_of_reachable reachable
  have closed : s.shared.descriptorClosed = true := by
    cases exited : s.actor.point.hasExited with
    | true => exact orderly.exitClosed exited
    | false =>
        rw [orderly.descriptorClosed exited, closing.resolve_right (by simp [exited])]
        rfl
  obtain ⟨closing', bound⟩ := (closing_exhausts cfg).run actions ⟨reachable, closed⟩ ran
  refine ⟨?_, closing'.advances⟩
  have most := stepsLeft_le_shutdownSteps reachable
  omega

/-- Shutdown with one batch at its fetch worker, whose fetch then fails. -/
theorem shutdown_terminates_in_flight : ∃ s s' : State SizedRecords,
    (machine SizedRecords narrowConfig).Reachable s ∧ s.actor.admissionOpen = false ∧
      (machine SizedRecords narrowConfig).runFrom s fetchFailsRun = some s' ∧
      s'.actor.inFlight = 1 ∧ 2 ≤ narrowConfig.shutdownSteps ∧ s'.Advances narrowConfig := by
  have closes : ((machine SizedRecords narrowConfig).run
      (firstPollRun ++ [.cancelShutdownToken, .actor .observeShutdown])).map (fun s =>
        (s.actor.admissionOpen, ((machine SizedRecords narrowConfig).runFrom s
          fetchFailsRun).map fun s' => (s'.actor.inFlight, s'.result.isNone))) =
      some (false, some (1, true)) := by
    decide
  obtain ⟨s, ran, values⟩ := Option.map_eq_some_iff.mp closes
  obtain ⟨closed, later⟩ := Prod.mk.inj values
  obtain ⟨s', goesOn, values'⟩ := Option.map_eq_some_iff.mp later
  obtain ⟨inFlight, unjoined⟩ := Prod.mk.inj values'
  have reachable := (machine SizedRecords narrowConfig).run_reachable _ s ran
  obtain ⟨bound, advances⟩ := shutdown_terminates narrowConfig s reachable (Or.inl closed)
    fetchFailsRun s' goesOn
  exact ⟨s, s', reachable, closed, goesOn, inFlight, bound,
    advances (Option.isNone_iff_eq_none.mp unjoined)⟩

end OpendataIngest.Runtime.Pipeline
