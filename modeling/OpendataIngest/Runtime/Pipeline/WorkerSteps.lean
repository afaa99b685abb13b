import OpendataIngest.Runtime.Pipeline.Workers

/-!
# What a worker can do

The steps of the three pools, one constructor for each way through a worker's code, with
the tests that lead there.  What holds of every step of a worker is shown by cases on these.
-/

set_option autoImplicit false

namespace OpendataIngest.Runtime.Pipeline

open MachineInt

variable {R : Type}

/-- Dropping what a worker holds touches the budget and the permits only. -/
theorem dropHeld_eq (sh : Shared R) (reservation? : Option Reservation) :
    ∃ k free, dropHeld sh reservation? = { sh with counters := k, freePermits := free } := by
  cases reservation? with
  | none => exact ⟨sh.counters, sh.freePermits, rfl⟩
  | some reservation => exact ⟨_, _, rfl⟩

/-! ## Fetch workers -/

section

variable (cfg : Config) (killed decodersGone : Bool) (sh : Shared R)

inductive FetchStep : FetchPoint → FetchAction → FetchPoint → Shared R → Prop where
  | takes (unit : AdmittedDescriptor) (rest : List AdmittedDescriptor)
      (queue : sh.descriptors = unit :: rest) :
      FetchStep .recv .take
        (.fetching { unit with
          reservation := (unit.reservation.attachStage .fetch sh.counters).1 })
        { sh with
          descriptors := rest
          counters := (unit.reservation.attachStage .fetch sh.counters).2 }
  | fetches (unit : AdmittedDescriptor) (fetched : Except BoxError ConsumedBatch)
      (batch : SourceBatch)
      (read : BufferSource.fetch cfg.source cfg.manifestPath fetched = .ok batch) :
      FetchStep (.fetching unit) (.answer fetched)
        (.sending ⟨batch, unit.reservation, unit.descriptor.sequence⟩) sh
  | fetchFails (unit : AdmittedDescriptor) (fetched : Except BoxError ConsumedBatch)
      (error : RuntimeError)
      (failed : BufferSource.fetch cfg.source cfg.manifestPath fetched = .error error) :
      FetchStep (.fetching unit) (.answer fetched)
        (.reportingFatal error unit.reservation) sh.fail
  | cutOff (unit : FetchedBatch) (gone : decodersGone = true) :
      FetchStep (.sending unit) .send
        (.reportingFatal (.pipeline (s!"fetched-batch lost: source={cfg.source} " ++
          s!"seq={unit.admittedSequence.val} cause=decode-stage-closed")) unit.reservation)
        sh.fail
  | sends (unit : FetchedBatch) (notGone : ¬ decodersGone = true)
      (room : sh.fetched.length < cfg.depth) :
      FetchStep (.sending unit) .send .recv
        { sh with fetched := sh.fetched ++ [unit] }
  | unheard (error : RuntimeError) (reservation : Reservation)
      (closed : sh.completionClosed = true) :
      FetchStep (.reportingFatal error reservation) .report
        (.exited (.ok ())) (sh.dropUnit reservation)
  | reports (error : RuntimeError) (reservation : Reservation)
      (notClosed : ¬ sh.completionClosed = true) (room : sh.completions.length < cfg.depth) :
      FetchStep (.reportingFatal error reservation) .report
        (.exited (.ok ())) ((sh.complete (.fatal error)).dropUnit reservation)
  | leaves (queue : sh.descriptors = []) (closed : sh.descriptorClosed = true) :
      FetchStep .recv .leave (.exited (.ok ())) sh
  | aborts (aborting : sh.hardAbort = true) :
      FetchStep .recv .abort (.exited (.ok ())) sh
  | abandons (unit : AdmittedDescriptor) (aborting : sh.hardAbort = true) :
      FetchStep (.fetching unit) .abort (.exited (.ok ()))
        (sh.dropUnit unit.reservation)
  | isKilled (killing : killed = true) :
      FetchStep .recv .kill (.exited (.ok ())) sh.fail
  | panics (p : FetchPoint) (message : String) (alive : p.hasExited = false) :
      FetchStep p (.panic message)
        (.exited (.error (.pipeline s!"fetch worker panicked: {message}")))
        (dropHeld sh.fail p.reservation?)

end

theorem fetchStep_of_stepFetch {cfg : Config} {killed decodersGone : Bool} {sh sh' : Shared R}
    {p p' : FetchPoint} {action : FetchAction}
    (taken : stepFetch cfg killed decodersGone sh p action = some (p', sh')) :
    FetchStep cfg killed decodersGone sh p action p' sh' := by
  cases action with
  | take =>
      simp only [stepFetch] at taken
      split at taken
      case h_1 unit rest queue =>
        cases taken
        exact .takes unit rest queue
      case h_2 => cases taken
  | answer fetched =>
      simp only [stepFetch] at taken
      split at taken
      case h_1 unit =>
        split at taken
        case h_1 batch read =>
          cases taken
          exact .fetches unit fetched batch read
        case h_2 error failed =>
          cases taken
          exact .fetchFails unit fetched error failed
      case h_2 => cases taken
  | send =>
      simp only [stepFetch] at taken
      split at taken
      case h_1 unit =>
        split_ifs at taken with gone room
        · cases taken
          exact .cutOff unit gone
        · cases taken
          exact .sends unit gone room
      case h_2 => cases taken
  | report =>
      simp only [stepFetch] at taken
      split at taken
      case h_1 error reservation =>
        split_ifs at taken with closed room
        · cases taken
          exact .unheard error reservation closed
        · cases taken
          exact .reports error reservation closed room
      case h_2 => cases taken
  | leave =>
      simp only [stepFetch] at taken
      split at taken
      case h_1 queue =>
        split_ifs at taken with closed
        cases taken
        exact .leaves queue closed
      case h_2 => cases taken
  | abort =>
      simp only [stepFetch] at taken
      split at taken
      case h_1 =>
        split_ifs at taken with aborting
        cases taken
        exact .aborts aborting
      case h_2 unit =>
        split_ifs at taken with aborting
        cases taken
        exact .abandons unit aborting
      case h_3 => cases taken
  | kill =>
      simp only [stepFetch] at taken
      split at taken
      case h_1 =>
        split_ifs at taken with killing
        cases taken
        exact .isKilled killing
      case h_2 => cases taken
  | panic message =>
      simp only [stepFetch] at taken
      split_ifs at taken with ended
      cases taken
      exact .panics p message (by simpa using ended)

theorem FetchStep.taken {cfg : Config} {killed decodersGone : Bool} {sh sh' : Shared R}
    {p p' : FetchPoint} {action : FetchAction}
    (step : FetchStep cfg killed decodersGone sh p action p' sh') :
    stepFetch cfg killed decodersGone sh p action = some (p', sh') := by
  cases step with
  | takes unit rest queue => simp only [stepFetch, queue]
  | fetches unit fetched batch read => simp only [stepFetch, read]
  | fetchFails unit fetched error failed => simp only [stepFetch, failed]
  | cutOff unit gone => exact if_pos gone
  | sends unit notGone room => exact (if_neg notGone).trans (if_pos room)
  | unheard error reservation closed => exact if_pos closed
  | reports error reservation notClosed room => exact (if_neg notClosed).trans (if_pos room)
  | leaves queue closed => simp only [stepFetch, queue, if_pos closed]
  | aborts aborting => exact if_pos aborting
  | abandons unit aborting => exact if_pos aborting
  | isKilled killing => exact if_pos killing
  | panics p message alive => simp only [stepFetch, alive, Bool.false_eq_true, if_false]

/-! ## Decode workers -/

section

variable [TypedRecords R] (cfg : Config) (fetchersGone writersGone : Bool) (sh : Shared R)

inductive DecodeStep : DecodePoint R → DecodeAction R → DecodePoint R → Shared R → Prop where
  | takes (unit : FetchedBatch) (rest : List FetchedBatch) (queue : sh.fetched = unit :: rest) :
      DecodeStep .recv .take
        (.decoding { unit with
          reservation := (unit.reservation.attachStage .decode sh.counters).1 })
        { sh with
          fetched := rest
          counters := (unit.reservation.attachStage .decode sh.counters).2 }
  | decodes (unit : FetchedBatch) (decoder : Decoder R) (commit : SinkCommit R)
      (range : U64 × U64) (reservation : Reservation) (k : Counters Stage)
      (decoded : decodeOne cfg decoder unit sh.counters =
        (.ok (.live commit range), reservation, k)) :
      DecodeStep (.decoding unit) (.decode decoder)
        (.sending ⟨commit, range, reservation⟩) { sh with counters := k }
  | decodesDry (unit : FetchedBatch) (decoder : Decoder R) (range : U64 × U64)
      (rowsWritten : Nat) (reservation : Reservation) (k : Counters Stage)
      (decoded : decodeOne cfg decoder unit sh.counters =
        (.ok (.dryRun range rowsWritten), reservation, k)) :
      DecodeStep (.decoding unit) (.decode decoder)
        (.reportingDryRun ⟨range, rowsWritten⟩ reservation) { sh with counters := k }
  | decodeFails (unit : FetchedBatch) (decoder : Decoder R) (error : RuntimeError)
      (reservation : Reservation) (k : Counters Stage)
      (failed : decodeOne cfg decoder unit sh.counters = (.error error, reservation, k)) :
      DecodeStep (.decoding unit) (.decode decoder)
        (.reportingFatal error reservation) { sh with counters := k }.fail
  | cutOff (unit : SinkCommitEnvelope R) (gone : writersGone = true) :
      DecodeStep (.sending unit) .send
        (.reportingFatal (.pipeline (s!"sink-commit lost: source={cfg.source} " ++
          s!"seq={unit.range.1.val} cause=sink-stage-closed")) unit.reservation) sh.fail
  | sends (unit : SinkCommitEnvelope R) (notGone : ¬ writersGone = true)
      (room : sh.sinkCommits.length < cfg.depth) :
      DecodeStep (.sending unit) .send .recv
        { sh with sinkCommits := sh.sinkCommits ++ [unit] }
  | dryRunUnheard (report : CommittedReport) (reservation : Reservation)
      (closed : sh.completionClosed = true) :
      DecodeStep (.reportingDryRun report reservation) .report
        (.exited (.ok ())) (sh.dropUnit reservation)
  | reportsDryRun (report : CommittedReport) (reservation : Reservation)
      (notClosed : ¬ sh.completionClosed = true) (room : sh.completions.length < cfg.depth) :
      DecodeStep (.reportingDryRun report reservation) .report
        (.releasingBytes reservation) (sh.complete (.committed report))
  | unheard (error : RuntimeError) (reservation : Reservation)
      (closed : sh.completionClosed = true) :
      DecodeStep (.reportingFatal error reservation) .report
        (.exited (.ok ())) (sh.dropUnit reservation)
  | reports (error : RuntimeError) (reservation : Reservation)
      (notClosed : ¬ sh.completionClosed = true) (room : sh.completions.length < cfg.depth) :
      DecodeStep (.reportingFatal error reservation) .report
        (.exited (.ok ())) ((sh.complete (.fatal error)).dropUnit reservation)
  | releasesBytes (reservation : Reservation) :
      DecodeStep (.releasingBytes reservation) .releaseBytes
        .releasingPermit { sh with counters := reservation.release sh.counters }
  | releasesPermit :
      DecodeStep .releasingPermit .releasePermit .recv
        { sh with freePermits := sh.freePermits + 1 }
  | leaves (queue : sh.fetched = []) (gone : fetchersGone = true) :
      DecodeStep .recv .leave (.exited (.ok ())) sh
  | aborts (aborting : sh.hardAbort = true) :
      DecodeStep .recv .abort (.exited (.ok ())) sh
  | abandons (unit : FetchedBatch) (aborting : sh.hardAbort = true) :
      DecodeStep (.decoding unit) .abort (.exited (.ok ()))
        (sh.dropUnit unit.reservation)
  | panics (p : DecodePoint R) (message : String) (alive : p.hasExited = false) :
      DecodeStep p (.panic message)
        (.exited (.error (.pipeline s!"decode worker panicked: {message}")))
        (dropHeld sh.fail p.reservation?)

end

theorem decodeStep_of_stepDecode [TypedRecords R] {cfg : Config} {fetchersGone writersGone : Bool}
    {sh sh' : Shared R} {p p' : DecodePoint R} {action : DecodeAction R}
    (taken : stepDecode cfg fetchersGone writersGone sh p action = some (p', sh')) :
    DecodeStep cfg fetchersGone writersGone sh p action p' sh' := by
  cases action with
  | take =>
      simp only [stepDecode] at taken
      split at taken
      case h_1 unit rest queue =>
        cases taken
        exact .takes unit rest queue
      case h_2 => cases taken
  | decode decoder =>
      simp only [stepDecode] at taken
      split at taken
      case h_1 unit =>
        split at taken
        case h_1 commit range reservation k decoded =>
          cases taken
          exact .decodes unit decoder commit range reservation k decoded
        case h_2 range rowsWritten reservation k decoded =>
          cases taken
          exact .decodesDry unit decoder range rowsWritten reservation k decoded
        case h_3 error reservation k failed =>
          cases taken
          exact .decodeFails unit decoder error reservation k failed
      case h_2 => cases taken
  | send =>
      simp only [stepDecode] at taken
      split at taken
      case h_1 unit =>
        split_ifs at taken with gone room
        · cases taken
          exact .cutOff unit gone
        · cases taken
          exact .sends unit gone room
      case h_2 => cases taken
  | report =>
      simp only [stepDecode] at taken
      split at taken
      case h_1 report reservation =>
        split_ifs at taken with closed room
        · cases taken
          exact .dryRunUnheard report reservation closed
        · cases taken
          exact .reportsDryRun report reservation closed room
      case h_2 error reservation =>
        split_ifs at taken with closed room
        · cases taken
          exact .unheard error reservation closed
        · cases taken
          exact .reports error reservation closed room
      case h_3 => cases taken
  | releaseBytes =>
      simp only [stepDecode] at taken
      split at taken
      case h_1 reservation =>
        cases taken
        exact .releasesBytes reservation
      case h_2 => cases taken
  | releasePermit =>
      simp only [stepDecode] at taken
      split at taken
      case h_1 =>
        cases taken
        exact .releasesPermit
      case h_2 => cases taken
  | leave =>
      simp only [stepDecode] at taken
      split at taken
      case h_1 queue =>
        split_ifs at taken with gone
        cases taken
        exact .leaves queue gone
      case h_2 => cases taken
  | abort =>
      simp only [stepDecode] at taken
      split at taken
      case h_1 =>
        split_ifs at taken with aborting
        cases taken
        exact .aborts aborting
      case h_2 unit =>
        split_ifs at taken with aborting
        cases taken
        exact .abandons unit aborting
      case h_3 => cases taken
  | panic message =>
      simp only [stepDecode] at taken
      split_ifs at taken with ended
      cases taken
      exact .panics p message (by simpa using ended)

theorem DecodeStep.taken [TypedRecords R] {cfg : Config} {fetchersGone writersGone : Bool}
    {sh sh' : Shared R} {p p' : DecodePoint R} {action : DecodeAction R}
    (step : DecodeStep cfg fetchersGone writersGone sh p action p' sh') :
    stepDecode cfg fetchersGone writersGone sh p action = some (p', sh') := by
  cases step with
  | takes unit rest queue => simp only [stepDecode, queue]
  | decodes unit decoder commit range reservation k decoded => simp only [stepDecode, decoded]
  | decodesDry unit decoder range rowsWritten reservation k decoded =>
      simp only [stepDecode, decoded]
  | decodeFails unit decoder error reservation k failed => simp only [stepDecode, failed]
  | cutOff unit gone => exact if_pos gone
  | sends unit notGone room => exact (if_neg notGone).trans (if_pos room)
  | dryRunUnheard report reservation closed => exact if_pos closed
  | reportsDryRun report reservation notClosed room => exact (if_neg notClosed).trans (if_pos room)
  | unheard error reservation closed => exact if_pos closed
  | reports error reservation notClosed room => exact (if_neg notClosed).trans (if_pos room)
  | releasesBytes | releasesPermit => rfl
  | leaves queue gone => simp only [stepDecode, queue, if_pos gone]
  | aborts aborting => exact if_pos aborting
  | abandons unit aborting => exact if_pos aborting
  | panics p message alive => simp only [stepDecode, alive, Bool.false_eq_true, if_false]

/-! ## Writer workers -/

/-- An answer that leaves the unit to be written again, with the error to give up with. -/
inductive NotCommitted : WriterPoint R → WriterAction → Nat → SinkCommitEnvelope R → BoxError →
    Event → Prop where
  | write (attempt : Nat) (unit : SinkCommitEnvelope R) (error : BoxError) :
      NotCommitted (.writing attempt unit) (.write (.error (.notCommitted error))) attempt unit
        error (.sinkWriteReturned unit.commit.identity (.error (.notCommitted error)))
  | check (attempt : Nat) (unit : SinkCommitEnvelope R) (error : BoxError) (status : CommitStatus)
      (undecided : status = .notCommitted ∨ status = .unknown) :
      NotCommitted (.checking attempt unit error) (.check (.ok status)) attempt unit error
        (.checkCommittedReturned unit.commit.identity (.ok status))

/-- Inside `write_with_retry`, with the text of an abort there. -/
inductive InWriteWithRetry : WriterPoint R → SinkCommitEnvelope R → String → Prop where
  | writing (attempt : Nat) (unit : SinkCommitEnvelope R) :
      InWriteWithRetry (.writing attempt unit) unit "hard abort during Sink::write"
  | checking (attempt : Nat) (unit : SinkCommitEnvelope R) (error : BoxError) :
      InWriteWithRetry (.checking attempt unit error) unit "hard abort during check_committed"
  | backingOff (attempt : Nat) (unit : SinkCommitEnvelope R) :
      InWriteWithRetry (.backingOff attempt unit) unit "hard abort during retry sleep"

theorem NotCommitted.alive {p : WriterPoint R} {action : WriterAction} {attempt : Nat}
    {unit : SinkCommitEnvelope R} {error : BoxError} {event : Event}
    (answered : NotCommitted p action attempt unit error event) : p.hasExited = false := by
  cases answered with
  | write => rfl
  | check => rfl

theorem InWriteWithRetry.alive {p : WriterPoint R} {unit : SinkCommitEnvelope R}
    {message : String} (inRetry : InWriteWithRetry p unit message) : p.hasExited = false := by
  cases inRetry with
  | writing => rfl
  | checking => rfl
  | backingOff => rfl

section

variable (cfg : Config) (decodersGone : Bool) (sh : Shared R)

inductive WriterStep : WriterPoint R → WriterAction → WriterPoint R → Shared R → Prop where
  | takes (unit : SinkCommitEnvelope R) (rest : List (SinkCommitEnvelope R))
      (queue : sh.sinkCommits = unit :: rest) :
      WriterStep .recv .take
        (.writing 0 { unit with
          reservation := (unit.reservation.attachStage .sinkDispatch sh.counters).1 })
        ({ sh with
          sinkCommits := rest
          counters := (unit.reservation.attachStage .sinkDispatch sh.counters).2 }.record
            (.sinkWriteCalled unit.commit.identity))
  | writes (attempt : Nat) (unit : SinkCommitEnvelope R) (result : SinkCommitResult) :
      WriterStep (.writing attempt unit) (.write (.ok result))
        (.reportingCommitted ⟨unit.range, result.rowsWritten⟩ unit.reservation)
        (sh.record (.sinkWriteReturned unit.commit.identity (.ok result)))
  | writeFails (attempt : Nat) (unit : SinkCommitEnvelope R) (error : BoxError) :
      WriterStep (.writing attempt unit) (.write (.error (.fatal error)))
        (.reportingFatal (.sink error) unit.reservation)
        (sh.record (.sinkWriteReturned unit.commit.identity (.error (.fatal error)))).fail
  | writeUnclear (attempt : Nat) (unit : SinkCommitEnvelope R) (error : BoxError) :
      WriterStep (.writing attempt unit)
        (.write (.error (.maybeCommitted error))) (.checking attempt unit error)
        (sh.record (.sinkWriteReturned unit.commit.identity (.error (.maybeCommitted error))))
  | finds (attempt : Nat) (unit : SinkCommitEnvelope R) (error : BoxError) :
      WriterStep (.checking attempt unit error) (.check (.ok .committed))
        (.reportingCommitted ⟨unit.range, 0⟩ unit.reservation)
        (sh.record (.checkCommittedReturned unit.commit.identity (.ok .committed)))
  | checkFails (attempt : Nat) (unit : SinkCommitEnvelope R) (error : BoxError)
      (failure : RuntimeError) :
      WriterStep (.checking attempt unit error) (.check (.error failure))
        (.reportingFatal failure unit.reservation)
        (sh.record (.checkCommittedReturned unit.commit.identity (.error failure))).fail
  | retries (p : WriterPoint R) (action : WriterAction) (attempt : Nat)
      (unit : SinkCommitEnvelope R) (error : BoxError) (event : Event)
      (answered : NotCommitted p action attempt unit error event)
      (left : attempt < cfg.options.effectiveRetryMaxAttempts.val) :
      WriterStep p action (.backingOff attempt unit) (sh.record event)
  | givesUp (p : WriterPoint R) (action : WriterAction) (attempt : Nat)
      (unit : SinkCommitEnvelope R) (error : BoxError) (event : Event)
      (answered : NotCommitted p action attempt unit error event)
      (spent : cfg.options.effectiveRetryMaxAttempts.val ≤ attempt) :
      WriterStep p action (.reportingFatal (.sink error) unit.reservation)
        (sh.record event).fail
  | wakes (attempt : Nat) (unit : SinkCommitEnvelope R) :
      WriterStep (.backingOff attempt unit) .wake
        (.writing (nextAttempt attempt) unit) (sh.record (.sinkWriteCalled unit.commit.identity))
  | commitUnheard (report : CommittedReport) (reservation : Reservation)
      (closed : sh.completionClosed = true) :
      WriterStep (.reportingCommitted report reservation) .report
        (.exited (.ok ())) (sh.dropUnit reservation)
  | reportsCommit (report : CommittedReport) (reservation : Reservation)
      (notClosed : ¬ sh.completionClosed = true) (room : sh.completions.length < cfg.depth) :
      WriterStep (.reportingCommitted report reservation) .report
        (.releasingBytes reservation) (sh.complete (.committed report))
  | unheard (error : RuntimeError) (reservation : Reservation)
      (closed : sh.completionClosed = true) :
      WriterStep (.reportingFatal error reservation) .report
        (.exited (.ok ())) (sh.dropUnit reservation)
  | reports (error : RuntimeError) (reservation : Reservation)
      (notClosed : ¬ sh.completionClosed = true) (room : sh.completions.length < cfg.depth) :
      WriterStep (.reportingFatal error reservation) .report
        (.exited (.ok ())) ((sh.complete (.fatal error)).dropUnit reservation)
  | releasesBytes (reservation : Reservation) :
      WriterStep (.releasingBytes reservation) .releaseBytes
        .releasingPermit { sh with counters := reservation.release sh.counters }
  | releasesPermit :
      WriterStep .releasingPermit .releasePermit .recv
        { sh with freePermits := sh.freePermits + 1 }
  | leaves (queue : sh.sinkCommits = []) (gone : decodersGone = true) :
      WriterStep .recv .leave (.exited (.ok ())) sh
  | aborts (aborting : sh.hardAbort = true) :
      WriterStep .recv .abort (.exited (.ok ())) sh
  | abandons (p : WriterPoint R) (unit : SinkCommitEnvelope R) (message : String)
      (inRetry : InWriteWithRetry p unit message) (aborting : sh.hardAbort = true) :
      WriterStep p .abort
        (.reportingFatal (.pipeline message) unit.reservation) sh.fail
  | panics (p : WriterPoint R) (message : String) (alive : p.hasExited = false) :
      WriterStep p (.panic message)
        (.exited (.error (.pipeline s!"writer worker panicked: {message}")))
        (dropHeld sh.fail p.reservation?)

end

theorem writerStep_of_retryOrGiveUp {cfg : Config} {decodersGone : Bool} {sh sh' : Shared R}
    {p p' : WriterPoint R} {action : WriterAction} {attempt : Nat} {unit : SinkCommitEnvelope R}
    {error : BoxError} {event : Event} (answered : NotCommitted p action attempt unit error event)
    (result : retryOrGiveUp cfg attempt unit error (sh.record event) = (p', sh')) :
    WriterStep cfg decodersGone sh p action p' sh' := by
  unfold retryOrGiveUp at result
  split_ifs at result with spent
  · cases result
    exact .givesUp p action attempt unit error event answered spent
  · cases result
    exact .retries p action attempt unit error event answered (Nat.lt_of_not_le spent)

theorem writerStep_of_stepWriter {cfg : Config} {decodersGone : Bool} {sh sh' : Shared R}
    {p p' : WriterPoint R} {action : WriterAction}
    (taken : stepWriter cfg decodersGone sh p action = some (p', sh')) :
    WriterStep cfg decodersGone sh p action p' sh' := by
  cases action with
  | take =>
      simp only [stepWriter] at taken
      split at taken
      case h_1 unit rest queue =>
        cases taken
        exact .takes unit rest queue
      case h_2 => cases taken
  | write answer =>
      simp only [stepWriter] at taken
      split at taken
      case h_1 attempt unit =>
        split at taken
        case h_1 result =>
          cases taken
          exact .writes attempt unit result
        case h_2 error =>
          cases taken
          exact .writeFails attempt unit error
        case h_3 error =>
          exact writerStep_of_retryOrGiveUp (.write attempt unit error) (Option.some.inj taken)
        case h_4 error =>
          cases taken
          exact .writeUnclear attempt unit error
      case h_2 => cases taken
  | check answer =>
      simp only [stepWriter] at taken
      split at taken
      case h_1 attempt unit error =>
        split at taken
        case h_1 =>
          cases taken
          exact .finds attempt unit error
        case h_2 =>
          exact writerStep_of_retryOrGiveUp (.check attempt unit error .notCommitted (Or.inl rfl))
            (Option.some.inj taken)
        case h_3 =>
          exact writerStep_of_retryOrGiveUp (.check attempt unit error .unknown (Or.inr rfl))
            (Option.some.inj taken)
        case h_4 failure =>
          cases taken
          exact .checkFails attempt unit error failure
      case h_2 => cases taken
  | wake =>
      simp only [stepWriter] at taken
      split at taken
      case h_1 attempt unit =>
        cases taken
        exact .wakes attempt unit
      case h_2 => cases taken
  | report =>
      simp only [stepWriter] at taken
      split at taken
      case h_1 report reservation =>
        split_ifs at taken with closed room
        · cases taken
          exact .commitUnheard report reservation closed
        · cases taken
          exact .reportsCommit report reservation closed room
      case h_2 error reservation =>
        split_ifs at taken with closed room
        · cases taken
          exact .unheard error reservation closed
        · cases taken
          exact .reports error reservation closed room
      case h_3 => cases taken
  | releaseBytes =>
      simp only [stepWriter] at taken
      split at taken
      case h_1 reservation =>
        cases taken
        exact .releasesBytes reservation
      case h_2 => cases taken
  | releasePermit =>
      simp only [stepWriter] at taken
      split at taken
      case h_1 =>
        cases taken
        exact .releasesPermit
      case h_2 => cases taken
  | leave =>
      simp only [stepWriter] at taken
      split at taken
      case h_1 queue =>
        split_ifs at taken with gone
        cases taken
        exact .leaves queue gone
      case h_2 => cases taken
  | abort =>
      simp only [stepWriter] at taken
      split at taken
      case h_1 =>
        split_ifs at taken with aborting
        cases taken
        exact .aborts aborting
      case h_2 attempt unit =>
        split_ifs at taken with aborting
        cases taken
        exact .abandons _ unit _ (.writing attempt unit) aborting
      case h_3 attempt unit error =>
        split_ifs at taken with aborting
        cases taken
        exact .abandons _ unit _ (.checking attempt unit error) aborting
      case h_4 attempt unit =>
        split_ifs at taken with aborting
        cases taken
        exact .abandons _ unit _ (.backingOff attempt unit) aborting
      case h_5 => cases taken
  | panic message =>
      simp only [stepWriter] at taken
      split_ifs at taken with ended
      cases taken
      exact .panics p message (by simpa using ended)

theorem NotCommitted.taken {cfg : Config} {decodersGone : Bool} {sh : Shared R}
    {p : WriterPoint R} {action : WriterAction} {attempt : Nat} {unit : SinkCommitEnvelope R}
    {error : BoxError} {event : Event} (answered : NotCommitted p action attempt unit error event) :
    stepWriter cfg decodersGone sh p action =
      some (retryOrGiveUp cfg attempt unit error (sh.record event)) := by
  cases answered with
  | write => rfl
  | check attempt unit error status undecided =>
      rcases undecided with rfl | rfl
      · rfl
      · rfl

theorem WriterStep.taken {cfg : Config} {decodersGone : Bool} {sh sh' : Shared R}
    {p p' : WriterPoint R} {action : WriterAction}
    (step : WriterStep cfg decodersGone sh p action p' sh') :
    stepWriter cfg decodersGone sh p action = some (p', sh') := by
  cases step with
  | takes unit rest queue => simp only [stepWriter, queue]
  | writes | writeFails | writeUnclear | finds | checkFails | wakes | releasesBytes
  | releasesPermit => rfl
  | retries p action attempt unit error event answered left =>
      rw [answered.taken, retryOrGiveUp, if_neg (Nat.not_le_of_lt left)]
  | givesUp p action attempt unit error event answered spent =>
      rw [answered.taken, retryOrGiveUp, if_pos spent]
  | commitUnheard report reservation closed => exact if_pos closed
  | reportsCommit report reservation notClosed room => exact (if_neg notClosed).trans (if_pos room)
  | unheard error reservation closed => exact if_pos closed
  | reports error reservation notClosed room => exact (if_neg notClosed).trans (if_pos room)
  | leaves queue gone => simp only [stepWriter, queue, if_pos gone]
  | aborts aborting => exact if_pos aborting
  | abandons p unit message inRetry aborting =>
      cases inRetry with
      | writing => exact if_pos aborting
      | checking => exact if_pos aborting
      | backingOff => exact if_pos aborting
  | panics p message alive => simp only [stepWriter, alive, Bool.false_eq_true, if_false]

end OpendataIngest.Runtime.Pipeline
