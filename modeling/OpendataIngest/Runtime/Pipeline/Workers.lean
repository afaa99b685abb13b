import OpendataIngest.Runtime.Pipeline.State

/-!
# The three worker pools

`fetch_worker`, `decode_worker` with `decode_one`, and `writer_worker` with
`write_with_retry`.  A worker's code between two suspension points is one step: it
touches the byte budget through at most one read-modify-write of `in_flight`, and
everything else it changes is its own or one end of a channel.  What the buffer, the
decoder and the sink answer is part of the action.

A worker owns its unit until it hands it on, so every way out of a worker returns the
reservation and the permit.
-/

set_option autoImplicit false

namespace OpendataIngest.Runtime.Pipeline

open MachineInt

variable {R : Type}

/-! ## Shared effects -/

namespace Shared

def record (sh : Shared R) (event : Event) : Shared R :=
  { sh with history := event :: sh.history }

/-- Dropping a unit: its reservation first, then its permit. -/
def dropUnit (sh : Shared R) (reservation : Reservation) : Shared R :=
  { sh with
    counters := reservation.release sh.counters
    freePermits := sh.freePermits + 1 }

def fail (sh : Shared R) : Shared R := { sh with workerFailed := true }

def complete (sh : Shared R) (message : WriteCompletion) : Shared R :=
  { sh with completions := sh.completions ++ [message] }

end Shared

/-! ## Fetch workers -/

inductive FetchAction where
  | take
  | answer (fetched : Except BoxError ConsumedBatch)
  | send
  | report
  | leave
  | abort
  | kill
  | panic (message : String)

/-- The reservation a fetch worker would drop with its stack. -/
def FetchPoint.reservation? : FetchPoint → Option Reservation
  | .fetching unit => some unit.reservation
  | .sending unit => some unit.reservation
  | .reportingFatal _ reservation => some reservation
  | _ => none

def dropHeld (sh : Shared R) : Option Reservation → Shared R
  | some reservation => sh.dropUnit reservation
  | none => sh

def stepFetch (cfg : Config) (killed decodersGone : Bool) (sh : Shared R) (p : FetchPoint) :
    FetchAction → Option (FetchPoint × Shared R)
  | .take =>
      match p, sh.descriptors with
      | .recv, unit :: rest =>
          let moved := unit.reservation.attachStage .fetch sh.counters
          some (.fetching { unit with reservation := moved.1 },
            { sh with descriptors := rest, counters := moved.2 })
      | _, _ => none
  | .answer fetched =>
      match p with
      | .fetching unit =>
          match BufferSource.fetch cfg.source cfg.manifestPath fetched with
          | .ok batch => some (.sending ⟨batch, unit.reservation, unit.descriptor.sequence⟩, sh)
          | .error e => some (.reportingFatal e unit.reservation, sh.fail)
      | _ => none
  | .send =>
      match p with
      | .sending unit =>
          if decodersGone then
            some (.reportingFatal (.pipeline (s!"fetched-batch lost: source={cfg.source} " ++
              s!"seq={unit.admittedSequence.val} cause=decode-stage-closed"))
              unit.reservation, sh.fail)
          else if sh.fetched.length < cfg.depth then
            some (.recv, { sh with fetched := sh.fetched ++ [unit] })
          else none
      | _ => none
  | .report =>
      match p with
      | .reportingFatal e reservation =>
          if sh.completionClosed then some (.exited (.ok ()), sh.dropUnit reservation)
          else if sh.completions.length < cfg.depth then
            some (.exited (.ok ()), (sh.complete (.fatal e)).dropUnit reservation)
          else none
      | _ => none
  | .leave =>
      match p, sh.descriptors with
      | .recv, [] => if sh.descriptorClosed then some (.exited (.ok ()), sh) else none
      | _, _ => none
  | .abort =>
      match p with
      | .recv => if sh.hardAbort then some (.exited (.ok ()), sh) else none
      | .fetching unit =>
          if sh.hardAbort then some (.exited (.ok ()), sh.dropUnit unit.reservation) else none
      | _ => none
  | .kill =>
      match p with
      | .recv => if killed then some (.exited (.ok ()), sh.fail) else none
      | _ => none
  | .panic message =>
      if p.hasExited then none
      else some (.exited (.error (.pipeline s!"fetch worker panicked: {message}")),
        dropHeld sh.fail p.reservation?)

/-! ## Decode workers -/

/-- `dyn Decoder`. -/
structure Decoder (R : Type) where
  accepts : Bytes → Bool
  decode : SourceBatch → RuntimeResult (List (DecodedBatch R))

inductive DecodeOutcome (R : Type) where
  | live (commit : SinkCommit R) (range : U64 × U64)
  | dryRun (range : U64 × U64) (rowsWritten : Nat)

def sourceCoordsBytes (coords : SourceCoordinateColumns) : Nat :=
  let strings := coords.manifestPath.utf8ByteSize + coords.dataPath.utf8ByteSize
  let perRow := 8 + 4 + 4 + 8
  wrap64 (strings + coords.sequences.length * perRow)

def buildCommit (sinkId : SinkId) (low high : U64) (batch : DecodedBatch R) : SinkCommit R where
  identity := ⟨batch.source, sinkId, ⟨low, high⟩, batch.schemaVersion⟩
  batch := batch

/-- The checks of `decode_one` up to the byte reconciliation. -/
def checkDecoded (decoder : Decoder R) (unit : FetchedBatch) : RuntimeResult (DecodedBatch R) :=
  let rejected := match unit.sourceBatch.entries.head? with
    | some first => !decoder.accepts first.rawMetadata
    | none => false
  if rejected then
    .error (.decoder "configured decoder rejected the source's per-entry metadata")
  else match decoder.decode unit.sourceBatch with
    | .error e => .error e
    | .ok [] =>
        .error (.decoder ("decoder returned empty Vec<DecodedBatch>; every source batch must " ++
          "produce at least one DecodedBatch (zero-record allowed) to keep admission " ++
          "contiguous (INV-ADMISSION-CONTIGUOUS)"))
    | .ok [decoded] =>
        if decoded.lowSequence ≠ unit.admittedSequence ∨
            decoded.highSequence ≠ unit.admittedSequence then
          .error (.pipeline (s!"decoded range {decoded.lowSequence.val}..=" ++
            s!"{decoded.highSequence.val} does not match admitted sequence " ++
            s!"{unit.admittedSequence.val} (runtime contract: one DecodedBatch per source " ++
            "batch with low == high == descriptor.sequence)"))
        else .ok decoded
    | .ok batches =>
        .error (.decoder (s!"runtime expects one DecodedBatch per source batch; got " ++
          s!"{batches.length}"))

section Typed

variable [TypedRecords R]

/-- Post-decode bytes of a batch: records and coordinate columns. -/
def actualBytes (decoded : DecodedBatch R) : Nat :=
  wrappingAdd (wrap64 (TypedRecords.estimatedBytes decoded.records))
    (sourceCoordsBytes decoded.sourceColumns)

/-- `decode_one`.  The oversize gate is tried before the reservation is reconciled. -/
def decodeOne (cfg : Config) (decoder : Decoder R) (unit : FetchedBatch)
    (k : Counters Stage) : RuntimeResult (DecodeOutcome R) × Reservation × Counters Stage :=
  match checkDecoded decoder unit with
  | .error e => (.error e, unit.reservation, k)
  | .ok decoded =>
      let low := decoded.lowSequence
      let high := decoded.highSequence
      let actual := actualBytes decoded
      if actual > cfg.bp.faultLimit then
        (.error (.pipeline (s!"oversize decoded batch: source range {low.val}..={high.val} " ++
          s!"actual_bytes={actual} fault_limit={cfg.bp.faultLimit} " ++
          s!"(estimated_max_batch_bytes={cfg.bp.estimatedMaxBatchBytes.val} × " ++
          s!"oversize_fault_multiplier={cfg.bp.oversizeFaultMultiplier.val})")),
          unit.reservation, k)
      else
        let reconciled := unit.reservation.reconcile actual k
        let outcome := if cfg.dryRun then
            .dryRun (low, high) (TypedRecords.recordCount decoded.records)
          else .live (buildCommit cfg.sinkId low high decoded) (low, high)
        (.ok outcome, reconciled.1, reconciled.2)

end Typed

inductive DecodeAction (R : Type) where
  | take
  | decode (decoder : Decoder R)
  | send
  | report
  | releaseBytes
  | releasePermit
  | leave
  | abort
  | panic (message : String)

def DecodePoint.reservation? : DecodePoint R → Option Reservation
  | .decoding unit => some unit.reservation
  | .sending unit => some unit.reservation
  | .reportingDryRun _ reservation => some reservation
  | .releasingBytes reservation => some reservation
  | .releasingPermit => some ⟨0, none⟩
  | .reportingFatal _ reservation => some reservation
  | _ => none

def stepDecode [TypedRecords R] (cfg : Config) (fetchersGone writersGone : Bool) (sh : Shared R)
    (p : DecodePoint R) : DecodeAction R → Option (DecodePoint R × Shared R)
  | .take =>
      match p, sh.fetched with
      | .recv, unit :: rest =>
          let moved := unit.reservation.attachStage .decode sh.counters
          some (.decoding { unit with reservation := moved.1 },
            { sh with fetched := rest, counters := moved.2 })
      | _, _ => none
  | .decode decoder =>
      match p with
      | .decoding unit =>
          match decodeOne cfg decoder unit sh.counters with
          | (.ok (.live commit range), reservation, k) =>
              some (.sending ⟨commit, range, reservation⟩, { sh with counters := k })
          | (.ok (.dryRun range rowsWritten), reservation, k) =>
              some (.reportingDryRun ⟨range, rowsWritten⟩ reservation, { sh with counters := k })
          | (.error e, reservation, k) =>
              some (.reportingFatal e reservation, { sh with counters := k }.fail)
      | _ => none
  | .send =>
      match p with
      | .sending unit =>
          if writersGone then
            -- `decode_one` has checked that the range is the admitted sequence
            some (.reportingFatal (.pipeline (s!"sink-commit lost: source={cfg.source} " ++
              s!"seq={unit.range.1.val} cause=sink-stage-closed")) unit.reservation, sh.fail)
          else if sh.sinkCommits.length < cfg.depth then
            some (.recv, { sh with sinkCommits := sh.sinkCommits ++ [unit] })
          else none
      | _ => none
  | .report =>
      match p with
      | .reportingDryRun report reservation =>
          if sh.completionClosed then some (.exited (.ok ()), sh.dropUnit reservation)
          else if sh.completions.length < cfg.depth then
            some (.releasingBytes reservation, sh.complete (.committed report))
          else none
      | .reportingFatal e reservation =>
          if sh.completionClosed then some (.exited (.ok ()), sh.dropUnit reservation)
          else if sh.completions.length < cfg.depth then
            some (.exited (.ok ()), (sh.complete (.fatal e)).dropUnit reservation)
          else none
      | _ => none
  | .releaseBytes =>
      match p with
      | .releasingBytes reservation =>
          some (.releasingPermit, { sh with counters := reservation.release sh.counters })
      | _ => none
  | .releasePermit =>
      match p with
      | .releasingPermit => some (.recv, { sh with freePermits := sh.freePermits + 1 })
      | _ => none
  | .leave =>
      match p, sh.fetched with
      | .recv, [] => if fetchersGone then some (.exited (.ok ()), sh) else none
      | _, _ => none
  | .abort =>
      match p with
      | .recv => if sh.hardAbort then some (.exited (.ok ()), sh) else none
      | .decoding unit =>
          if sh.hardAbort then some (.exited (.ok ()), sh.dropUnit unit.reservation) else none
      | _ => none
  | .panic message =>
      if p.hasExited then none
      else some (.exited (.error (.pipeline s!"decode worker panicked: {message}")),
        dropHeld sh.fail p.reservation?)

/-! ## Writer workers -/

inductive WriterAction where
  | take
  | write (answer : SinkWriteAnswer)
  | check (answer : RuntimeResult CommitStatus)
  | wake
  | report
  | releaseBytes
  | releasePermit
  | leave
  | abort
  | panic (message : String)

def WriterPoint.reservation? : WriterPoint R → Option Reservation
  | .writing _ unit => some unit.reservation
  | .checking _ unit _ => some unit.reservation
  | .backingOff _ unit => some unit.reservation
  | .reportingCommitted _ reservation => some reservation
  | .releasingBytes reservation => some reservation
  | .releasingPermit => some ⟨0, none⟩
  | .reportingFatal _ reservation => some reservation
  | _ => none

/-- Retry after `error`, or give up when the budget is spent. -/
def retryOrGiveUp (cfg : Config) (attempt : Nat) (unit : SinkCommitEnvelope R)
    (error : BoxError) (sh : Shared R) : WriterPoint R × Shared R :=
  if attempt ≥ cfg.options.effectiveRetryMaxAttempts.val then
    (.reportingFatal (.sink error) unit.reservation, sh.fail)
  else (.backingOff attempt unit, sh)

/-- `attempt.saturating_add(1)` on a `u32`. -/
def nextAttempt (attempt : Nat) : Nat := min (attempt + 1) (2 ^ 32 - 1)

def stepWriter (cfg : Config) (decodersGone : Bool) (sh : Shared R) (p : WriterPoint R) :
    WriterAction → Option (WriterPoint R × Shared R)
  | .take =>
      match p, sh.sinkCommits with
      | .recv, unit :: rest =>
          let moved := unit.reservation.attachStage .sinkDispatch sh.counters
          some (.writing 0 { unit with reservation := moved.1 },
            { sh with sinkCommits := rest, counters := moved.2 }.record
              (.sinkWriteCalled unit.commit.identity))
      | _, _ => none
  | .write answer =>
      match p with
      | .writing attempt unit =>
          let sh := sh.record (.sinkWriteReturned unit.commit.identity answer)
          match answer with
          | .ok result =>
              some (.reportingCommitted ⟨unit.range, result.rowsWritten⟩ unit.reservation, sh)
          | .error (.fatal e) => some (.reportingFatal (.sink e) unit.reservation, sh.fail)
          | .error (.notCommitted e) => some (retryOrGiveUp cfg attempt unit e sh)
          | .error (.maybeCommitted e) => some (.checking attempt unit e, sh)
      | _ => none
  | .check answer =>
      match p with
      | .checking attempt unit error =>
          let sh := sh.record (.checkCommittedReturned unit.commit.identity answer)
          match answer with
          | .ok .committed => some (.reportingCommitted ⟨unit.range, 0⟩ unit.reservation, sh)
          | .ok .notCommitted => some (retryOrGiveUp cfg attempt unit error sh)
          | .ok .unknown => some (retryOrGiveUp cfg attempt unit error sh)
          | .error e => some (.reportingFatal e unit.reservation, sh.fail)
      | _ => none
  | .wake =>
      match p with
      | .backingOff attempt unit =>
          some (.writing (nextAttempt attempt) unit,
            sh.record (.sinkWriteCalled unit.commit.identity))
      | _ => none
  | .report =>
      match p with
      | .reportingCommitted report reservation =>
          if sh.completionClosed then some (.exited (.ok ()), sh.dropUnit reservation)
          else if sh.completions.length < cfg.depth then
            some (.releasingBytes reservation, sh.complete (.committed report))
          else none
      | .reportingFatal e reservation =>
          if sh.completionClosed then some (.exited (.ok ()), sh.dropUnit reservation)
          else if sh.completions.length < cfg.depth then
            some (.exited (.ok ()), (sh.complete (.fatal e)).dropUnit reservation)
          else none
      | _ => none
  | .releaseBytes =>
      match p with
      | .releasingBytes reservation =>
          some (.releasingPermit, { sh with counters := reservation.release sh.counters })
      | _ => none
  | .releasePermit =>
      match p with
      | .releasingPermit => some (.recv, { sh with freePermits := sh.freePermits + 1 })
      | _ => none
  | .leave =>
      match p, sh.sinkCommits with
      | .recv, [] => if decodersGone then some (.exited (.ok ()), sh) else none
      | _, _ => none
  | .abort =>
      match p with
      | .recv => if sh.hardAbort then some (.exited (.ok ()), sh) else none
      | .writing _ unit =>
          if sh.hardAbort then
            some (.reportingFatal (.pipeline "hard abort during Sink::write") unit.reservation,
              sh.fail)
          else none
      | .checking _ unit _ =>
          if sh.hardAbort then
            some (.reportingFatal (.pipeline "hard abort during check_committed")
              unit.reservation, sh.fail)
          else none
      | .backingOff _ unit =>
          if sh.hardAbort then
            some (.reportingFatal (.pipeline "hard abort during retry sleep") unit.reservation,
              sh.fail)
          else none
      | _ => none
  | .panic message =>
      if p.hasExited then none
      else some (.exited (.error (.pipeline s!"writer worker panicked: {message}")),
        dropHeld sh.fail p.reservation?)

end OpendataIngest.Runtime.Pipeline
