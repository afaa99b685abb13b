import OpendataIngest.Runtime.AckCoordinator
import OpendataIngest.Runtime.BufferSource
import OpendataIngest.Runtime.ByteBudget
import OpendataIngest.Runtime.Options

/-!
# The state of one run

One source actor, three pools of workers and four bounded channels, as
`Runtime::run` sets them up.  A component is its program point with the values its
stack holds there.  Whatever holds an `AdmittedDescriptor`, a `FetchedBatch` or a
`SinkCommitEnvelope` also owns the unit's byte reservation and its batch permit;
the permit carries no data, so it is counted and not stored.

`history` records the calls that cross to the buffer and the sink, the registrations
and the completions, newest first.  Nothing in the model reads it.
-/

set_option autoImplicit false

namespace OpendataIngest.Runtime.Pipeline

open MachineInt

structure Config where
  source : SourceId
  sinkId : SinkId
  manifestPath : String
  lastAcked : Option U64
  options : RuntimeOptions
  testFetchKillswitch : Bool
  deriving DecidableEq, Repr

namespace Config

def bp (cfg : Config) : SourceBackpressureOptions := cfg.options.backpressureFor cfg.source

def dryRun (cfg : Config) : Bool := cfg.options.dryRun

def depth (cfg : Config) : Nat := cfg.bp.channelDepth

def capacity (cfg : Config) : Nat := cfg.bp.maxInflightBytes.val

def estimate (cfg : Config) : Nat := cfg.bp.estimatedMaxBatchBytes.val

def baseline (cfg : Config) : Option Nat := cfg.lastAcked.map Fin.val

end Config

abbrev Reservation : Type := ByteReservation Stage

/-! ## Channel messages -/

structure AdmittedDescriptor where
  descriptor : SourceBatchDescriptor
  reservation : Reservation
  deriving DecidableEq

structure FetchedBatch where
  sourceBatch : SourceBatch
  reservation : Reservation
  admittedSequence : U64
  deriving DecidableEq

structure SinkCommitEnvelope (R : Type) where
  commit : SinkCommit R
  range : U64 × U64
  reservation : Reservation
  deriving DecidableEq

structure CommittedReport where
  range : U64 × U64
  rowsWritten : Nat
  deriving DecidableEq

inductive WriteCompletion where
  | committed (report : CommittedReport)
  | fatal (error : RuntimeError)
  deriving DecidableEq

/-! ## Program points -/

inductive FetchPoint where
  | recv
  | fetching (unit : AdmittedDescriptor)
  | sending (unit : FetchedBatch)
  | reportingFatal (error : RuntimeError) (reservation : Reservation)
  | exited (result : RuntimeResult Unit)
  deriving DecidableEq

inductive DecodePoint (R : Type) where
  | recv
  | decoding (unit : FetchedBatch)
  | sending (unit : SinkCommitEnvelope R)
  | reportingDryRun (report : CommittedReport) (reservation : Reservation)
  | releasingBytes (reservation : Reservation)
  | releasingPermit
  | reportingFatal (error : RuntimeError) (reservation : Reservation)
  | exited (result : RuntimeResult Unit)
  deriving DecidableEq

/-- The points inside `write_with_retry` carry its `attempt` counter. -/
inductive WriterPoint (R : Type) where
  | recv
  | writing (attempt : Nat) (unit : SinkCommitEnvelope R)
  | checking (attempt : Nat) (unit : SinkCommitEnvelope R) (error : BoxError)
  | backingOff (attempt : Nat) (unit : SinkCommitEnvelope R)
  | reportingCommitted (report : CommittedReport) (reservation : Reservation)
  | releasingBytes (reservation : Reservation)
  | releasingPermit
  | reportingFatal (error : RuntimeError) (reservation : Reservation)
  | exited (result : RuntimeResult Unit)
  deriving DecidableEq

/-- `select` is the loop head with its `select!`; `permit` says that the pending
`admission_attempt` has its batch permit and waits for bytes.  From `measuring` to
`sending` the admission arm runs, with one gate for each held permit. -/
inductive ActorPoint where
  | select (permit : Bool)
  | measuring (gate : Reservation)
  | counting (gate : Reservation) (roomUnits : Nat)
  | extending (gates : List Reservation) (extras : Nat)
  | extendingBytes (gates : List Reservation) (extras : Nat)
  | polling (gates : List Reservation)
  | sleeping
  | sending (rest : List AdmittedDescriptor)
  | flushing (sequence frontier : Nat)
  | finalFlush (sequence : Nat)
  | exited (result : RuntimeResult Unit)
  deriving DecidableEq

structure RuntimeProgress where
  batchesRead : Nat
  sourceRangesCommitted : Nat
  recordsWritten : Nat
  lastDecodedSequence : Option Nat
  lastAckedSequence : Option Nat
  pendingRangesTotal : Nat
  deriving DecidableEq, Repr

def RuntimeProgress.default : RuntimeProgress := ⟨0, 0, 0, none, none, 0⟩

/-- The actor's locals.  `published` is the value of the progress watch channel. -/
structure Actor where
  point : ActorPoint
  source : BufferSource
  coordinator : AckCoordinator
  lastAckSent : Option Nat
  groupsSinceFlush : Nat
  inFlight : Nat
  admissionOpen : Bool
  progress : RuntimeProgress
  published : RuntimeProgress

inductive Event where
  | handedOut (sequences : List Nat)
  | registered (sequence : Nat)
  | sinkWriteCalled (identity : CommitIdentity)
  | sinkWriteReturned (identity : CommitIdentity) (answer : SinkWriteAnswer)
  | checkCommittedReturned (identity : CommitIdentity) (answer : RuntimeResult CommitStatus)
  | completionReceived (low high : Nat)
  | markedCommitted (low high : Nat)
  | ackThrough (sequence : Nat)
  | consumerAckCalled (sequence : Nat)
  | consumerAckReturned (sequence : Nat) (answer : Except BoxError Unit)
  deriving DecidableEq

/-- What the components share.  `workerFailed` is set by the first step in which a
worker fails: a fetch, decode or write error, a closed channel, the killswitch or a
panic. -/
structure Shared (R : Type) where
  counters : Counters Stage
  freePermits : Nat
  descriptors : List AdmittedDescriptor
  descriptorClosed : Bool
  fetched : List FetchedBatch
  sinkCommits : List (SinkCommitEnvelope R)
  completions : List WriteCompletion
  completionClosed : Bool
  hardAbort : Bool
  workerFailed : Bool
  history : List Event

structure State (R : Type) where
  actor : Actor
  shared : Shared R
  fetchers : List FetchPoint
  decoders : List (DecodePoint R)
  writers : List (WriterPoint R)
  shutdown : Bool
  killed : Bool
  result : Option (RuntimeResult Unit)

/-! ## Exits -/

def FetchPoint.hasExited : FetchPoint → Bool
  | .exited _ => true
  | _ => false

def DecodePoint.hasExited {R : Type} : DecodePoint R → Bool
  | .exited _ => true
  | _ => false

def WriterPoint.hasExited {R : Type} : WriterPoint R → Bool
  | .exited _ => true
  | _ => false

def ActorPoint.hasExited : ActorPoint → Bool
  | .exited _ => true
  | _ => false

namespace State

variable {R : Type}

/-- A channel whose senders, or receivers, have all been dropped is closed. -/
def fetchersGone (s : State R) : Bool := s.fetchers.all FetchPoint.hasExited

def decodersGone (s : State R) : Bool := s.decoders.all DecodePoint.hasExited

def writersGone (s : State R) : Bool := s.writers.all WriterPoint.hasExited

end State

/-! ## Building a run -/

variable {R : Type}

/-- No worker has failed, and the actor has not returned. -/
structure Intact (sh : Shared R) : Prop where
  workerFailed : sh.workerFailed = false
  hardAbort : sh.hardAbort = false
  completionClosed : sh.completionClosed = false

def Shared.start (cfg : Config) : Shared R where
  counters := Counters.zero
  freePermits := cfg.depth
  descriptors := []
  descriptorClosed := false
  fetched := []
  sinkCommits := []
  completions := []
  completionClosed := false
  hardAbort := false
  workerFailed := false
  history := []

def Actor.start (cfg : Config) : Actor where
  point := .select false
  source := BufferSource.new cfg.source cfg.manifestPath cfg.baseline
  coordinator := AckCoordinator.new cfg.source cfg.baseline
  lastAckSent := cfg.baseline
  groupsSinceFlush := 0
  inFlight := 0
  admissionOpen := true
  progress := RuntimeProgress.default
  published := RuntimeProgress.default

/-- `Runtime::run` after it has spawned its workers. -/
def State.start (cfg : Config) : State R where
  actor := Actor.start cfg
  shared := Shared.start cfg
  fetchers := List.replicate (max cfg.bp.fetchConcurrency.val 1) .recv
  decoders := List.replicate (max cfg.bp.decodeConcurrency.val 1) .recv
  writers := List.replicate (max cfg.options.sink.maxConcurrentCommits.val 1) .recv
  shutdown := false
  killed := false
  result := none

end OpendataIngest.Runtime.Pipeline
