import OpendataIngest.Runtime.Types

/-!
# Runtime configuration

The option records of `runtime.rs` with their lookups, and `validate_backpressure`.
The poll interval and the retry backoff only say how long a timer runs and are left
out.
-/

set_option autoImplicit false

namespace OpendataIngest.Runtime

open MachineInt

inductive AckFlushPolicy where
  | everyCommitGroup
  | everyN (n : U32)
  deriving DecidableEq, Repr

structure SourceBackpressureOptions where
  maxInflightBatches : U32
  maxInflightBytes : U64
  estimatedMaxBatchBytes : U64
  fetchConcurrency : U32
  decodeConcurrency : U32
  oversizeFaultMultiplier : U32
  deriving DecidableEq, Repr

namespace SourceBackpressureOptions

def default : SourceBackpressureOptions where
  maxInflightBatches := 64
  maxInflightBytes := 256 * 1024 * 1024
  estimatedMaxBatchBytes := 4 * 1024 * 1024
  fetchConcurrency := 8
  decodeConcurrency := 4
  oversizeFaultMultiplier := 4

def serial : SourceBackpressureOptions where
  maxInflightBatches := 1
  maxInflightBytes := 256 * 1024 * 1024
  estimatedMaxBatchBytes := 4 * 1024 * 1024
  fetchConcurrency := 1
  decodeConcurrency := 1
  oversizeFaultMultiplier := 4

/-- Capacity of the four channels, and the number of batch permits. -/
def channelDepth (bp : SourceBackpressureOptions) : Nat := max bp.maxInflightBatches.val 1

/-- The largest decoded size the oversize gate of `decode_one` lets pass. -/
def faultLimit (bp : SourceBackpressureOptions) : Nat :=
  saturatingMul bp.estimatedMaxBatchBytes.val bp.oversizeFaultMultiplier.val

end SourceBackpressureOptions

structure SinkPoolOptions where
  maxConcurrentCommits : U32
  retryMaxAttempts : U32
  deriving DecidableEq, Repr

def SinkPoolOptions.default : SinkPoolOptions where
  maxConcurrentCommits := 4
  retryMaxAttempts := 6

structure RuntimeOptions where
  ackFlushPolicy : AckFlushPolicy
  dryRun : Bool
  maxDescriptorsPerPoll : U64
  maxRetryAttempts : U32
  sourceDefaults : SourceBackpressureOptions
  sourceOverrides : List (SourceId × SourceBackpressureOptions)
  sink : SinkPoolOptions
  deriving DecidableEq, Repr

namespace RuntimeOptions

def default : RuntimeOptions where
  ackFlushPolicy := .everyCommitGroup
  dryRun := true
  maxDescriptorsPerPoll := 8
  maxRetryAttempts := 3
  sourceDefaults := SourceBackpressureOptions.default
  sourceOverrides := []
  sink := SinkPoolOptions.default

def backpressureFor (options : RuntimeOptions) (source : SourceId) :
    SourceBackpressureOptions :=
  (options.sourceOverrides.lookup source).getD options.sourceDefaults

/-- `sink.retry_max_attempts` shadows the top-level budget once it differs from its
own default. -/
def effectiveRetryMaxAttempts (options : RuntimeOptions) : U32 :=
  if options.sink.retryMaxAttempts ≠ SinkPoolOptions.default.retryMaxAttempts then
    options.sink.retryMaxAttempts
  else options.maxRetryAttempts

end RuntimeOptions

def validateBackpressure (source : SourceId) (bp : SourceBackpressureOptions) :
    RuntimeResult Unit :=
  if bp.estimatedMaxBatchBytes > bp.maxInflightBytes then
    .error (.config (s!"source {source}: estimated_max_batch_bytes " ++
      s!"({bp.estimatedMaxBatchBytes.val}) > max_inflight_bytes " ++
      s!"({bp.maxInflightBytes.val}); admission would deadlock on " ++
      "SourceByteBudget::reserve. Raise max_inflight_bytes or lower " ++
      "estimated_max_batch_bytes so the pessimistic reservation fits."))
  else if bp.maxInflightBatches = 0 then
    .error (.config s!"source {source}: max_inflight_batches must be >= 1")
  else if bp.fetchConcurrency = 0 then
    .error (.config s!"source {source}: fetch_concurrency must be >= 1")
  else if bp.decodeConcurrency = 0 then
    .error (.config s!"source {source}: decode_concurrency must be >= 1")
  else .ok ()

/-- What an accepted configuration is known to satisfy. -/
structure Sized (bp : SourceBackpressureOptions) : Prop where
  estimate_fits : bp.estimatedMaxBatchBytes.val ≤ bp.maxInflightBytes.val
  batches_pos : 0 < bp.maxInflightBatches.val
  fetch_pos : 0 < bp.fetchConcurrency.val
  decode_pos : 0 < bp.decodeConcurrency.val

theorem validateBackpressure_ok (source : SourceId) (bp : SourceBackpressureOptions) :
    validateBackpressure source bp = .ok () ↔ Sized bp := by
  have positive : ∀ n : U32, n ≠ 0 ↔ 0 < n.val := by
    intro n
    rw [ne_eq, Fin.ext_iff]
    exact Nat.pos_iff_ne_zero.symm
  constructor
  · intro accepted
    unfold validateBackpressure at accepted
    split_ifs at accepted with tooLarge noBatches noFetch noDecode
    exact ⟨Nat.le_of_not_lt tooLarge, (positive _).mp noBatches, (positive _).mp noFetch,
      (positive _).mp noDecode⟩
  · intro sized
    have fits : ¬ bp.estimatedMaxBatchBytes > bp.maxInflightBytes :=
      Nat.not_lt_of_le sized.estimate_fits
    unfold validateBackpressure
    rw [if_neg fits, if_neg ((positive _).mpr sized.batches_pos),
      if_neg ((positive _).mpr sized.fetch_pos), if_neg ((positive _).mpr sized.decode_pos)]

end OpendataIngest.Runtime
