import OpendataIngest.ClickHouse.CommitDelivery
import OpendataIngest.ClickHouse.InsertPost
import OpendataIngest.Runtime.Pipeline.Builder

/-!
# The configuration of the ingestor

`IngestorConfig` of `config.rs` and what the binary makes of it: the writer, the adapter
and the runtime.  Loading the file, the timers, the metrics endpoint and the object store
are left out.
-/

set_option autoImplicit false

namespace OpendataIngest.Ingestor

open MachineInt OpendataIngest.Runtime Pipeline ClickHouse

/-! ## Sections -/

structure ClickHouseSection where
  endpoint : String
  database : String
  table : String
  insertQuorum : Option String
  user : String
  password : String

structure RuntimeSection where
  dryRun : Bool
  retryMaxAttempts : U32
  requestTimeoutSecs : U64
  maxInflightBatches : U32
  maxInflightBytes : U64
  estimatedMaxBatchBytes : U64
  fetchConcurrency : U32
  decodeConcurrency : U32
  oversizeFaultMultiplier : U32
  maxDescriptorsPerPoll : U64

/-- Every field as its serde default. -/
def RuntimeSection.default : RuntimeSection where
  dryRun := true
  retryMaxAttempts := 6
  requestTimeoutSecs := 30
  maxInflightBatches := 64
  maxInflightBytes := 256 * 1024 * 1024
  estimatedMaxBatchBytes := 4 * 1024 * 1024
  fetchConcurrency := 8
  decodeConcurrency := 4
  oversizeFaultMultiplier := 4
  maxDescriptorsPerPoll := 8

structure SinkSection where
  maxConcurrentCommits : U32
  serializationFormat : SerializationFormat

def SinkSection.default : SinkSection := ⟨4, .jsonEachRow⟩

inductive AckPolicyKind where
  | everyCommitGroup
  | everyN

structure AckSection where
  policy : AckPolicyKind
  n : Option U32

def AckSection.default : AckSection := ⟨.everyCommitGroup, none⟩

structure AdapterSection where
  adapterVersion : U32
  maxChunkRows : U64
  maxChunkBytes : U64
  applyDeduplicationToken : Bool

def AdapterSection.default : AdapterSection := ⟨1, 100000, 32 * 1024 * 1024, true⟩

/-- Of the buffer section only the manifest path is kept. -/
structure IngestorConfig where
  manifestPath : String
  clickhouse : ClickHouseSection
  runtime : RuntimeSection
  ack : AckSection
  adapter : AdapterSection
  sink : SinkSection

/-! ## What is made of them -/

namespace IngestorConfig

variable (cfg : IngestorConfig)

def ackFlushPolicy : AckFlushPolicy :=
  match cfg.ack.policy with
  | .everyCommitGroup => .everyCommitGroup
  | .everyN => .everyN (max (cfg.ack.n.getD 1) 1)

/-- `writer_config`, the part that the retry loop reads. -/
def writerConfig : WriterConfig := ⟨cfg.runtime.retryMaxAttempts, cfg.sink.serializationFormat⟩

/-- `writer_config`, the part that a request carries. -/
def endpointConfig : EndpointConfig where
  endpoint := cfg.clickhouse.endpoint
  user := cfg.clickhouse.user
  password := cfg.clickhouse.password
  requestTimeout := cfg.runtime.requestTimeoutSecs.val * 1000000000

def logsAdapterConfig : LogsAdapterConfig where
  database := cfg.clickhouse.database
  table := cfg.clickhouse.table
  adapterVersion := cfg.adapter.adapterVersion
  maxChunkRows := cfg.adapter.maxChunkRows
  maxChunkBytes := cfg.adapter.maxChunkBytes
  insertQuorum := cfg.clickhouse.insertQuorum
  applyDeduplicationToken := cfg.adapter.applyDeduplicationToken

def sourceDefaults : SourceBackpressureOptions where
  maxInflightBatches := cfg.runtime.maxInflightBatches
  maxInflightBytes := cfg.runtime.maxInflightBytes
  estimatedMaxBatchBytes := cfg.runtime.estimatedMaxBatchBytes
  fetchConcurrency := cfg.runtime.fetchConcurrency
  decodeConcurrency := cfg.runtime.decodeConcurrency
  oversizeFaultMultiplier := cfg.runtime.oversizeFaultMultiplier

/-- `runtime_options` of `main`. -/
def runtimeOptions : RuntimeOptions where
  ackFlushPolicy := cfg.ackFlushPolicy
  dryRun := cfg.runtime.dryRun
  maxDescriptorsPerPoll := cfg.runtime.maxDescriptorsPerPoll
  maxRetryAttempts := cfg.runtime.retryMaxAttempts
  sourceDefaults := cfg.sourceDefaults
  sourceOverrides := []
  sink := ⟨cfg.sink.maxConcurrentCommits, cfg.runtime.retryMaxAttempts⟩

/-- The builder of `main`, with its decoder. -/
def builder {R : Type} (decoder : Decoder R) : RuntimeBuilder R where
  source := some ⟨⟨"buffer"⟩, cfg.manifestPath, none⟩
  decoder := some decoder
  sink := some ⟨"clickhouse_logs"⟩
  options := cfg.runtimeOptions
  testFetchKillswitch := false

/-! ## The two retry budgets are one setting -/

/-- The sink's budget shadows the runtime's own, and both are the configured one. -/
theorem effectiveRetryMaxAttempts_eq :
    cfg.runtimeOptions.effectiveRetryMaxAttempts = cfg.runtime.retryMaxAttempts := by
  unfold RuntimeOptions.effectiveRetryMaxAttempts
  split_ifs
  · rfl
  · rfl

/-- With a budget of `m` attempts, a chunk of a commit is sent up to `(m + 1) * max 1 m` times. -/
theorem sends {R : Type} [TypedRecords R] [DowncastLogs R] (planner : Planner)
    (script : DeliveryScript) (commit : SinkCommit R) {planned : PlannedCommit}
    (accepted : planCommit planner commit = some (.ok planned)) :
    ∃ logs result,
      deliver planner cfg.writerConfig commit cfg.runtimeOptions script = some (logs, result) ∧
      ∀ position, attemptsAt logs.flatten position ≤
        (cfg.runtime.retryMaxAttempts.val + 1) * max 1 cfg.runtime.retryMaxAttempts.val := by
  obtain ⟨logs, result, delivered, kept, _⟩ :=
    deliver_ends planner cfg.writerConfig cfg.runtimeOptions script commit accepted
  rw [cfg.effectiveRetryMaxAttempts_eq] at kept
  exact ⟨logs, result, delivered, kept.attempts⟩

/-! ## Checks -/

/-- An `EveryN` of the configuration flushes at least every so often. -/
theorem ackFlushPolicy_pos {n : U32} (everyN : cfg.ackFlushPolicy = .everyN n) : 0 < n.val := by
  unfold ackFlushPolicy at everyN
  split at everyN
  · cases everyN
  · obtain rfl := AckFlushPolicy.everyN.inj everyN
    have least : (1 : U32) ≤ max (cfg.ack.n.getD 1) 1 := le_max_right _ _
    exact least

/-- The binary gets its runtime built exactly from fitting sizes. -/
theorem builds_iff {R : Type} (decoder : Decoder R) :
    (∃ runtime, (cfg.builder decoder).build = .ok runtime) ↔ Sized cfg.sourceDefaults := by
  constructor
  · rintro ⟨runtime, built⟩
    exact ((build_ok rfl rfl rfl).mp built).1.1
  · intro sized
    exact ⟨_, (build_ok rfl rfl rfl).mpr ⟨⟨sized, by simp [builder, runtimeOptions]⟩, rfl⟩⟩

/-- The default sizes pass. -/
theorem sized_default (isDefault : cfg.runtime = RuntimeSection.default) :
    Sized cfg.sourceDefaults := by
  unfold sourceDefaults
  rw [isDefault]
  exact ⟨by decide, by decide, by decide, by decide⟩

end IngestorConfig

end OpendataIngest.Ingestor
