import OpendataIngest.Otel.Logs
import Mathlib.Data.List.Sort

/-!
# The logs adapter

`adapter/mod.rs` and `adapter/logs.rs`: rows, insert chunks, the dedupe token and the plan
that cuts a commit's records into chunks.  `sha256Prefix` is the hex text of the first
eight bytes of a text's SHA-256 digest.

`observability_labels` of a chunk only feed metrics and are left out.
-/

set_option autoImplicit false

namespace OpendataIngest.ClickHouse

open MachineInt OpendataIngest.Runtime Otel

inductive RowValue where
  | string (s : String)
  | lowCardinalityString (s : String)
  | uint8 (v : UInt8)
  | int32 (v : Int32)
  | uint32 (v : U32)
  | uint64 (v : U64)
  | int64 (v : Int64)
  | dateTime64Nanos (ns : U64)
  | nullableDateTime64Nanos (ns : Option U64)
  | stringMap (m : Attributes)
  deriving DecidableEq

abbrev Row : Type := List RowValue

structure ClickHouseSettings where
  insertQuorum : Option String
  insertDeduplicationToken : String
  applyDeduplicationToken : Bool

structure InsertChunk where
  database : String
  table : String
  columns : List String
  rows : List Row
  settings : ClickHouseSettings
  idempotencyToken : String
  chunkIndex : U32

def InsertChunk.rowsCount (chunk : InsertChunk) : Nat := chunk.rows.length

inductive AdapterError where
  | plan (message : String)
  deriving DecidableEq

def AdapterError.text : AdapterError → String
  | .plan message => s!"adapter: {message}"

structure LogsAdapterConfig where
  database : String
  table : String
  adapterVersion : U32
  maxChunkRows : U64
  maxChunkBytes : U64
  insertQuorum : Option String
  applyDeduplicationToken : Bool
  deriving DecidableEq

def chunkingFingerprint (sha256Prefix : String → String) (config : LogsAdapterConfig) : String :=
  let insertQuorum := config.insertQuorum.getD ""
  sha256Prefix ("otlp-logs-clickhouse-adapter:v1\n" ++
    s!"database={config.database}\n" ++
    s!"table={config.table}\n" ++
    s!"adapter_version={config.adapterVersion.val}\n" ++
    s!"max_chunk_rows={config.maxChunkRows.val}\n" ++
    s!"max_chunk_bytes={config.maxChunkBytes.val}\n" ++
    s!"insert_quorum={insertQuorum}\n")

def columns : List String :=
  ["Timestamp", "ObservedTimestamp", "SeverityText", "SeverityNumber", "ServiceName", "Body",
    "ResourceAttributes", "LogAttributes", "TraceId", "SpanId", "_odb_sequence",
    "_odb_entry_index", "_odb_record_index", "_odb_manifest_path", "_odb_data_path",
    "_odb_ingestion_time_ms", "_adapter_version", "_odb_gateway_received_at"]

/-! ## Rows -/

/-- `str::parse::<u64>`. -/
def parseU64 (s : String) : Option U64 :=
  let digits := match s.toList with
    | '+' :: rest => rest
    | all => all
  if digits = [] ∨ !digits.all Char.isDigit then none
  else
    let n := Nat.ofDigitChars 10 digits 0
    if fits : n < 2 ^ 64 then some ⟨n, fits⟩ else none

def severityToU8 (severityNumber : Int) : UInt8 :=
  UInt8.ofNat (max 0 (min severityNumber 255)).toNat

def gatewayReceivedAt : String := "_odb_gateway_received_at"

def logRow (config : LogsAdapterConfig) (rec : DecodedLogRecord) : Row :=
  [.dateTime64Nanos rec.timestampUnixNano,
    .dateTime64Nanos rec.observedTimestampUnixNano,
    .lowCardinalityString rec.severityText,
    .uint8 (severityToU8 rec.severityNumber),
    .lowCardinalityString (rec.serviceName.getD ""),
    .string rec.body,
    .stringMap (rec.resourceAttributes.remove gatewayReceivedAt),
    .stringMap rec.logAttributes,
    .string rec.traceIdHex,
    .string rec.spanIdHex,
    .uint64 rec.source.bufferSequence,
    .uint32 rec.source.entryIndex,
    .uint32 rec.source.recordIndex,
    .lowCardinalityString rec.source.manifestPath,
    .string rec.source.dataPath,
    .int64 rec.source.ingestionTimeMs,
    .uint32 config.adapterVersion,
    .nullableDateTime64Nanos ((rec.resourceAttributes.get? gatewayReceivedAt).bind parseU64)]

/-! ## Tokens -/

def buildToken (manifestPath : String) (config : LogsAdapterConfig) (fingerprint : String)
    (low high : U64) (chunkIndex : U32) : String :=
  manifestPath ++ ":" ++ config.database ++ "." ++ config.table ++ ":" ++
    toString low.val ++ "-" ++ toString high.val ++ ":" ++ toString config.adapterVersion.val ++
    ":" ++ fingerprint ++ ":" ++ toString chunkIndex.val

/-! ## The plan -/

structure ClickHouseAdapterBatch where
  identity : CommitIdentity
  records : List DecodedLogRecord

/-- The order of `sort_by_key`: `(buffer_sequence, entry_index, record_index)`. -/
def sortsBefore (left right : DecodedLogRecord) : Prop :=
  left.source.bufferSequence < right.source.bufferSequence ∨
    left.source.bufferSequence = right.source.bufferSequence ∧
      (left.source.entryIndex < right.source.entryIndex ∨
        left.source.entryIndex = right.source.entryIndex ∧
          left.source.recordIndex ≤ right.source.recordIndex)

instance : DecidableRel sortsBefore := fun _ _ => instDecidableOr

/-- The closure `emit` of `plan`. -/
def emit (config : LogsAdapterConfig) (fingerprint manifestPath : String) (range : SequenceRange)
    (slice : List DecodedLogRecord) (chunkIndex : U32) : InsertChunk :=
  let token := buildToken manifestPath config fingerprint range.low range.high chunkIndex
  { database := config.database
    table := config.table
    columns := columns
    rows := slice.map (logRow config)
    settings := ⟨config.insertQuorum, token, config.applyDeduplicationToken⟩
    idempotencyToken := token
    chunkIndex := chunkIndex }

structure Chunking where
  chunks : List InsertChunk
  current : List DecodedLogRecord
  currentBytes : Nat
  chunkIndex : U32

/-- `chunk_index += 1` in a build with or without overflow checks. -/
def advance (overflowChecks : Bool) (n : U32) : Option U32 :=
  if overflowChecks then increment n else some (n + 1)

/-- One iteration of the chunking loop. -/
def chunkRecord (overflowChecks : Bool) (σ : Nat) (config : LogsAdapterConfig)
    (emit : List DecodedLogRecord → U32 → InsertChunk) (state : Chunking)
    (record : DecodedLogRecord) : Option Chunking :=
  let maxRows := max config.maxChunkRows.val 1
  let maxBytes := max config.maxChunkBytes.val 1
  let recBytes := record.approxSizeBytes σ
  let wouldExceedRows := state.current.length + 1 > maxRows
  let wouldExceedBytes := state.currentBytes + recBytes > maxBytes
  if !state.current.isEmpty ∧ (wouldExceedRows ∨ wouldExceedBytes) then
    (advance overflowChecks state.chunkIndex).map fun next =>
      ⟨state.chunks ++ [emit state.current state.chunkIndex], [record], recBytes, next⟩
  else
    some { state with
      current := state.current ++ [record]
      currentBytes := state.currentBytes + recBytes }

def chunkRecords (overflowChecks : Bool) (σ : Nat) (config : LogsAdapterConfig)
    (emit : List DecodedLogRecord → U32 → InsertChunk) :
    Chunking → List DecodedLogRecord → Option Chunking
  | state, [] => some state
  | state, record :: rest =>
      (chunkRecord overflowChecks σ config emit state record).bind fun next =>
        chunkRecords overflowChecks σ config emit next rest

/-- The chunk the loop leaves unfinished. -/
def Chunking.finish (emit : List DecodedLogRecord → U32 → InsertChunk) (state : Chunking) :
    List InsertChunk :=
  if state.current.isEmpty then state.chunks
  else state.chunks ++ [emit state.current state.chunkIndex]

/-- `OtlpLogsClickHouseAdapter::plan`; `none` when the chunk counter overflows in a build
with overflow checks. -/
def planBuilt (overflowChecks : Bool) (σ : Nat) (sha256Prefix : String → String)
    (config : LogsAdapterConfig) (batch : ClickHouseAdapterBatch) :
    Option (Except AdapterError (List InsertChunk)) :=
  match batch.records.insertionSort sortsBefore with
  | [] => some (.ok [])
  | first :: rest =>
      let manifestPath := first.source.manifestPath
      match (first :: rest).find? fun r => r.source.manifestPath ≠ manifestPath with
      | some mismatch =>
          some (.error (.plan (s!"commit group mixes manifest paths: first record has " ++
            s!"{manifestPath}, found {mismatch.source.manifestPath}")))
      | none =>
          let emit := emit config (chunkingFingerprint sha256Prefix config) manifestPath
            batch.identity.range
          (chunkRecords overflowChecks σ config emit ⟨[], [], 0, 0⟩ (first :: rest)).map
            fun state => .ok (state.finish emit)

/-- The plan whose counter is checked.  Up to 2^32 chunks the release build, whose counter
wraps, makes the same plan. -/
def plan (σ : Nat) (sha256Prefix : String → String) (config : LogsAdapterConfig)
    (batch : ClickHouseAdapterBatch) : Option (Except AdapterError (List InsertChunk)) :=
  planBuilt true σ sha256Prefix config batch

end OpendataIngest.ClickHouse
