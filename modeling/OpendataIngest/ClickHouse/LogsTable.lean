import OpendataIngest.ClickHouse.Adapter

/-!
# The logs table

`logs_table_ddl` of `adapter/logs.rs`.  The table is a `ReplacingMergeTree`: rows with equal
`ORDER BY` tuples are merged into one of highest `_adapter_version`.  `toDate` is the
server's.
-/

set_option autoImplicit false

namespace OpendataIngest.ClickHouse

open MachineInt Otel

/-! ## The statement -/

inductive OrderExpr where
  | toDate (name : String)
  | column (name : String)
  deriving DecidableEq

def OrderExpr.text : OrderExpr → String
  | .toDate name => s!"toDate({name})"
  | .column name => name

def logsTableOrderBy : List OrderExpr :=
  [.toDate "Timestamp", .column "ServiceName", .column "_odb_sequence",
    .column "_odb_entry_index", .column "_odb_record_index"]

def logsTableVersion : String := "_adapter_version"

def logsTableDdl (config : LogsAdapterConfig) : String :=
  let orderBy := ", ".intercalate (logsTableOrderBy.map OrderExpr.text)
  s!"CREATE TABLE IF NOT EXISTS {config.database}.{config.table} (\n" ++
    "Timestamp           DateTime64(9)               CODEC(Delta, ZSTD),\n" ++
    "ObservedTimestamp   DateTime64(9)               CODEC(Delta, ZSTD),\n" ++
    "SeverityText        LowCardinality(String),\n" ++
    "SeverityNumber      UInt8,\n" ++
    "ServiceName         LowCardinality(String),\n" ++
    "Body                String                      CODEC(ZSTD),\n" ++
    "ResourceAttributes  Map(LowCardinality(String), String),\n" ++
    "LogAttributes       Map(LowCardinality(String), String),\n" ++
    "TraceId             String                      CODEC(ZSTD),\n" ++
    "SpanId              String                      CODEC(ZSTD),\n" ++
    "_odb_sequence            UInt64,\n" ++
    "_odb_entry_index         UInt32,\n" ++
    "_odb_record_index        UInt32,\n" ++
    "_odb_manifest_path       LowCardinality(String),\n" ++
    "_odb_data_path           String,\n" ++
    "_odb_ingestion_time_ms   Int64,\n" ++
    "_adapter_version         UInt32,\n" ++
    "_odb_gateway_received_at    Nullable(DateTime64(9)),\n" ++
    "_odb_clickhouse_inserted_at DateTime64(9) DEFAULT now64(9)\n" ++
    ")\n" ++
    s!"ENGINE = ReplacingMergeTree({logsTableVersion})\n" ++
    "PARTITION BY toDate(Timestamp)\n" ++
    s!"ORDER BY ({orderBy})\n" ++
    "TTL toDate(Timestamp) + INTERVAL 30 DAY"

/-! ## Rows of the table -/

def columnOf (name : String) (row : Row) : Option RowValue := (columns.zip row).lookup name

section Key

variable {D : Type} (toDate : U64 → D)

def OrderExpr.eval (row : Row) : OrderExpr → Option (D ⊕ RowValue)
  | .toDate name =>
      match columnOf name row with
      | some (.dateTime64Nanos ns) => some (.inl (toDate ns))
      | _ => none
  | .column name => (columnOf name row).map .inr

def sortingKey (row : Row) : List (Option (D ⊕ RowValue)) :=
  logsTableOrderBy.map (OrderExpr.eval toDate row)

def versionOf (row : Row) : Nat :=
  match columnOf logsTableVersion row with
  | some (.uint32 version) => version.val
  | _ => 0

/-- The columns that say which record of which manifest a row is. -/
def sourceColumns : List String :=
  ["_odb_manifest_path", "_odb_sequence", "_odb_entry_index", "_odb_record_index"]

def sourceName (row : Row) : List (Option RowValue) := sourceColumns.map (columnOf · row)

variable {toDate} {config config' : LogsAdapterConfig} {r r' : DecodedLogRecord}

theorem sortingKey_eq_iff :
    sortingKey toDate (logRow config r) = sortingKey toDate (logRow config' r') ↔
      toDate r.timestampUnixNano = toDate r'.timestampUnixNano ∧
        r.serviceName.getD "" = r'.serviceName.getD "" ∧
        r.source.bufferSequence = r'.source.bufferSequence ∧
        r.source.entryIndex = r'.source.entryIndex ∧
        r.source.recordIndex = r'.source.recordIndex := by
  have shape : ∀ (config : LogsAdapterConfig) (r : DecodedLogRecord),
      sortingKey toDate (logRow config r) = [some (.inl (toDate r.timestampUnixNano)),
        some (.inr (.lowCardinalityString (r.serviceName.getD ""))),
        some (.inr (.uint64 r.source.bufferSequence)), some (.inr (.uint32 r.source.entryIndex)),
        some (.inr (.uint32 r.source.recordIndex))] := fun _ _ => rfl
  simp [shape]

theorem sourceName_eq_iff : sourceName (logRow config r) = sourceName (logRow config' r') ↔
    r.source.manifestPath = r'.source.manifestPath ∧
      r.source.bufferSequence = r'.source.bufferSequence ∧
      r.source.entryIndex = r'.source.entryIndex ∧
      r.source.recordIndex = r'.source.recordIndex := by
  have shape : ∀ (config : LogsAdapterConfig) (r : DecodedLogRecord),
      sourceName (logRow config r) = [some (.lowCardinalityString r.source.manifestPath),
        some (.uint64 r.source.bufferSequence), some (.uint32 r.source.entryIndex),
        some (.uint32 r.source.recordIndex)] := fun _ _ => rfl
  simp [shape]

end Key

end OpendataIngest.ClickHouse
