import OpendataIngest.Lib.Hex
import OpendataIngest.Lib.SortedMap
import OpendataIngest.Otel.Envelope
import OpendataIngest.Runtime.Pipeline.Workers
import Mathlib.Data.String.Basic

/-!
# The OTLP logs decoder

`logs.rs` of the OTLP plugin.  The generated protobuf types are cut down to the fields the
decoder reads, and a double is kept as the text `f64::to_string` gives it.  `prost` is the
generated decoder of one entry's payload; `σ` is `size_of::<DecodedLogRecord>()` of the
build.

The record index is a `u32`.  An entry of 2^32 log records has no result here, `none`: a build
with overflow checks panics at it, and the release build numbers on from 0.  Below that bound
the counter never overflows in either build.
-/

set_option autoImplicit false

namespace OpendataIngest.Otel

open MachineInt OpendataIngest.Runtime Hex

/-! ## The request -/

inductive Value where
  | stringValue (text : String)
  | boolValue (value : Bool)
  | intValue (value : Int)
  | doubleValue (text : String)
  | bytesValue (bytes : Bytes)
  | arrayValue
  | kvlistValue
  deriving DecidableEq

structure AnyValue where
  value : Option Value
  deriving DecidableEq

structure KeyValue where
  key : String
  value : Option AnyValue
  deriving DecidableEq

structure Resource where
  attributes : List KeyValue
  deriving DecidableEq

structure InstrumentationScope where
  name : String
  attributes : List KeyValue
  deriving DecidableEq

structure LogRecord where
  timeUnixNano : U64
  observedTimeUnixNano : U64
  severityNumber : Int
  severityText : String
  body : Option AnyValue
  attributes : List KeyValue
  traceId : Bytes
  spanId : Bytes
  deriving DecidableEq

structure ScopeLogs where
  scope : Option InstrumentationScope
  logRecords : List LogRecord
  deriving DecidableEq

structure ResourceLogs where
  resource : Option Resource
  scopeLogs : List ScopeLogs
  deriving DecidableEq

structure ExportLogsServiceRequest where
  resourceLogs : List ResourceLogs
  deriving DecidableEq

/-! ## Decoded records -/

abbrev Attributes : Type := SortedMap String String

structure RowSourceCoordinates where
  bufferSequence : U64
  entryIndex : U32
  recordIndex : U32
  manifestPath : String
  dataPath : String
  ingestionTimeMs : Int64
  deriving DecidableEq

structure DecodedLogRecord where
  source : RowSourceCoordinates
  timestampUnixNano : U64
  observedTimestampUnixNano : U64
  severityNumber : Int
  severityText : String
  body : String
  serviceName : Option String
  resourceAttributes : Attributes
  scopeName : Option String
  logAttributes : Attributes
  traceIdHex : String
  spanIdHex : String

def optionalBytes (text : Option String) : Nat := (text.map String.utf8ByteSize).getD 0

def attributeBytes (attributes : Attributes) : Nat :=
  (attributes.entries.map fun entry => entry.1.utf8ByteSize + entry.2.utf8ByteSize).sum

def DecodedLogRecord.approxSizeBytes (σ : Nat) (r : DecodedLogRecord) : Nat :=
  σ + r.severityText.utf8ByteSize + r.body.utf8ByteSize + optionalBytes r.serviceName +
    optionalBytes r.scopeName + (r.traceIdHex.utf8ByteSize + r.spanIdHex.utf8ByteSize) +
    attributeBytes r.resourceAttributes + attributeBytes r.logAttributes

def otlpLogsSchemaName : String := "opendata.otel.logs.v1"

/-- The records as one build hands them on. -/
structure TypedDecodedLogs (σ : Nat) where
  records : List DecodedLogRecord

instance (σ : Nat) : TypedRecords (TypedDecodedLogs σ) where
  recordCount logs := logs.records.length
  estimatedBytes logs := (logs.records.map (DecodedLogRecord.approxSizeBytes σ)).sum
  schema _ := ⟨otlpLogsSchemaName, ⟨1⟩⟩

/-! ## Values as text -/

def hexEncode (bytes : Bytes) : String := String.ofList (bytes.flatMap (hexByte .lower))

def stringValue (value : Option AnyValue) : Option String :=
  match value.bind AnyValue.value with
  | some (.stringValue s) => some s
  | some (.boolValue b) => some (if b then "true" else "false")
  | some (.intValue i) => some (toString i)
  | some (.doubleValue text) => some text
  | some (.bytesValue bytes) => some (hexEncode bytes)
  | some .arrayValue => some "<complex>"
  | some .kvlistValue => some "<complex>"
  | none => none

def anyValueToString (value : Option AnyValue) : String := (stringValue value).getD ""

def mergeAttributes (src : List KeyValue) (dst : Attributes) : Attributes :=
  src.foldl (fun dst kv => match stringValue kv.value with
    | some value => dst.insert kv.key value
    | none => dst) dst

/-- The resource's attributes, and its `service.name` if it has one. -/
def resourceFields (attributes : List KeyValue) : Attributes × Option String :=
  attributes.foldl (fun fields kv => match stringValue kv.value with
    | some value => (fields.1.insert kv.key value,
        if kv.key = "service.name" then some value else fields.2)
    | none => fields) (SortedMap.empty, none)

/-! ## Decoding an entry -/

/-- `+= 1` on a `u32`. -/
def increment (n : U32) : Option U32 :=
  if fits : n.val + 1 < 2 ^ 32 then some ⟨n.val + 1, fits⟩ else none

section Entry

variable (batch : SourceBatch) (entry : SourceEntry)

def decodeRecord (resource : Attributes × Option String) (scope : Option InstrumentationScope)
    (log : LogRecord) (recordIndex : U32) : DecodedLogRecord where
  source := {
    bufferSequence := batch.sequence
    entryIndex := entry.entryIndex
    recordIndex := recordIndex
    manifestPath := batch.manifestPath
    dataPath := batch.dataObjectPath
    ingestionTimeMs := entry.ingestionTimeMs }
  timestampUnixNano := log.timeUnixNano
  observedTimestampUnixNano := log.observedTimeUnixNano
  severityNumber := log.severityNumber
  severityText := log.severityText
  body := anyValueToString log.body
  serviceName := resource.2
  resourceAttributes := resource.1
  scopeName := scope.map InstrumentationScope.name
  logAttributes :=
    -- the scope's attributes are merged over the record's own
    let own := mergeAttributes log.attributes SortedMap.empty
    match scope with
    | some scope => mergeAttributes scope.attributes own
    | none => own
  traceIdHex := hexEncode log.traceId
  spanIdHex := hexEncode log.spanId

def decodeLogRecords (resource : Attributes × Option String)
    (scope : Option InstrumentationScope) :
    List LogRecord → U32 → Option (List DecodedLogRecord × U32)
  | [], recordIndex => some ([], recordIndex)
  | log :: rest, recordIndex =>
      (increment recordIndex).bind fun next =>
        (decodeLogRecords resource scope rest next).map fun tail =>
          (decodeRecord batch entry resource scope log recordIndex :: tail.1, tail.2)

def decodeScopeLogs (resource : Attributes × Option String) :
    List ScopeLogs → U32 → Option (List DecodedLogRecord × U32)
  | [], recordIndex => some ([], recordIndex)
  | scopeLogs :: rest, recordIndex =>
      (decodeLogRecords batch entry resource scopeLogs.scope scopeLogs.logRecords
        recordIndex).bind fun head =>
          (decodeScopeLogs resource rest head.2).map fun tail => (head.1 ++ tail.1, tail.2)

def decodeResourceLogs : List ResourceLogs → U32 → Option (List DecodedLogRecord × U32)
  | [], recordIndex => some ([], recordIndex)
  | resourceLogs :: rest, recordIndex =>
      let fields := match resourceLogs.resource with
        | some resource => resourceFields resource.attributes
        | none => (SortedMap.empty, none)
      (decodeScopeLogs batch entry fields resourceLogs.scopeLogs recordIndex).bind fun head =>
        (decodeResourceLogs rest head.2).map fun tail => (head.1 ++ tail.1, tail.2)

end Entry

inductive OtelDecodeError where
  | logs (sequence : U64) (entryIndex : U32) (source : String)
  deriving DecidableEq

def OtelDecodeError.text : OtelDecodeError → String
  | .logs sequence entryIndex source =>
      s!"OTLP logs decode failed for sequence={sequence.val} " ++
        s!"entry_index={entryIndex.val}: {source}"

abbrev Prost : Type := Bytes → Except String ExportLogsServiceRequest

variable (prost : Prost)

def decodeEntry (batch : SourceBatch) (entry : SourceEntry) :
    Option (Except OtelDecodeError (List DecodedLogRecord)) :=
  match prost entry.rawBytes with
  | .error e => some (.error (.logs batch.sequence entry.entryIndex e))
  | .ok request =>
      (decodeResourceLogs batch entry request.resourceLogs 0).map fun decoded => .ok decoded.1

def decodeEntries (batch : SourceBatch) :
    List SourceEntry → Option (Except OtelDecodeError (List DecodedLogRecord))
  | [] => some (.ok [])
  | entry :: rest =>
      match decodeEntry prost batch entry with
      | none => none
      | some (.error e) => some (.error e)
      | some (.ok records) =>
          match decodeEntries batch rest with
          | none => none
          | some (.error e) => some (.error e)
          | some (.ok later) => some (.ok (records ++ later))

def decodeLogs (batch : SourceBatch) : Option (Except OtelDecodeError (List DecodedLogRecord)) :=
  decodeEntries prost batch batch.entries

/-! ## The decoder -/

/-- `OtlpLogsDecoder::new`. -/
def expected : ConfiguredEnvelope := ⟨1, .logs, .otlpProtobuf⟩

def accepts (rawMetadata : Bytes) : Bool :=
  match decodeEnvelope 0 rawMetadata with
  | .ok env => expected.matches env
  | .error _ => false

def coordinateColumns (batch : SourceBatch) (records : List DecodedLogRecord) :
    SourceCoordinateColumns where
  manifestPath := batch.manifestPath
  dataPath := batch.dataObjectPath
  sequences := records.map fun r => r.source.bufferSequence
  entryIndices := records.map fun r => r.source.entryIndex
  recordIndices := records.map fun r => r.source.recordIndex
  ingestionTimeMs := records.map fun r => r.source.ingestionTimeMs

def decodedBatch (σ : Nat) (batch : SourceBatch) (records : List DecodedLogRecord) :
    DecodedBatch (TypedDecodedLogs σ) where
  source := batch.source
  lowSequence := batch.sequence
  highSequence := batch.sequence
  sourceEntryCount := Fin.ofNat (2 ^ 32) batch.entries.length
  records := ⟨records⟩
  sourceColumns := coordinateColumns batch records
  stats := ⟨0, (records.map (DecodedLogRecord.approxSizeBytes σ)).sum⟩
  schemaVersion := ⟨1⟩

/-- `OtlpLogsDecoder::decode`. -/
def decode (σ : Nat) (batch : SourceBatch) :
    Option (RuntimeResult (List (DecodedBatch (TypedDecodedLogs σ)))) :=
  match decodeEnvelopes batch.entries with
  | .error e => some (.error (.decoder e.text))
  | .ok envelopes =>
      match validateConsistent envelopes expected with
      | .error e => some (.error (.decoder e.text))
      | .ok _ =>
          match decodeLogs prost batch with
          | none => none
          | some (.error e) => some (.error (.decoder e.text))
          | some (.ok records) => some (.ok [decodedBatch σ batch records])

end OpendataIngest.Otel
