import OpendataIngest.Lib.MachineInt

/-!
# Values that cross the runtime's boundaries

Identifiers, errors, source batches, decoded batches and sink commits, from
`source.rs`, `decoded_batch.rs`, `identity.rs`, `sink.rs` and `error.rs`.  A boxed
error is its text.  Decoded records stay behind the `TypedRecords` interface: the
runtime only counts them and asks for their size.
-/

set_option autoImplicit false

namespace OpendataIngest.Runtime

open MachineInt

structure SourceId where
  name : String
  deriving DecidableEq, Repr, Inhabited

instance : ToString SourceId := ⟨SourceId.name⟩

structure SinkId where
  name : String
  deriving DecidableEq, Repr, Inhabited

instance : ToString SinkId := ⟨SinkId.name⟩

abbrev BoxError : Type := String

inductive RuntimeError where
  | source (error : BoxError)
  | decoder (error : BoxError)
  | sink (error : BoxError)
  | idempotency (error : BoxError)
  | ack (message : String)
  | config (message : String)
  | unsupported (method : String)
  | pipeline (message : String)
  deriving DecidableEq, Repr

abbrev RuntimeResult (A : Type) : Type := Except RuntimeError A

abbrev Bytes : Type := List UInt8

/-! ## Source side -/

/-- One item of the buffer crate's batch metadata. -/
structure Metadata where
  startIndex : U32
  ingestionTimeMs : Int64
  payload : Bytes
  deriving DecidableEq, Repr

structure SourceBatchDescriptor where
  source : SourceId
  sequence : U64
  location : String
  bufferMetadata : List Metadata
  deriving DecidableEq, Repr

structure SourceEntry where
  entryIndex : U32
  rawBytes : Bytes
  rawMetadata : Bytes
  ingestionTimeMs : Int64
  deriving DecidableEq, Repr

structure SourceBatch where
  source : SourceId
  sequence : U64
  manifestPath : String
  dataObjectPath : String
  entries : List SourceEntry
  deriving DecidableEq, Repr

/-! ## Decoded side -/

structure SchemaVersion where
  version : U32
  deriving DecidableEq, Repr

structure TypedSchema where
  name : String
  version : SchemaVersion
  deriving DecidableEq, Repr

/-- `dyn TypedRecords`: what the runtime may ask of decoded records. -/
class TypedRecords (R : Type) where
  recordCount : R → Nat
  estimatedBytes : R → Nat
  schema : R → TypedSchema

/-- Records of which only the count and the size are known. -/
structure SizedRecords where
  count : Nat
  bytes : Nat
  deriving DecidableEq, Repr

instance : TypedRecords SizedRecords where
  recordCount records := records.count
  estimatedBytes records := records.bytes
  schema _ := ⟨"sized", ⟨1⟩⟩

structure SourceCoordinateColumns where
  manifestPath : String
  dataPath : String
  sequences : List U64
  entryIndices : List U32
  recordIndices : List U32
  ingestionTimeMs : List Int64
  deriving DecidableEq, Repr

structure BatchStats where
  sourceByteCount : Nat
  decodedByteEstimate : Nat
  deriving DecidableEq, Repr

structure DecodedBatch (R : Type) where
  source : SourceId
  lowSequence : U64
  highSequence : U64
  sourceEntryCount : U32
  records : R
  sourceColumns : SourceCoordinateColumns
  stats : BatchStats
  schemaVersion : SchemaVersion
  deriving DecidableEq, Repr

/-! ## Sink side -/

structure SequenceRange where
  low : U64
  high : U64
  deriving DecidableEq, Repr

structure CommitIdentity where
  source : SourceId
  sink : SinkId
  range : SequenceRange
  schemaVersion : SchemaVersion
  deriving DecidableEq, Repr

structure SinkCommit (R : Type) where
  identity : CommitIdentity
  batch : DecodedBatch R
  deriving DecidableEq, Repr

structure SinkCommitResult where
  bytesWritten : Nat
  rowsWritten : Nat
  deriving DecidableEq, Repr

inductive SinkCommitFailure where
  | notCommitted (error : BoxError)
  | maybeCommitted (error : BoxError)
  | fatal (error : BoxError)
  deriving DecidableEq, Repr

abbrev SinkWriteAnswer : Type := Except SinkCommitFailure SinkCommitResult

inductive CommitStatus where
  | committed
  | notCommitted
  | unknown
  deriving DecidableEq, Repr

end OpendataIngest.Runtime
