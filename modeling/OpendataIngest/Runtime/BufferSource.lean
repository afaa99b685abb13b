import OpendataIngest.Runtime.Types

/-!
# The buffer source

`BufferSource` and `split_into_raw_entries` of `source.rs`.  The buffer crate's
`Consumer` and `ConsumerFetchHandle` are outside the repository: what they answer is
an argument.  `flush_acks` awaits the consumer between taking the pending sequence
and looking at the answer, so it is a call and a return.
-/

set_option autoImplicit false

namespace OpendataIngest.Runtime

open MachineInt

/-- `buffer::BatchDescriptor`. -/
structure BatchDescriptor where
  sequence : U64
  location : String
  metadata : List Metadata
  deriving DecidableEq, Repr

/-- `buffer::ConsumedBatch`. -/
structure ConsumedBatch where
  entries : List Bytes
  sequence : U64
  location : String
  metadata : List Metadata
  deriving DecidableEq, Repr

/-! ## Entries and their metadata ranges -/

/-- The `while` loop of `split_into_raw_entries`: move to the last range that starts
at or before the entry.  At most one iteration for each metadata item. -/
def advanceRange (metadata : List Metadata) (entryIndex : Nat) : Nat → Nat → Nat
  | 0, rangeIdx => rangeIdx
  | fuel + 1, rangeIdx =>
      match metadata[rangeIdx + 1]? with
      | some next =>
          if next.startIndex.val ≤ entryIndex then
            advanceRange metadata entryIndex fuel (rangeIdx + 1)
          else rangeIdx
      | none => rangeIdx

def splitEntries (metadata : List Metadata) : List Bytes → Nat → Nat → List SourceEntry
  | [], _, _ => []
  | payload :: rest, i, rangeIdx =>
      -- `i as u32` truncates
      let entryIndex : U32 := Fin.ofNat (2 ^ 32) i
      let rangeIdx := advanceRange metadata entryIndex.val metadata.length rangeIdx
      let covering := match metadata[rangeIdx]? with
        | some m => (m.payload, m.ingestionTimeMs)
        | none => ([], 0)
      ⟨entryIndex, payload, covering.1, covering.2⟩ ::
        splitEntries metadata rest (i + 1) rangeIdx

def splitIntoRawEntries (batch : ConsumedBatch) (source : SourceId) (manifestPath : String) :
    SourceBatch where
  source := source
  sequence := batch.sequence
  manifestPath := manifestPath
  dataObjectPath := batch.location
  entries := splitEntries batch.metadata batch.entries 0 0

/-! ## Acks -/

structure BufferSource where
  id : SourceId
  manifestPath : String
  lastAcked : Option Nat
  pendingDurableAck : Option Nat
  deriving DecidableEq, Repr

namespace BufferSource

def new (id : SourceId) (manifestPath : String) (lastAckedSequence : Option Nat) :
    BufferSource :=
  ⟨id, manifestPath, lastAckedSequence, none⟩

def lastAckedSequence (b : BufferSource) : Option Nat := b.lastAcked

def nextDescriptors (b : BufferSource) (answer : Except BoxError (List BatchDescriptor)) :
    RuntimeResult (List SourceBatchDescriptor) :=
  match answer with
  | .error e => .error (.source e)
  | .ok raw => .ok (raw.map fun d => ⟨b.id, d.sequence, d.location, d.metadata⟩)

def fetch (source : SourceId) (manifestPath : String)
    (answer : Except BoxError ConsumedBatch) : RuntimeResult SourceBatch :=
  match answer with
  | .error e => .error (.source e)
  | .ok consumed => .ok (splitIntoRawEntries consumed source manifestPath)

def ackThrough (b : BufferSource) (sequence : Nat) : BufferSource :=
  { b with pendingDurableAck := some sequence, lastAcked := some sequence }

/-- `flush_acks` up to the consumer call: the sequence handed to the consumer, if
there is one. -/
def flushCall (b : BufferSource) : BufferSource × Option Nat :=
  ({ b with pendingDurableAck := none }, b.pendingDurableAck)

/-- `flush_acks` from the consumer's answer on. -/
def flushReturn (b : BufferSource) (sequence : Nat) (answer : Except BoxError Unit) :
    BufferSource × RuntimeResult Unit :=
  match answer with
  | .ok () => (b, .ok ())
  | .error e => ({ b with pendingDurableAck := some sequence }, .error (.source e))

end BufferSource

end OpendataIngest.Runtime
