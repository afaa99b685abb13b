import OpendataIngest.ClickHouse.Sink
import OpendataIngest.Otel.Coordinates
import OpendataIngest.Runtime.Pipeline.System

/-!
# The ingestor in its surroundings

Incarnations of the ingestor between one buffer and one ClickHouse table.  The buffer
hands out the sequences above the cursor in order; the cursor of a new incarnation is the
durable ack.  The server handles a request once, at any time after it was sent, and
answers 2xx only to one it has handled; every other outcome is possible at any time.  An
ack that was passed to the consumer may become durable at any later time.

A crash is a restart from any state.  Requests and acks under way survive it.

What is said of a batch is said within the `u32` counters: each of its entries has fewer than
2^32 log records and its plan at most 2^32 chunks (`decodeEntry_length`, `Site.chunks_length`).
For a batch beyond them the world has no step.
-/

set_option autoImplicit false

namespace OpendataIngest.Deployment

open MachineInt OpendataIngest.Runtime Pipeline Otel ClickHouse

/-- What a build fixes: the size of a record, the digest and the generated decoder. -/
structure Build where
  sizeOfRecord : Nat
  sha256Prefix : String → String
  prost : Prost

/-- All batches the producers ever write.  The buffer addresses the entries of a batch by
`u32`. -/
structure BufferLog where
  batches : List ConsumedBatch
  ordered : batches.Pairwise fun left right => left.sequence < right.sequence
  addressed : ∀ batch ∈ batches, batch.entries.length ≤ 2 ^ 32

structure Site where
  build : Build
  source : SourceId
  manifestPath : String
  adapter : LogsAdapterConfig
  log : BufferLog

namespace Site

abbrev Logs (site : Site) : Type := TypedDecodedLogs site.build.sizeOfRecord

def planner (site : Site) : Planner :=
  plan site.build.sizeOfRecord site.build.sha256Prefix site.adapter

end Site

/-- The settings an operator may change between two runs. -/
structure Incarnation (site : Site) where
  runtime : Config
  writer : WriterConfig
  sameSource : runtime.source = site.source
  sameManifest : runtime.manifestPath = site.manifestPath

/-- `calls` are the sink calls of the writer workers.  `ackCalls` are the acks earlier
incarnations passed to the consumer. -/
structure World (site : Site) where
  incarnation : Incarnation site
  pipeline : State site.Logs
  calls : Nat → Option SinkCall
  cursor : Option Nat
  durableAck : Option U64
  ackCalls : List Nat
  server : DedupStore String Row

variable {site : Site}

/-- A process that has just started. -/
def boot (incarnation : Incarnation site) (durableAck : Option U64) (ackCalls : List Nat)
    (server : DedupStore String Row) : World site where
  incarnation := incarnation
  pipeline := State.start incarnation.runtime
  calls := fun _ => none
  cursor := durableAck.map Fin.val
  durableAck := durableAck
  ackCalls := ackCalls
  server := server

/-! ## The buffer -/

def isAbove (cursor : Option Nat) (sequence : Nat) : Bool :=
  match cursor with
  | some last => decide (last < sequence)
  | none => true

/-- The batches the buffer has still to hand out. -/
def BufferLog.rest (log : BufferLog) (cursor : Option Nat) : List ConsumedBatch :=
  log.batches.filter fun batch => isAbove cursor batch.sequence.val

def BufferLog.batch? (log : BufferLog) (sequence : U64) : Option ConsumedBatch :=
  log.batches.find? fun batch => batch.sequence = sequence

def descriptorOf (batch : ConsumedBatch) : BatchDescriptor :=
  ⟨batch.sequence, batch.location, batch.metadata⟩

def consumerAcks (history : List Event) : List Nat :=
  history.filterMap fun event => match event with
    | .consumerAckCalled sequence => some sequence
    | _ => none

/-! ## Steps -/

inductive WorldAction (site : Site) where
  | runtime (action : Action site.Logs)
  | poll (count : Nat)
  | fetch (worker : Nat)
  | decode (worker : Nat)
  | beginWrite (worker : Nat)
  | post (worker : Nat)
  | clientFails (worker : Nat) (message : String)
  | respond (worker : Nat) (outcome : HttpOutcome)
  | retry (worker : Nat)
  | endWrite (worker : Nat)
  | check (worker : Nat)
  | handle (request : Nat)
  | persistAck (sequence : U64)
  | ackReturns
  | restart (incarnation : Incarnation site)

/-- The runtime's own steps, and errors of its surroundings.  What the buffer, the decoder
and the sink answer otherwise has actions of its own. -/
def isInternal {R : Type} : Action R → Bool
  | .actor (.nextDescriptors (.ok _)) => false
  | .actor (.flushed (.ok _)) => false
  | .fetch _ (.answer (.ok _)) => false
  | .decode _ (.decode _) => false
  | .writer _ (.write _) => false
  | .writer _ (.check _) => false
  | _ => true

/-- A step of a writer ends whatever call it had. -/
def endCalls (calls : Nat → Option SinkCall) {R : Type} : Action R → Nat → Option SinkCall
  | .writer i _ => Function.update calls i none
  | _ => calls

namespace World

def advance (w : World site) (action : Action site.Logs) : Option (World site) :=
  (Pipeline.step w.incarnation.runtime w.pipeline action).map fun next =>
    { w with pipeline := next, calls := endCalls w.calls action }

def setCall (w : World site) (worker : Nat) (call : SinkCall) : World site :=
  { w with calls := Function.update w.calls worker (some call) }

def step (w : World site) : WorldAction site → Option (World site)
  | .runtime action => if isInternal action then w.advance action else none
  | .poll count =>
      let handed := (site.log.rest w.cursor).take count
      (w.advance (.actor (.nextDescriptors (.ok (handed.map descriptorOf))))).map fun next =>
        { next with cursor := (handed.getLast?.map fun batch => batch.sequence.val) <|> w.cursor }
  | .fetch i =>
      match w.pipeline.fetchers[i]? with
      | some (.fetching unit) =>
          (site.log.batch? unit.descriptor.sequence).bind fun batch =>
            w.advance (.fetch i (.answer (.ok batch)))
      | _ => none
  | .decode i =>
      match w.pipeline.decoders[i]? with
      | some (.decoding unit) =>
          (Otel.decode site.build.prost site.build.sizeOfRecord unit.sourceBatch).bind
            fun answer => w.advance (.decode i (.decode ⟨accepts, fun _ => answer⟩))
      | _ => none
  | .beginWrite i =>
      match w.pipeline.writers[i]?, w.calls i with
      | some (.writing _ unit), none =>
          (ClickHouse.beginWrite site.planner w.incarnation.writer unit.commit).map
            fun call => w.setCall i call
      | _, _ => none
  | .post i =>
      match w.calls i with
      | some (.running planned (.posting attempt body chunk rest) _) =>
          some { w.setCall i (.running planned (.awaiting attempt body chunk rest)
              (some w.server.requests.length)) with
            server := w.server.send (insertRequest chunk body).insert }
      | _ => none
  | .clientFails i message =>
      match w.calls i with
      | some (.running planned (.posting attempt body chunk rest) _) =>
          some (w.setCall i (.running planned (afterAttempt w.incarnation.writer attempt body chunk
            rest (.error (.nonRetryable s!"reqwest client: {message}"))) none))
      | _ => none
  | .respond i outcome =>
      match w.calls i with
      | some (.running planned (.awaiting attempt body chunk rest) (some request)) =>
          if outcome.isSuccess ∧ !w.server.isHandled request then none
          else some (w.setCall i (.running planned (afterAttempt w.incarnation.writer attempt body
            chunk rest (executeOnce outcome)) none))
      | _ => none
  | .retry i =>
      match w.calls i with
      | some (.running planned (.backingOff attempt body chunk rest) _) =>
          some (w.setCall i (.running planned (.posting (attempt + 1) body chunk rest) none))
      | _ => none
  | .endWrite i =>
      ((w.calls i).bind SinkCall.answer?).bind fun answer =>
        w.advance (.writer i (.write answer))
  | .check i =>
      match w.pipeline.writers[i]? with
      | some (.checking _ unit _) =>
          w.advance (.writer i (.check (checkCommitted unit.commit.identity)))
      | _ => none
  | .handle request => (w.server.handle request).map fun server => { w with server := server }
  | .persistAck sequence =>
      if sequence.val ∈ w.ackCalls ∨
          sequence.val ∈ consumerAcks w.pipeline.shared.history then
        some { w with durableAck := some sequence }
      else none
  | .ackReturns =>
      match w.pipeline.actor.point with
      | .flushing sequence _ | .finalFlush sequence =>
          if w.durableAck.map Fin.val = some sequence then w.advance (.actor (.flushed (.ok ())))
          else none
      | _ => none
  | .restart incarnation =>
      some (boot incarnation w.durableAck (w.ackCalls ++ consumerAcks w.pipeline.shared.history)
        w.server)

end World

/-- Any number of incarnations, the first one on an empty table. -/
def machine (first : Incarnation site) : Machine (World site) (WorldAction site) where
  start := boot first none [] DedupStore.empty
  step := World.step

/-! ## What the table should hold -/

namespace Site

def sourceBatch (site : Site) (batch : ConsumedBatch) : SourceBatch :=
  splitIntoRawEntries batch site.source site.manifestPath

/-- The records of a batch, if it decodes. -/
def decoded (site : Site) (batch : ConsumedBatch) : Option (List DecodedLogRecord) :=
  match Otel.decode site.build.prost site.build.sizeOfRecord (site.sourceBatch batch) with
  | some (.ok [decoded]) => some decoded.records.records
  | _ => none

end Site

/-- The coordinate columns of a row. -/
def rowCoordinates (row : Row) : Option (U64 × U32 × U32) :=
  match row[10]?, row[11]?, row[12]? with
  | some (RowValue.uint64 sequence), some (RowValue.uint32 entryIndex),
      some (RowValue.uint32 recordIndex) =>
      some (sequence, entryIndex, recordIndex)
  | _, _, _ => none

/-- How many rows of the table carry these coordinates. -/
def World.rowsAt (w : World site) (c : U64 × U32 × U32) : Nat :=
  w.server.table.countP fun row => rowCoordinates row = some c

end OpendataIngest.Deployment
