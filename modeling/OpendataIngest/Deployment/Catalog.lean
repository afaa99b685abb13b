import OpendataIngest.ClickHouse.AdapterPlan
import OpendataIngest.Deployment.World

/-!
# The inserts of a log

Decoding and planning are functions of a batch, so a site has one list of inserts for each
batch of its log, whichever incarnation sends them and however often.  No two inserts of a
site share a token, and a record's row is in exactly one insert, of its own batch.
-/

set_option autoImplicit false

namespace OpendataIngest.Deployment

open MachineInt OpendataIngest.Runtime Otel ClickHouse

variable {site : Site}

/-! ## The log -/

theorem BufferLog.unique (log : BufferLog) {left right : ConsumedBatch}
    (isLeft : left ∈ log.batches) (isRight : right ∈ log.batches)
    (same : left.sequence = right.sequence) : left = right := by
  have distinct : (log.batches.map ConsumedBatch.sequence).Nodup :=
    List.pairwise_map.mpr (log.ordered.imp fun less => ne_of_lt less)
  exact List.inj_on_of_nodup_map distinct isLeft isRight same

theorem BufferLog.batch?_eq_some {log : BufferLog} {sequence : U64} {batch : ConsumedBatch}
    (found : log.batch? sequence = some batch) :
    batch ∈ log.batches ∧ batch.sequence = sequence := by
  refine ⟨List.mem_of_find?_eq_some found, ?_⟩
  simpa using List.find?_some found

/-! ## Records of a batch -/

namespace Site

theorem decoded_eq_some {batch : ConsumedBatch} {records : List DecodedLogRecord}
    (decodes : site.decoded batch = some records) :
    decodeEntries site.build.prost (site.sourceBatch batch) (site.sourceBatch batch).entries =
      some (.ok records) := by
  unfold decoded at decodes
  split at decodes
  case h_1 decodedOne answered =>
    obtain ⟨found, rfl, ran⟩ := decode_records answered
    cases decodes
    exact ran
  case h_2 => cases decodes

theorem decoded_origin {batch : ConsumedBatch} {records : List DecodedLogRecord}
    (decodes : site.decoded batch = some records) :
    ∀ r ∈ records, r.source.bufferSequence = batch.sequence ∧
      r.source.manifestPath = site.manifestPath := by
  intro r member
  obtain ⟨entry, _, origin⟩ := (decodeEntries_records _ (decoded_eq_some decodes)).1 r member
  exact ⟨origin.sequence, origin.manifestPath⟩

/-- The coordinates name the records of a batch. -/
theorem decoded_coordinates_nodup {batch : ConsumedBatch} (member : batch ∈ site.log.batches)
    {records : List DecodedLogRecord} (decodes : site.decoded batch = some records) :
    (records.map DecodedLogRecord.coordinates).Nodup := by
  refine (decodeEntries_records _ (decoded_eq_some decodes)).2 ?_
  refine List.Nodup.of_map (fun index : U32 => index.val) ?_
  rw [List.map_map]
  have indices := splitEntries_entryIndex batch.metadata batch.entries 0 0
    (by have addressed := site.log.addressed batch member; omega)
  change ((splitEntries batch.metadata batch.entries 0 0).map fun e => e.entryIndex.val).Nodup
  rw [indices]
  exact List.nodup_range'

/-! ## Chunks of a batch -/

def rangeOf (batch : ConsumedBatch) : SequenceRange := ⟨batch.sequence, batch.sequence⟩

/-- What every commit of the batch is planned into.  The planner reads only the range of
the identity. -/
def chunks (site : Site) (batch : ConsumedBatch) : Option (List InsertChunk) :=
  (site.decoded batch).bind fun records =>
    match site.planner ⟨⟨site.source, ⟨""⟩, rangeOf batch, ⟨1⟩⟩, records⟩ with
    | some (.ok chunks) => some chunks
    | _ => none

theorem planner_range {identity identity' : CommitIdentity}
    (same : identity.range = identity'.range) (records : List DecodedLogRecord) :
    site.planner ⟨identity, records⟩ = site.planner ⟨identity', records⟩ := by
  simp only [planner, plan, planBuilt, same]

theorem chunks_eq_some {batch : ConsumedBatch} {chunks : List InsertChunk} :
    site.chunks batch = some chunks ↔ ∃ records, site.decoded batch = some records ∧
      ∀ identity : CommitIdentity, identity.range = rangeOf batch →
        site.planner ⟨identity, records⟩ = some (.ok chunks) := by
  unfold Site.chunks
  rw [Option.bind_eq_some_iff]
  constructor
  · rintro ⟨records, decodes, planned⟩
    refine ⟨records, decodes, fun identity isRange => ?_⟩
    split at planned
    case h_1 found plans =>
      cases planned
      rw [← plans]
      exact planner_range isRange records
    case h_2 => cases planned
  · rintro ⟨records, decodes, planned⟩
    refine ⟨records, decodes, ?_⟩
    rw [planned _ rfl]

/-- The chunks of a batch stay within their `u32` number, where the release build plans the
same. -/
theorem chunks_length {batch : ConsumedBatch} {chunks : List InsertChunk}
    (planned : site.chunks batch = some chunks) : chunks.length ≤ 2 ^ 32 := by
  obtain ⟨records, _, plans⟩ := chunks_eq_some.mp planned
  exact (plan_release (plans ⟨site.source, ⟨""⟩, rangeOf batch, ⟨1⟩⟩ rfl)).1

/-- The chunks of a batch as the planner numbers them. -/
theorem chunks_numbered {batch : ConsumedBatch} {chunks : List InsertChunk}
    (planned : site.chunks batch = some chunks) : ∃ slices,
      Numbered (emit site.adapter (chunkingFingerprint site.build.sha256Prefix site.adapter)
        site.manifestPath (rangeOf batch)) slices chunks := by
  obtain ⟨records, decodes, plans⟩ := chunks_eq_some.mp planned
  obtain ⟨slices, _, numbered⟩ := plan_numbered
    (fun r member => (decoded_origin decodes r member).2)
    (plans ⟨site.source, ⟨""⟩, rangeOf batch, ⟨1⟩⟩ rfl)
  exact ⟨slices, numbered⟩

theorem chunks_rows {batch : ConsumedBatch} {chunks : List InsertChunk}
    (planned : site.chunks batch = some chunks) : ∃ records,
      site.decoded batch = some records ∧
        (chunks.flatMap InsertChunk.rows).Perm (records.map (logRow site.adapter)) := by
  obtain ⟨records, decodes, plans⟩ := chunks_eq_some.mp planned
  exact ⟨records, decodes, plan_rows (fun r member => (decoded_origin decodes r member).2)
    (plans ⟨site.source, ⟨""⟩, rangeOf batch, ⟨1⟩⟩ rfl)⟩

end Site

/-! ## Inserts -/

/-- The insert that every request for the chunk carries. -/
def chunkInsert (chunk : InsertChunk) : Insert String Row :=
  ⟨if chunk.settings.applyDeduplicationToken then some chunk.settings.insertDeduplicationToken
    else none, chunk.rows⟩

theorem insertRequest_insert {chunk : InsertChunk} {body : InsertBody}
    (sameRows : body.rows = chunk.rows) :
    (insertRequest chunk body).insert = chunkInsert chunk := by
  simp only [insertRequest, InsertRequest.insert, chunkInsert, sameRows]

namespace Site

/-- The inserts a batch of the log can lead to. -/
def catalog (site : Site) (insert : Insert String Row) : Prop :=
  ∃ batch ∈ site.log.batches, ∃ chunks, site.chunks batch = some chunks ∧
    ∃ chunk ∈ chunks, insert = chunkInsert chunk

section Keyed

variable (tokens : site.adapter.applyDeduplicationToken = true)
include tokens

theorem chunk_token {batch : ConsumedBatch} {chunks : List InsertChunk}
    (planned : site.chunks batch = some chunks) {chunk : InsertChunk} (member : chunk ∈ chunks) :
    (chunkInsert chunk).token = some (buildToken site.manifestPath site.adapter
      (chunkingFingerprint site.build.sha256Prefix site.adapter) batch.sequence batch.sequence
      chunk.chunkIndex) := by
  obtain ⟨slices, numbered⟩ := chunks_numbered planned
  obtain ⟨slice, number, _, rfl, _⟩ := numbered.mem member
  exact if_pos tokens

/-- A token names its chunk. -/
theorem chunk_unique {batch batch' : ConsumedBatch} (isBatch : batch ∈ site.log.batches)
    (isBatch' : batch' ∈ site.log.batches) {chunks chunks' : List InsertChunk}
    (planned : site.chunks batch = some chunks) (planned' : site.chunks batch' = some chunks')
    {chunk chunk' : InsertChunk} (member : chunk ∈ chunks) (member' : chunk' ∈ chunks')
    (same : (chunkInsert chunk).token = (chunkInsert chunk').token) :
    batch = batch' ∧ chunk = chunk' := by
  rw [chunk_token tokens planned member, chunk_token tokens planned' member'] at same
  obtain ⟨sameSequence, _, sameNumber⟩ := buildToken_injective (Option.some.inj same)
  obtain rfl := site.log.unique isBatch isBatch' sameSequence
  rw [planned] at planned'
  cases planned'
  obtain ⟨slices, numbered⟩ := chunks_numbered planned
  exact ⟨rfl, numbered.injective member member' sameNumber⟩

theorem catalog_keyed : DedupStore.Keyed site.catalog where
  tokened := by
    rintro _ ⟨batch, _, chunks, planned, chunk, member, rfl⟩
    rw [chunk_token tokens planned member]
    rfl
  unique := by
    rintro _ _ ⟨batch, isBatch, chunks, planned, chunk, member, rfl⟩
      ⟨batch', isBatch', chunks', planned', chunk', member', rfl⟩ same
    rw [(chunk_unique tokens isBatch isBatch' planned planned' member member' same).2]

theorem chunkInserts_nodup {batch : ConsumedBatch} (isBatch : batch ∈ site.log.batches)
    {chunks : List InsertChunk} (planned : site.chunks batch = some chunks) :
    (chunks.map chunkInsert).Nodup := by
  obtain ⟨slices, numbered⟩ := chunks_numbered planned
  refine numbered.nodup.map_on fun left isLeft right isRight same => ?_
  exact (chunk_unique tokens isBatch isBatch planned planned isLeft isRight
    (congrArg Insert.token same)).2

end Keyed

/-! ## Rows and coordinates -/

theorem rowCoordinates_logRow (config : LogsAdapterConfig) (r : DecodedLogRecord) :
    rowCoordinates (logRow config r) = some r.coordinates := rfl

/-- Rows of a batch carry its sequence. -/
theorem chunk_row_sequence {batch : ConsumedBatch} {chunks : List InsertChunk}
    (planned : site.chunks batch = some chunks) {chunk : InsertChunk} (member : chunk ∈ chunks)
    {row : Row} (isRow : row ∈ chunk.rows) {c : U64 × U32 × U32}
    (coordinates : rowCoordinates row = some c) : c.1 = batch.sequence := by
  obtain ⟨records, decodes, sameRows⟩ := chunks_rows planned
  have inPlan : row ∈ records.map (logRow site.adapter) :=
    sameRows.mem_iff.mp (List.mem_flatMap.mpr ⟨chunk, member, isRow⟩)
  obtain ⟨r, isRecord, rfl⟩ := List.mem_map.mp inPlan
  rw [rowCoordinates_logRow] at coordinates
  cases coordinates
  exact (decoded_origin decodes r isRecord).1

/-- The rows of a batch with given coordinates are its records with these coordinates. -/
theorem countP_chunks {batch : ConsumedBatch} {chunks : List InsertChunk}
    {records : List DecodedLogRecord} (planned : site.chunks batch = some chunks)
    (decodes : site.decoded batch = some records) (c : U64 × U32 × U32) :
    ((chunks.map chunkInsert).map fun insert =>
      insert.rows.countP fun row => rowCoordinates row = some c).sum =
      (records.map DecodedLogRecord.coordinates).count c := by
  obtain ⟨records', decodes', sameRows⟩ := chunks_rows planned
  rw [decodes] at decodes'
  cases decodes'
  have flat : ((chunks.map chunkInsert).map fun insert =>
      insert.rows.countP fun row => rowCoordinates row = some c).sum =
      (chunks.flatMap InsertChunk.rows).countP fun row => rowCoordinates row = some c := by
    rw [List.countP_flatMap, List.map_map]
    rfl
  rw [flat, sameRows.countP_eq, List.countP_map, List.count, List.countP_map]
  refine List.countP_congr fun r _ => ?_
  simp [rowCoordinates_logRow]

end Site

end OpendataIngest.Deployment
