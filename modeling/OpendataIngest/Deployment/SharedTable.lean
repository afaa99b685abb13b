import OpendataIngest.ClickHouse.LogsTable
import OpendataIngest.Deployment.ExactlyOnce
import OpendataIngest.Lib.ReplacingMerge

/-!
# Several ingestors on one table

Any number of ingestors insert chunks into one table, under any adapter versions and
thresholds and any number of times.  A record is what its manifest's buffer holds at its
coordinates, so replays carry the same record.  The `ORDER BY` tuple has no manifest in it.
-/

set_option autoImplicit false

namespace OpendataIngest.Deployment

open MachineInt OpendataIngest.Runtime Otel ClickHouse ReplacingMerge SortCut

/-- The buffers behind the manifest paths, and the generated decoder. -/
structure Feed where
  log : String → BufferLog
  prost : Prost

/-- The record is decoded from a batch of its manifest's buffer. -/
def Feed.Holds (feed : Feed) (r : DecodedLogRecord) : Prop :=
  ∃ site : Site, site.log = feed.log site.manifestPath ∧ site.build.prost = feed.prost ∧
    ∃ batch ∈ site.log.batches, ∃ records, site.decoded batch = some records ∧ r ∈ records

/-- An insert into the table: a chunk of some ingestor's plan for records of its buffer. -/
structure TableInsert (feed : Feed) where
  build : Build
  adapter : LogsAdapterConfig
  batch : ClickHouseAdapterBatch
  chunks : List InsertChunk
  chunk : InsertChunk
  planned : plan build.sizeOfRecord build.sha256Prefix adapter batch = some (.ok chunks)
  member : chunk ∈ chunks
  decoded : ∀ r ∈ batch.records, feed.Holds r

variable {feed : Feed}

def tableRows (history : List (TableInsert feed)) : List Row :=
  history.flatMap fun insert => insert.chunk.rows

/-! ## Replays -/

/-- Decoding does not look at the source's name. -/
theorem decodeEntries_source (prost : Prost) (batch : ConsumedBatch) (source source' : SourceId)
    (manifestPath : String) (entries : List SourceEntry) :
    decodeEntries prost (splitIntoRawEntries batch source manifestPath) entries =
      decodeEntries prost (splitIntoRawEntries batch source' manifestPath) entries := by
  refine decodeEntries_congr ?_ ?_ prost entries
  · rfl
  · rfl

/-- Coordinates name one record of a feed. -/
theorem Feed.Holds.unique {r r' : DecodedLogRecord} (holds : feed.Holds r) (holds' : feed.Holds r')
    (samePath : r.source.manifestPath = r'.source.manifestPath)
    (same : r.coordinates = r'.coordinates) : r = r' := by
  obtain ⟨site, log, prost, batch, isBatch, records, decodes, isRecord⟩ := holds
  obtain ⟨site', log', prost', batch', isBatch', records', decodes', isRecord'⟩ := holds'
  obtain ⟨sequence, path⟩ := Site.decoded_origin decodes r isRecord
  obtain ⟨sequence', path'⟩ := Site.decoded_origin decodes' r' isRecord'
  have sameManifest : site.manifestPath = site'.manifestPath := by
    rw [← path, ← path', samePath]
  have sameBatch : batch = batch' := by
    rw [log', ← sameManifest, ← log] at isBatch'
    refine site.log.unique isBatch isBatch' ?_
    rw [← sequence, ← sequence']
    exact congrArg Prod.fst same
  subst sameBatch
  have sameRecords : records = records' := by
    have left := Site.decoded_eq_some decodes
    have right := Site.decoded_eq_some decodes'
    rw [prost', ← prost, Site.sourceBatch, ← sameManifest,
      decodeEntries_source _ _ site'.source site.source] at right
    rw [Site.sourceBatch] at left
    exact Except.ok.inj (Option.some.inj (left.symm.trans right))
  subst sameRecords
  exact List.inj_on_of_nodup_map (Site.decoded_coordinates_nodup isBatch decodes) isRecord
    isRecord' same

/-- An inserted row is the row of a record of the feed. -/
theorem mem_tableRows {history : List (TableInsert feed)} {row : Row}
    (isRow : row ∈ tableRows history) : ∃ config r, feed.Holds r ∧ row = logRow config r := by
  obtain ⟨insert, _, inChunk⟩ := List.mem_flatMap.mp isRow
  obtain ⟨manifestPath, shared, _, chunks⟩ := plan_ok insert.planned
  have planRow : row ∈ insert.chunks.flatMap InsertChunk.rows :=
    List.mem_flatMap.mpr ⟨insert.chunk, insert.member, inChunk⟩
  rw [(plan_rows shared insert.planned).mem_iff] at planRow
  obtain ⟨r, isRecord, rfl⟩ := List.mem_map.mp planRow
  exact ⟨insert.adapter, r, insert.decoded r isRecord, rfl⟩

/-! ## The merged table -/

section Merged

variable {D : Type} {toDate : U64 → D} {history : List (TableInsert feed)} {view : List Row}

/-- Rows of one record have one key. -/
theorem sortingKey_of_sourceName {left right : Row} (isLeft : left ∈ tableRows history)
    (isRight : right ∈ tableRows history) (same : sourceName left = sourceName right) :
    sortingKey toDate left = sortingKey toDate right := by
  obtain ⟨config, r, holds, rfl⟩ := mem_tableRows isLeft
  obtain ⟨config', r', holds', rfl⟩ := mem_tableRows isRight
  obtain ⟨samePath, sameSequence, sameEntry, sameIndex⟩ := sourceName_eq_iff.mp same
  have sameRecord : r = r' := by
    refine holds.unique holds' samePath ?_
    rw [DecodedLogRecord.coordinates, DecodedLogRecord.coordinates, sameSequence, sameEntry,
      sameIndex]
  subst sameRecord
  exact sortingKey_eq_iff.mpr ⟨rfl, rfl, rfl, rfl, rfl⟩

/-- Rows of one key differ in their manifest at most. -/
theorem sourceName_of_sortingKey {left right : Row} (isLeft : left ∈ tableRows history)
    (isRight : right ∈ tableRows history)
    (same : sortingKey toDate left = sortingKey toDate right) :
    sourceName left = sourceName right ↔
      columnOf "_odb_manifest_path" left = columnOf "_odb_manifest_path" right := by
  obtain ⟨config, r, _, rfl⟩ := mem_tableRows isLeft
  obtain ⟨config', r', _, rfl⟩ := mem_tableRows isRight
  obtain ⟨_, _, sameSequence, sameEntry, sameIndex⟩ := sortingKey_eq_iff.mp same
  have path : ∀ (config : LogsAdapterConfig) (r : DecodedLogRecord),
      columnOf "_odb_manifest_path" (logRow config r) =
        some (.lowCardinalityString r.source.manifestPath) := fun _ _ => rfl
  rw [sourceName_eq_iff, path, path]
  simp [sameSequence, sameEntry, sameIndex]

/-- The merged table has one row of highest version for each record exactly when rows of
one key come from one manifest. -/
theorem one_row_each_iff_manifests_apart
    (merged : MergedView (sortingKey toDate) versionOf (tableRows history) view) :
    OneRowEach versionOf sourceName (tableRows history) view ↔
      ∀ left ∈ tableRows history, ∀ right ∈ tableRows history,
        sortingKey toDate left = sortingKey toDate right →
          columnOf "_odb_manifest_path" left = columnOf "_odb_manifest_path" right := by
  rw [merged.oneRowEach_iff fun left isLeft right isRight =>
    sortingKey_of_sourceName isLeft isRight]
  constructor
  · intro apart left isLeft right isRight same
    exact (sourceName_of_sortingKey isLeft isRight same).mp (apart left isLeft right isRight same)
  · intro apart left isLeft right isRight same
    exact (sourceName_of_sortingKey isLeft isRight same).mpr (apart left isLeft right isRight same)

/-! ## One record in two manifests -/

/-- The date of a timestamp, in days since the epoch. -/
def utcDate (ns : U64) : Nat := ns.val / 86400000000000

/-- Every manifest's buffer holds the same single record. -/
def sameRecordFeed : Feed := ⟨fun _ => oneBatchSite.log, oneBatchSite.build.prost⟩

def recordOf (manifestPath : String) : DecodedLogRecord where
  source := ⟨0, 0, 0, manifestPath, "ingest/data/0.batch", 0⟩
  timestampUnixNano := 0
  observedTimestampUnixNano := 0
  severityNumber := 0
  severityText := ""
  body := ""
  serviceName := none
  resourceAttributes := SortedMap.empty
  scopeName := none
  logAttributes := SortedMap.empty
  traceIdHex := ""
  spanIdHex := ""

theorem sameRecordFeed_holds (manifestPath : String) :
    sameRecordFeed.Holds (recordOf manifestPath) :=
  ⟨{ oneBatchSite with manifestPath := manifestPath }, rfl, rfl, oneRecordBatch,
    List.mem_cons_self, [recordOf manifestPath], rfl, List.mem_cons_self⟩

def adapterOf (adapterVersion : U32) : LogsAdapterConfig :=
  { oneBatchSite.adapter with adapterVersion := adapterVersion }

/-- The digests for versions 1 and 2. -/
def digestOf (adapterVersion : U32) : String :=
  if adapterVersion = 1 then "112def59cfa4073f" else "84cee61c649f0e5e"

def chunkOf (manifestPath : String) (adapterVersion : U32) : InsertChunk :=
  emit (adapterOf adapterVersion) (digestOf adapterVersion) manifestPath ⟨0, 0⟩
    [recordOf manifestPath] 0

def insertOf (manifestPath : String) (adapterVersion : U32) : TableInsert sameRecordFeed where
  build := { oneBatchSite.build with sha256Prefix := fun _ => digestOf adapterVersion }
  adapter := adapterOf adapterVersion
  batch := ⟨⟨⟨"buffer"⟩, ⟨"clickhouse_logs"⟩, ⟨0, 0⟩, ⟨1⟩⟩, [recordOf manifestPath]⟩
  chunks := [chunkOf manifestPath adapterVersion]
  chunk := chunkOf manifestPath adapterVersion
  planned := by
    have shared : ∀ r ∈ [recordOf manifestPath], r.source.manifestPath = manifestPath := by
      intro r isRecord
      rw [List.mem_singleton.mp isRecord]
      rfl
    rw [plan_uniform shared]
    rfl
  member := List.mem_cons_self
  decoded r isRecord := by
    rw [List.mem_singleton.mp isRecord]
    exact sameRecordFeed_holds manifestPath

theorem one_row_each_iff_manifests_apart_replayed :
    let rows := tableRows [insertOf "ingest/a" 1, insertOf "ingest/a" 2, insertOf "ingest/a" 1]
    OneRowEach versionOf sourceName rows (merge (sortingKey utcDate) versionOf rows) :=
  (one_row_each_iff_manifests_apart (mergedView_merge _)).mpr (by decide)

/-- The record of the second manifest replaces that of the first one. -/
theorem second_manifest_replaces_first :
    let rows := tableRows [insertOf "ingest/a" 1, insertOf "ingest/b" 1]
    ¬ OneRowEach versionOf sourceName rows (merge (sortingKey utcDate) versionOf rows) := by
  intro rows each
  exact absurd each.once (by decide)

end Merged

end OpendataIngest.Deployment
