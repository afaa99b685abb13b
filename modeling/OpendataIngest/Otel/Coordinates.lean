import OpendataIngest.Otel.Logs

/-!
# Coordinates of decoded records

Every record carries the sequence of its batch, the index of its entry and its own index
within the entry.  The indices of an entry's records are consecutive, so no two records of
a batch share their coordinates as long as no two entries share an index.
-/

set_option autoImplicit false

namespace OpendataIngest.Otel

open MachineInt OpendataIngest.Runtime

/-- The triple that names a record. -/
def DecodedLogRecord.coordinates (r : DecodedLogRecord) : U64 × U32 × U32 :=
  (r.source.bufferSequence, r.source.entryIndex, r.source.recordIndex)

/-! ## One entry -/

structure OfEntry (batch : SourceBatch) (entry : SourceEntry) (r : DecodedLogRecord) : Prop where
  sequence : r.source.bufferSequence = batch.sequence
  manifestPath : r.source.manifestPath = batch.manifestPath
  entryIndex : r.source.entryIndex = entry.entryIndex

/-- The records `decoded.1` of an entry, numbered from `start` up to `decoded.2`. -/
structure NumberedRecords (batch : SourceBatch) (entry : SourceEntry) (start : U32)
    (decoded : List DecodedLogRecord × U32) : Prop where
  origin : ∀ r ∈ decoded.1, OfEntry batch entry r
  indices : decoded.1.map (fun r => r.source.recordIndex.val) =
    List.range' start.val decoded.1.length
  stop : decoded.2.val = start.val + decoded.1.length

section Entry

variable {batch : SourceBatch} {entry : SourceEntry}

theorem numberedRecords_nil (start : U32) : NumberedRecords batch entry start ([], start) where
  origin := nofun
  indices := rfl
  stop := rfl

theorem NumberedRecords.append {start : U32} {head tail : List DecodedLogRecord × U32}
    (first : NumberedRecords batch entry start head)
    (second : NumberedRecords batch entry head.2 tail) :
    NumberedRecords batch entry start (head.1 ++ tail.1, tail.2) where
  origin r member := by
    rcases List.mem_append.mp member with early | late
    · exact first.origin r early
    · exact second.origin r late
  indices := by
    rw [List.map_append, first.indices, second.indices, first.stop, List.length_append,
      List.range'_append_1]
  stop := by
    rw [second.stop, first.stop, List.length_append, Nat.add_assoc]

theorem increment_val {n next : U32} (fits : increment n = some next) : next.val = n.val + 1 := by
  unfold increment at fits
  split_ifs at fits
  cases fits
  rfl

theorem decodeLogRecords_numbered {resource : Attributes × Option String}
    {scope : Option InstrumentationScope} (logs : List LogRecord) {start : U32}
    {decoded : List DecodedLogRecord × U32}
    (ran : decodeLogRecords batch entry resource scope logs start = some decoded) :
    NumberedRecords batch entry start decoded := by
  induction logs generalizing start decoded with
  | nil =>
      cases ran
      exact numberedRecords_nil start
  | cons log rest ih =>
      obtain ⟨next, fits, later⟩ := Option.bind_eq_some_iff.mp ran
      obtain ⟨tail, decodes, rfl⟩ := Option.map_eq_some_iff.mp later
      have single : NumberedRecords batch entry start
          ([decodeRecord batch entry resource scope log start], next) := by
        refine ⟨fun r member => ?_, rfl, increment_val fits⟩
        rw [List.mem_singleton.mp member]
        exact ⟨rfl, rfl, rfl⟩
      exact single.append (ih decodes)

theorem decodeScopeLogs_numbered {resource : Attributes × Option String}
    (scopes : List ScopeLogs) {start : U32} {decoded : List DecodedLogRecord × U32}
    (ran : decodeScopeLogs batch entry resource scopes start = some decoded) :
    NumberedRecords batch entry start decoded := by
  induction scopes generalizing start decoded with
  | nil =>
      cases ran
      exact numberedRecords_nil start
  | cons scope rest ih =>
      obtain ⟨head, first, later⟩ := Option.bind_eq_some_iff.mp ran
      obtain ⟨tail, decodes, rfl⟩ := Option.map_eq_some_iff.mp later
      exact (decodeLogRecords_numbered _ first).append (ih decodes)

theorem decodeResourceLogs_numbered (resources : List ResourceLogs) {start : U32}
    {decoded : List DecodedLogRecord × U32}
    (ran : decodeResourceLogs batch entry resources start = some decoded) :
    NumberedRecords batch entry start decoded := by
  induction resources generalizing start decoded with
  | nil =>
      cases ran
      exact numberedRecords_nil start
  | cons resource rest ih =>
      obtain ⟨head, first, later⟩ := Option.bind_eq_some_iff.mp ran
      obtain ⟨tail, decodes, rfl⟩ := Option.map_eq_some_iff.mp later
      exact (decodeScopeLogs_numbered _ first).append (ih decodes)

theorem decodeEntry_numbered {prost : Prost} {records : List DecodedLogRecord}
    (decoded : decodeEntry prost batch entry = some (.ok records)) :
    ∃ stop, NumberedRecords batch entry 0 (records, stop) := by
  unfold decodeEntry at decoded
  split at decoded
  · cases decoded
  · obtain ⟨⟨_, stop⟩, ran, result⟩ := Option.map_eq_some_iff.mp decoded
    cases result
    exact ⟨stop, decodeResourceLogs_numbered _ ran⟩

/-- A decoded entry has fewer than 2^32 records. -/
theorem decodeEntry_length {prost : Prost} {records : List DecodedLogRecord}
    (decoded : decodeEntry prost batch entry = some (.ok records)) : records.length < 2 ^ 32 := by
  obtain ⟨stop, numbered⟩ := decodeEntry_numbered decoded
  have below := stop.isLt
  have atStop : stop.val = 0 + records.length := numbered.stop
  omega

theorem NumberedRecords.coordinates_nodup {start stop : U32} {records : List DecodedLogRecord}
    (numbered : NumberedRecords batch entry start (records, stop)) :
    (records.map DecodedLogRecord.coordinates).Nodup := by
  have distinct : (records.map fun r => r.source.recordIndex.val).Nodup := by
    rw [numbered.indices]
    exact List.nodup_range'
  refine List.Nodup.of_map (fun c : U64 × U32 × U32 => c.2.2.val) ?_
  rw [List.map_map]
  exact distinct

end Entry

/-! ## What decoding reads of a batch -/

section Reads

variable {batch batch' : SourceBatch} (sameRecord : decodeRecord batch = decodeRecord batch')
include sameRecord

theorem decodeLogRecords_congr (entry : SourceEntry) (resource : Attributes × Option String)
    (scope : Option InstrumentationScope) (logs : List LogRecord) (start : U32) :
    decodeLogRecords batch entry resource scope logs start =
      decodeLogRecords batch' entry resource scope logs start := by
  induction logs generalizing start with
  | nil => rfl
  | cons log rest ih => simp only [decodeLogRecords, sameRecord, ih]

theorem decodeScopeLogs_congr (entry : SourceEntry) (resource : Attributes × Option String)
    (scopes : List ScopeLogs) (start : U32) :
    decodeScopeLogs batch entry resource scopes start =
      decodeScopeLogs batch' entry resource scopes start := by
  induction scopes generalizing start with
  | nil => rfl
  | cons scope rest ih => simp only [decodeScopeLogs, decodeLogRecords_congr sameRecord, ih]

theorem decodeResourceLogs_congr (entry : SourceEntry) (resources : List ResourceLogs)
    (start : U32) :
    decodeResourceLogs batch entry resources start =
      decodeResourceLogs batch' entry resources start := by
  induction resources generalizing start with
  | nil => rfl
  | cons resource rest ih => simp only [decodeResourceLogs, decodeScopeLogs_congr sameRecord, ih]

theorem decodeEntries_congr (sameSequence : batch.sequence = batch'.sequence) (prost : Prost)
    (entries : List SourceEntry) :
    decodeEntries prost batch entries = decodeEntries prost batch' entries := by
  induction entries with
  | nil => rfl
  | cons entry rest ih =>
      simp only [decodeEntries, decodeEntry, decodeResourceLogs_congr sameRecord, sameSequence, ih]

end Reads

/-! ## A batch -/

theorem decodeEntries_records {prost : Prost} {batch : SourceBatch} (entries : List SourceEntry)
    {records : List DecodedLogRecord}
    (decoded : decodeEntries prost batch entries = some (.ok records)) :
    (∀ r ∈ records, ∃ entry ∈ entries, OfEntry batch entry r) ∧
      ((entries.map SourceEntry.entryIndex).Nodup →
        (records.map DecodedLogRecord.coordinates).Nodup) := by
  induction entries generalizing records with
  | nil =>
      cases decoded
      exact ⟨nofun, fun _ => List.nodup_nil⟩
  | cons entry rest ih =>
      unfold decodeEntries at decoded
      split at decoded
      · cases decoded
      · cases decoded
      · rename_i first decodesFirst
        split at decoded
        · cases decoded
        · cases decoded
        · rename_i later decodesRest
          cases decoded
          obtain ⟨stop, numbered⟩ := decodeEntry_numbered decodesFirst
          obtain ⟨origins, distinctRest⟩ := ih decodesRest
          refine ⟨?_, fun distinct => ?_⟩
          · intro r member
            rcases List.mem_append.mp member with early | late
            · exact ⟨entry, List.mem_cons_self, numbered.origin r early⟩
            · obtain ⟨other, inRest, origin⟩ := origins r late
              exact ⟨other, List.mem_cons_of_mem entry inRest, origin⟩
          · obtain ⟨fresh, distinctEntries⟩ := List.nodup_cons.mp distinct
            rw [List.map_append]
            refine List.nodup_append.mpr ⟨numbered.coordinates_nodup,
              distinctRest distinctEntries, ?_⟩
            rintro _ early _ late rfl
            obtain ⟨r, inFirst, rfl⟩ := List.mem_map.mp early
            obtain ⟨r', inLater, same⟩ := List.mem_map.mp late
            obtain ⟨other, inRest, origin⟩ := origins r' inLater
            -- equal coordinates would put both records in one entry
            have sameIndex : r'.source.entryIndex = r.source.entryIndex :=
              congrArg (fun c : U64 × U32 × U32 => c.2.1) same
            refine fresh (List.mem_map.mpr ⟨other, inRest, ?_⟩)
            rw [← origin.entryIndex, sameIndex, (numbered.origin r inFirst).entryIndex]

theorem splitEntries_entryIndex (metadata : List Metadata) (payloads : List Bytes)
    (i rangeIdx : Nat) (addressed : i + payloads.length ≤ 2 ^ 32) :
    (splitEntries metadata payloads i rangeIdx).map (fun e => e.entryIndex.val) =
      List.range' i payloads.length := by
  induction payloads generalizing i rangeIdx with
  | nil => rfl
  | cons payload rest ih =>
      rw [List.length_cons] at addressed
      simp only [splitEntries, List.map_cons, List.length_cons, List.range'_succ]
      rw [ih (i + 1) _ (by omega)]
      congr 1
      exact Nat.mod_eq_of_lt (by omega)

/-- What a decoded batch holds. -/
theorem decode_records {prost : Prost} {σ : Nat} {batch : SourceBatch}
    {decoded : DecodedBatch (TypedDecodedLogs σ)}
    (decodes : decode prost σ batch = some (.ok [decoded])) :
    ∃ records, decoded = decodedBatch σ batch records ∧
      decodeEntries prost batch batch.entries = some (.ok records) := by
  unfold decode at decodes
  split at decodes
  · cases decodes
  · split at decodes
    · cases decodes
    · split at decodes
      · cases decodes
      · cases decodes
      · rename_i records decodesLogs
        cases decodes
        exact ⟨records, rfl, decodesLogs⟩

end OpendataIngest.Otel
