import OpendataIngest.ClickHouse.AdapterCut
import OpendataIngest.Lib.Decimal

/-!
# What a plan holds

A plan numbers the slices of the sorted records.  So its rows are the rows of the records,
and its tokens are pairwise distinct.
-/

set_option autoImplicit false

namespace OpendataIngest.ClickHouse

open MachineInt OpendataIngest.Runtime Otel Decimal SortCut

/-! ## Numbered slices -/

/-- The chunks are the slices `slices`, numbered from zero. -/
structure Numbered (cut : List DecodedLogRecord → U32 → InsertChunk)
    (slices : List (List DecodedLogRecord)) (chunks : List InsertChunk) : Prop where
  size : chunks.length = slices.length
  numbered : ∀ position slice, slices[position]? = some slice → ∃ number : U32,
    number.val = position ∧ chunks[position]? = some (cut slice number)

variable {cut : List DecodedLogRecord → U32 → InsertChunk} {chunks : List InsertChunk}
  {slices : List (List DecodedLogRecord)}

theorem numbered_numberSlices (cut : List DecodedLogRecord → U32 → InsertChunk)
    (slices : List (List DecodedLogRecord)) (fits : slices.length ≤ 2 ^ 32) :
    Numbered cut slices (numberSlices cut 0 slices) where
  size := by simp [numberSlices]
  numbered position slice present := by
    have inRange := (List.getElem?_eq_some_iff.mp present).1
    refine ⟨Fin.ofNat (2 ^ 32) position, Nat.mod_eq_of_lt (inRange.trans_le fits), ?_⟩
    simp [numberSlices, present]

section Plan

variable {σ : Nat} {sha256Prefix : String → String} {config : LogsAdapterConfig}
  {batch : ClickHouseAdapterBatch}

/-- A plan numbers slices of the sorted records. -/
theorem plan_numbered {manifestPath : String}
    (shared : ∀ record ∈ batch.records, record.source.manifestPath = manifestPath)
    (planned : plan σ sha256Prefix config batch = some (.ok chunks)) :
    ∃ slices : List (List DecodedLogRecord), slices.flatten = sorted batch.records ∧
      Numbered (emit config (chunkingFingerprint sha256Prefix config) manifestPath
        batch.identity.range) slices chunks := by
  rw [plan_uniform shared] at planned
  split_ifs at planned with fits
  cases planned
  exact ⟨_, (greedyCut_cut _).covers, numbered_numberSlices _ _ fits⟩

/-- A planned chunk is the slice at its number. -/
theorem plan_chunk (planned : plan σ sha256Prefix config batch = some (.ok chunks))
    {chunk : InsertChunk} (member : chunk ∈ chunks) : ∃ manifestPath slice,
      (∀ r ∈ batch.records, r.source.manifestPath = manifestPath) ∧
      (cutRecords σ config batch.records)[chunk.chunkIndex.val]? = some slice ∧
      chunk = emit config (chunkingFingerprint sha256Prefix config) manifestPath
        batch.identity.range slice chunk.chunkIndex := by
  obtain ⟨manifestPath, shared, fits, rfl⟩ := plan_ok planned
  obtain ⟨position, inRange, rfl⟩ := List.mem_mapIdx.mp member
  have isPosition : (Fin.ofNat (2 ^ 32) (0 + position)).val = position := by
    rw [Nat.zero_add]
    exact Nat.mod_eq_of_lt (inRange.trans_le fits)
  refine ⟨manifestPath, (cutRecords σ config batch.records)[position], shared, ?_, rfl⟩
  rw [emit, isPosition]
  exact List.getElem?_eq_getElem inRange

theorem Numbered.rows_map {fingerprint manifestPath : String} {range : SequenceRange}
    (numbered : Numbered (emit config fingerprint manifestPath range) slices chunks) :
    chunks.map InsertChunk.rows = slices.map (List.map (logRow config)) := by
  refine List.ext_getElem? fun position => ?_
  rw [List.getElem?_map, List.getElem?_map]
  cases present : slices[position]? with
  | none =>
      have outside := List.getElem?_eq_none_iff.mp present
      rw [List.getElem?_eq_none (numbered.size.trans_le outside)]
      rfl
  | some slice =>
      obtain ⟨number, _, chunk⟩ := numbered.numbered position slice present
      rw [chunk]
      rfl

theorem Numbered.rows {fingerprint manifestPath : String} {range : SequenceRange}
    (numbered : Numbered (emit config fingerprint manifestPath range) slices chunks) :
    chunks.flatMap InsertChunk.rows = slices.flatten.map (logRow config) := by
  rw [List.flatMap_def, numbered.rows_map, List.map_flatten]

/-- The rows of a plan are the rows of its records, each as often. -/
theorem plan_rows {manifestPath : String}
    (shared : ∀ record ∈ batch.records, record.source.manifestPath = manifestPath)
    (planned : plan σ sha256Prefix config batch = some (.ok chunks)) :
    (chunks.flatMap InsertChunk.rows).Perm (batch.records.map (logRow config)) := by
  obtain ⟨slices, covers, numbered⟩ := plan_numbered shared planned
  rw [numbered.rows, covers]
  exact (List.perm_insertionSort _ _).map _

theorem Numbered.at (numbered : Numbered cut slices chunks) {position : Nat}
    (inRange : position < chunks.length) : ∃ slice number, slice ∈ slices ∧
      number.val = position ∧ chunks[position]? = some (cut slice number) := by
  rw [numbered.size] at inRange
  obtain ⟨number, isPosition, present⟩ := numbered.numbered position slices[position]
    (List.getElem?_eq_getElem inRange)
  exact ⟨slices[position], number, List.getElem_mem inRange, isPosition, present⟩

theorem Numbered.mem (numbered : Numbered cut slices chunks) {chunk : InsertChunk}
    (member : chunk ∈ chunks) : ∃ slice number, slice ∈ slices ∧ chunk = cut slice number ∧
      chunks[number.val]? = some chunk := by
  obtain ⟨position, inRange, rfl⟩ := List.getElem_of_mem member
  obtain ⟨slice, number, inSlices, isPosition, present⟩ := numbered.at inRange
  have isCut := Option.some.inj ((List.getElem?_eq_getElem inRange).symm.trans present)
  refine ⟨slice, number, inSlices, isCut, ?_⟩
  rw [isPosition, isCut]
  exact present

/-- The chunk number tells the chunks of a plan apart. -/
theorem Numbered.injective {fingerprint manifestPath : String} {range : SequenceRange}
    (numbered : Numbered (emit config fingerprint manifestPath range) slices chunks)
    {left right : InsertChunk} (isLeft : left ∈ chunks) (isRight : right ∈ chunks)
    (same : left.chunkIndex = right.chunkIndex) : left = right := by
  obtain ⟨slice, number, _, rfl, atLeft⟩ := numbered.mem isLeft
  obtain ⟨slice', number', _, rfl, atRight⟩ := numbered.mem isRight
  have sameNumber : number = number' := same
  subst sameNumber
  exact Option.some.inj (atLeft.symm.trans atRight)

theorem Numbered.nodup {fingerprint manifestPath : String} {range : SequenceRange}
    (numbered : Numbered (emit config fingerprint manifestPath range) slices chunks) :
    chunks.Nodup := by
  rw [List.nodup_iff_getElem?_ne_getElem?]
  intro i j less inRange same
  obtain ⟨slice, number, _, isI, atI⟩ := numbered.at (less.trans inRange)
  obtain ⟨slice', number', _, isJ, atJ⟩ := numbered.at inRange
  rw [atI, atJ] at same
  have sameNumber : number = number' := congrArg InsertChunk.chunkIndex (Option.some.inj same)
  rw [sameNumber] at isI
  omega

end Plan

/-! ## Tokens -/

/-- Under one manifest and one configuration a token names the range and the chunk. -/
theorem buildToken_injective {manifestPath fingerprint : String} {config : LogsAdapterConfig}
    {low high low' high' : U64} {chunkIndex chunkIndex' : U32}
    (same : buildToken manifestPath config fingerprint low high chunkIndex =
      buildToken manifestPath config fingerprint low' high' chunkIndex') :
    low = low' ∧ high = high' ∧ chunkIndex = chunkIndex' := by
  have dash : "-".toList = ['-'] := rfl
  have colon : ":".toList = [':'] := rfl
  have chars := congrArg String.toList same
  simp only [buildToken, String.toList_append, Nat.toString_eq_repr, Nat.toList_repr,
    List.append_assoc, List.append_cancel_left_eq, dash, colon, List.cons_append, List.cons.injEq,
    true_and] at chars
  obtain ⟨sameLow, afterLow⟩ := digits_then_separator (c := '-') rfl chars
  obtain ⟨sameHigh, afterHigh⟩ := digits_then_separator (c := ':') rfl afterLow
  simp only [List.append_cancel_left_eq, List.cons.injEq, true_and] at afterHigh
  exact ⟨Fin.ext sameLow, Fin.ext sameHigh, Fin.ext (toDigits_injective afterHigh)⟩

section Tokens

variable {config : LogsAdapterConfig} {fingerprint manifestPath : String} {range : SequenceRange}

theorem Numbered.token_injective
    (numbered : Numbered (emit config fingerprint manifestPath range) slices chunks)
    {left right : InsertChunk} (isLeft : left ∈ chunks) (isRight : right ∈ chunks)
    (same : left.idempotencyToken = right.idempotencyToken) : left = right := by
  obtain ⟨slice, number, _, rfl, _⟩ := numbered.mem isLeft
  obtain ⟨slice', number', _, rfl, _⟩ := numbered.mem isRight
  exact numbered.injective isLeft isRight (buildToken_injective same).2.2

theorem Numbered.tokens_nodup
    (numbered : Numbered (emit config fingerprint manifestPath range) slices chunks) :
    (chunks.map InsertChunk.idempotencyToken).Nodup :=
  numbered.nodup.map_on fun _ isLeft _ isRight => numbered.token_injective isLeft isRight

/-- Past 2^32 slices the numbers start again, and so do the tokens. -/
theorem numberSlices_wraps (many : 2 ^ 32 < slices.length) :
    let chunks := numberSlices (emit config fingerprint manifestPath range) 0 slices
    ∃ chunk, chunks[2 ^ 32]? = some chunk ∧ chunk.chunkIndex = 0 ∧
      ¬ (chunks.map InsertChunk.idempotencyToken).Nodup := by
  intro chunks
  have size : chunks.length = slices.length := List.length_mapIdx
  have numbered : ∀ position slice, slices[position]? = some slice → chunks[position]? =
      some (emit config fingerprint manifestPath range slice (Fin.ofNat (2 ^ 32) position)) := by
    intro position slice present
    simp only [chunks, numberSlices, List.getElem?_mapIdx, present, Option.map_some, Nat.zero_add]
  have present : ∀ position, position < slices.length → ∃ slice, slices[position]? = some slice :=
    fun position inRange => ⟨slices[position], List.getElem?_eq_getElem inRange⟩
  obtain ⟨first, atFirst⟩ := present 0 (Nat.zero_lt_of_lt many)
  obtain ⟨last, atLast⟩ := present (2 ^ 32) many
  have firstChunk := numbered 0 first atFirst
  have lastChunk := numbered (2 ^ 32) last atLast
  refine ⟨_, lastChunk, rfl, fun distinct => ?_⟩
  rw [List.nodup_iff_getElem?_ne_getElem?] at distinct
  refine distinct 0 (2 ^ 32) (by decide) (by rwa [List.length_map, size]) ?_
  rw [List.getElem?_map, List.getElem?_map, firstChunk, lastChunk]
  rfl

end Tokens

/-! ## The partition -/

/-- The sorted records in slices that respect the thresholds and could not be longer. -/
structure GreedyPartition (σ : Nat) (config : LogsAdapterConfig) (records : List DecodedLogRecord)
    (slices : List (List DecodedLogRecord)) : Prop where
  sorted : StableSort sortsBefore records slices.flatten
  nonempty : ∀ slice ∈ slices, slice ≠ []
  rows : ∀ slice ∈ slices, slice.length ≤ max 1 config.maxChunkRows.val
  bytes : ∀ slice ∈ slices,
    sliceBytes σ slice ≤ max 1 config.maxChunkBytes.val ∨ slice.length = 1
  maximal : slices.IsChain fun slice next => ∀ record ∈ next.head?,
    max 1 config.maxChunkRows.val < slice.length + 1 ∨
      max 1 config.maxChunkBytes.val < sliceBytes σ slice + record.approxSizeBytes σ

theorem greedyPartition_cutRecords (σ : Nat) (config : LogsAdapterConfig)
    (records : List DecodedLogRecord) :
    GreedyPartition σ config records (cutRecords σ config records) := by
  have greedy := greedyCut_cutRecords σ config records
  refine ⟨?_, greedy.nonempty, ?_, ?_, ?_⟩
  · rw [greedy.covers]
    exact sorted_stable records
  · intro slice member
    have limit := (Fills.within (greedy.fills slice member)).1
    rwa [Nat.max_comm] at limit
  · intro slice member
    have filled := List.length_pos_iff.mpr (greedy.nonempty slice member)
    rcases (Fills.within (greedy.fills slice member)).2 with limit | single
    · exact Or.inl (by rwa [Nat.max_comm] at limit)
    · exact Or.inr (by omega)
  · refine greedy.full.imp fun slice next full record isHead => ?_
    have exceeds := full record isHead
    rwa [overflows, Nat.max_comm, Nat.max_comm config.maxChunkBytes.val] at exceeds

/-- The plan of either build is a greedy partition that no arrival order can change. -/
theorem plan_is_greedy_partition (overflowChecks : Bool) (σ : Nat)
    (sha256Prefix : String → String) (config : LogsAdapterConfig) (identity : CommitIdentity)
    (records : List DecodedLogRecord) :
    ((∃ e, planBuilt overflowChecks σ sha256Prefix config ⟨identity, records⟩ =
        some (.error e)) ↔
      ∃ r ∈ records, ∃ r' ∈ records, r.source.manifestPath ≠ r'.source.manifestPath) ∧
    ((∀ r ∈ records, ∀ r' ∈ records, r.source.manifestPath = r'.source.manifestPath) →
      ∃ slices, GreedyPartition σ config records slices ∧
        (slices.length ≤ 2 ^ 32 → ∃ chunks,
          planBuilt overflowChecks σ sha256Prefix config ⟨identity, records⟩ =
            some (.ok chunks) ∧
          chunks.map InsertChunk.rows = slices.map (List.map (logRow config)) ∧
          (∀ (position : Nat) (chunk : InsertChunk), chunks[position]? = some chunk →
            chunk.chunkIndex.val = position) ∧
          (chunks.map InsertChunk.idempotencyToken).Nodup)) ∧
    ∀ permuted, records.Perm permuted → (records.map sortKey).Nodup →
      planBuilt overflowChecks σ sha256Prefix config ⟨identity, permuted⟩ =
        planBuilt overflowChecks σ sha256Prefix config ⟨identity, records⟩ := by
  refine ⟨planBuilt_error_iff overflowChecks, fun uniform => ?_, fun permuted perm distinct =>
    (planBuilt_eq_of_sorted overflowChecks (sorted_eq_of_perm perm distinct)).symm⟩
  obtain ⟨manifestPath, shared⟩ := manifest_of_uniform uniform
  refine ⟨cutRecords σ config records, greedyPartition_cutRecords σ config records,
    fun fits => ?_⟩
  have numbered := numbered_numberSlices (emit config (chunkingFingerprint sha256Prefix config)
    manifestPath identity.range) (cutRecords σ config records) fits
  refine ⟨_, (planBuilt_uniform overflowChecks shared).trans (if_pos (Or.inr fits)),
    numbered.rows_map, ?_, numbered.tokens_nodup⟩
  intro position chunk present
  obtain ⟨slice, number, _, isPosition, isChunk⟩ :=
    numbered.at (List.getElem?_eq_some_iff.mp present).1
  rw [present] at isChunk
  rw [Option.some.inj isChunk]
  exact isPosition

/-- A record with its coordinates and a body. -/
def plainRecord (manifestPath : String) (sequence : U64) (entryIndex recordIndex : U32)
    (body : String) : DecodedLogRecord where
  source := ⟨sequence, entryIndex, recordIndex, manifestPath, "data", 0⟩
  timestampUnixNano := 0
  observedTimestampUnixNano := 0
  severityNumber := 9
  severityText := "INFO"
  body := body
  serviceName := some "api"
  resourceAttributes := SortedMap.empty
  scopeName := none
  logAttributes := SortedMap.empty
  traceIdHex := ""
  spanIdHex := ""

def smallChunks (maxChunkRows maxChunkBytes : U64) : LogsAdapterConfig :=
  ⟨"responsive", "logs", 1, maxChunkRows, maxChunkBytes, some "auto", true⟩

def firstRange (schemaVersion : U32) : CommitIdentity :=
  ⟨⟨"manifest"⟩, ⟨"clickhouse"⟩, ⟨0, 0⟩, ⟨schemaVersion⟩⟩

theorem cutRecords_single_rows (σ : Nat) (maxChunkBytes : U64) (records : List DecodedLogRecord) :
    records.length ≤ (cutRecords σ (smallChunks 1 maxChunkBytes) records).length := by
  have partitioned := greedyPartition_cutRecords σ (smallChunks 1 maxChunkBytes) records
  have single : ∀ size ∈ (cutRecords σ (smallChunks 1 maxChunkBytes) records).map List.length,
      size ≤ 1 := by
    intro size member
    obtain ⟨slice, isSlice, rfl⟩ := List.mem_map.mp member
    exact partitioned.rows slice isSlice
  have total := List.sum_le_card_nsmul _ 1 single
  rw [← partitioned.sorted.perm.length_eq, List.length_flatten]
  simpa using total

/-- One chunk more than the counter can number: the checked build panics, the release build
numbers it 0. -/
theorem plan_stops_at_counter :
    let records := List.replicate (2 ^ 32 + 1) (plainRecord "m" 0 0 0 "")
    let planned := fun overflowChecks => planBuilt overflowChecks 288
      (fun _ => "2905800f7d7ac31c") (smallChunks 1 1) ⟨firstRange 1, records⟩
    (∀ r ∈ records, ∀ r' ∈ records, r.source.manifestPath = r'.source.manifestPath) ∧
      planned true = none ∧
      ∃ chunks chunk, planned false = some (.ok chunks) ∧ chunks[2 ^ 32]? = some chunk ∧
        chunk.chunkIndex = 0 ∧ ¬ (chunks.map InsertChunk.idempotencyToken).Nodup := by
  intro records planned
  have shared : ∀ r ∈ records, r.source.manifestPath = "m" := by
    intro r member
    rw [List.eq_of_mem_replicate member]
    rfl
  have many : 2 ^ 32 < (cutRecords 288 (smallChunks 1 1) records).length := by
    have size : records.length = 2 ^ 32 + 1 := List.length_replicate
    have single := cutRecords_single_rows 288 1 records
    omega
  refine ⟨fun r isR r' isR' => (shared r isR).trans (shared r' isR').symm, ?_, ?_⟩
  · exact (planBuilt_uniform true shared).trans (if_neg (by simpa using many))
  · have unchecked : planned false = some (.ok (numberSlices (emit (smallChunks 1 1)
        (chunkingFingerprint (fun _ => "2905800f7d7ac31c") (smallChunks 1 1)) "m"
        (firstRange 1).range) 0 (cutRecords 288 (smallChunks 1 1) records))) :=
      (planBuilt_uniform false shared).trans (if_pos (Or.inl rfl))
    obtain ⟨chunk, atWrap, isZero, repeated⟩ := numberSlices_wraps many
    exact ⟨_, chunk, unchecked, atWrap, isZero, repeated⟩

end OpendataIngest.ClickHouse
