import OpendataIngest.ClickHouse.AdapterPlan

/-!
# What a dedupe token says

A token is read from its right end: chunk number, fingerprint, adapter version and range
contain no colon.  The fingerprint stands for the text that was hashed, and that text is
read line by line.  What is left over is the manifest path.

The tokens are those of `plan`, so of plans of at most 2^32 chunks, on which the builds with
and without overflow checks agree (`plan_release`).

The token knows nothing of the commit's source, sink and schema version, nor of the record
size that the chunking loop adds up.
-/

set_option autoImplicit false

namespace OpendataIngest.ClickHouse

open MachineInt OpendataIngest.Runtime Otel Decimal SortCut

/-! ## Reading a token -/

/-- The texts `hex::encode` returns. -/
def IsHex (text : String) : Prop := ∀ c ∈ text.toList, c.isDigit = true ∨ 'a' ≤ c ∧ c ≤ 'f'

theorem IsHex.no_colon {text : String} (hex : IsHex text) : ':' ∉ text.toList := by
  intro member
  rcases hex ':' member with digit | letter
  · exact absurd digit (by decide)
  · exact absurd letter (by decide)

section Token

variable {manifestPath manifestPath' fingerprint fingerprint' : String}
  {config config' : LogsAdapterConfig} {low high low' high' : U64} {chunkIndex chunkIndex' : U32}

/-- The parts of a token behind the table. -/
theorem buildToken_suffix (hex : IsHex fingerprint) (hex' : IsHex fingerprint')
    (same : buildToken manifestPath config fingerprint low high chunkIndex =
      buildToken manifestPath' config' fingerprint' low' high' chunkIndex') :
    chunkIndex = chunkIndex' ∧ fingerprint = fingerprint' ∧
      config.adapterVersion = config'.adapterVersion ∧ high = high' ∧ low = low' ∧
      manifestPath ++ ":" ++ config.database ++ "." ++ config.table =
        manifestPath' ++ ":" ++ config'.database ++ "." ++ config'.table := by
  have dash : "-".toList = ['-'] := rfl
  have colon : ":".toList = [':'] := rfl
  simp only [buildToken] at same
  obtain ⟨atFingerprint, sameIndex⟩ := last_number colon rfl same
  obtain ⟨atVersion, sameFingerprint⟩ := last_text colon hex.no_colon hex'.no_colon atFingerprint
  obtain ⟨atHigh, sameVersion⟩ := last_number colon rfl atVersion
  obtain ⟨atLow, sameHigh⟩ := last_number dash rfl atHigh
  obtain ⟨atTable, sameLow⟩ := last_number colon rfl atLow
  exact ⟨Fin.ext sameIndex, sameFingerprint, Fin.ext sameVersion, Fin.ext sameHigh,
    Fin.ext sameLow, atTable⟩

/-- Equal fingerprints were made from the same thresholds. -/
theorem chunkingFingerprint_injective {sha256Prefix : String → String}
    (injective : Function.Injective sha256Prefix) (database : '\n' ∉ config.database.toList)
    (database' : '\n' ∉ config'.database.toList) (table : '\n' ∉ config.table.toList)
    (table' : '\n' ∉ config'.table.toList)
    (same : chunkingFingerprint sha256Prefix config = chunkingFingerprint sha256Prefix config') :
    config.database = config'.database ∧ config.table = config'.table ∧
      config.maxChunkRows = config'.maxChunkRows ∧
      config.maxChunkBytes = config'.maxChunkBytes := by
  have newline : "\n".toList = ['\n'] := rfl
  have chars := congrArg String.toList (injective same)
  simp only [toString, String.toList_append, Nat.toList_repr, newline,
    List.append_assoc, List.append_cancel_left_eq, List.cons_append, List.nil_append] at chars
  obtain ⟨sameDatabase, atTable⟩ := text_then_separator database database' chars
  obtain ⟨sameTable, atVersion⟩ := text_then_separator table table'
    (List.append_cancel_left atTable)
  obtain ⟨_, atRows⟩ := digits_then_separator rfl (List.append_cancel_left atVersion)
  obtain ⟨sameRows, atBytes⟩ := digits_then_separator rfl (List.append_cancel_left atRows)
  obtain ⟨sameBytes, _⟩ := digits_then_separator rfl (List.append_cancel_left atBytes)
  exact ⟨String.toList_inj.mp sameDatabase, String.toList_inj.mp sameTable, Fin.ext sameRows,
    Fin.ext sameBytes⟩

end Token

/-! ## Planned chunks -/

section Planned

variable {σ σ' : Nat} {sha256Prefix : String → String} {config config' : LogsAdapterConfig}
  {batch batch' : ClickHouseAdapterBatch} {chunks chunks' : List InsertChunk}

/-- Only the thresholds of a configuration move the cuts. -/
theorem cutRecords_congr (rows : config.maxChunkRows = config'.maxChunkRows)
    (bytes : config.maxChunkBytes = config'.maxChunkBytes) (records : List DecodedLogRecord) :
    cutRecords σ config records = cutRecords σ config' records := by
  have sameTest : overflows σ config = overflows σ config' := by
    funext current record
    rw [overflows, overflows, rows, bytes]
  have greedy := greedyCut_cutRecords σ config records
  rw [sameTest] at greedy
  exact greedy.eq_cut

theorem logRow_congr (version : config.adapterVersion = config'.adapterVersion) :
    logRow config = logRow config' := by
  funext r
  rw [logRow, logRow, version]

/-- Equal tokens name the same chunk. -/
theorem tokens_never_conflate_chunks (injective : Function.Injective sha256Prefix)
    (hex : ∀ text, IsHex (sha256Prefix text)) (database : '\n' ∉ config.database.toList)
    (database' : '\n' ∉ config'.database.toList) (table : '\n' ∉ config.table.toList)
    (table' : '\n' ∉ config'.table.toList)
    (planned : plan σ sha256Prefix config batch = some (.ok chunks))
    (planned' : plan σ' sha256Prefix config' batch' = some (.ok chunks'))
    {left right : InsertChunk} (isLeft : left ∈ chunks) (isRight : right ∈ chunks')
    (same : left.idempotencyToken = right.idempotencyToken) :
    (∀ r ∈ batch.records, ∀ r' ∈ batch'.records,
      r.source.manifestPath = r'.source.manifestPath) ∧
    config.database = config'.database ∧ config.table = config'.table ∧
    batch.identity.range.low = batch'.identity.range.low ∧
    batch.identity.range.high = batch'.identity.range.high ∧
    config.adapterVersion = config'.adapterVersion ∧
    config.maxChunkRows = config'.maxChunkRows ∧ config.maxChunkBytes = config'.maxChunkBytes ∧
    left.chunkIndex = right.chunkIndex ∧
    (σ = σ' → sorted batch.records = sorted batch'.records → left.rows = right.rows) := by
  obtain ⟨manifestPath, slice, shared, atSlice, isEmit⟩ := plan_chunk planned isLeft
  obtain ⟨manifestPath', slice', shared', atSlice', isEmit'⟩ := plan_chunk planned' isRight
  have tokens := same
  rw [isEmit, isEmit'] at tokens
  obtain ⟨sameIndex, sameFingerprint, sameVersion, sameHigh, sameLow, atTable⟩ :=
    buildToken_suffix (hex _) (hex _) tokens
  obtain ⟨sameDatabase, sameTable, sameRows, sameBytes⟩ :=
    chunkingFingerprint_injective injective database database' table table' sameFingerprint
  have samePath : manifestPath = manifestPath' := by
    rw [sameDatabase, sameTable] at atTable
    simpa only [String.append_left_inj] using atTable
  refine ⟨fun r isR r' isR' => ?_, sameDatabase, sameTable, sameLow, sameHigh, sameVersion,
    sameRows, sameBytes, sameIndex, fun sameBuild sameRecords => ?_⟩
  · rw [shared r isR, shared' r' isR', samePath]
  · have sameCut : cutRecords σ config batch.records = cutRecords σ' config' batch'.records := by
      rw [cutRecords_congr sameRows sameBytes, cutRecords, cutRecords, sameBuild, sameRecords]
    rw [sameCut, sameIndex, atSlice'] at atSlice
    rw [isEmit, isEmit', emit, emit, Option.some.inj atSlice, logRow_congr sameVersion]

/-- Each character as its code, with the letter `a` behind it. -/
def spell (chars : List Char) : List Char :=
  chars.flatMap fun c => Nat.toDigits 10 c.toNat ++ ['a']

theorem spell_injective {left right : List Char} (same : spell left = spell right) :
    left = right := by
  induction left generalizing right with
  | nil =>
      cases right with
      | nil => rfl
      | cons c rest => simp [spell] at same
  | cons c rest ih =>
      cases right with
      | nil => simp [spell] at same
      | cons c' rest' =>
          simp only [spell, List.flatMap_cons, List.append_assoc, List.singleton_append] at same
          obtain ⟨sameCode, sameRest⟩ := digits_then_separator rfl same
          rw [Char.toNat_inj.mp sameCode, ih sameRest]

theorem spell_last {chars : List Char} (c : Char) (last : (spell chars).getLast? = some c) :
    c = 'a' := by
  rcases List.eq_nil_or_concat chars with rfl | ⟨front, d, rfl⟩
  · cases last
  · simpa [spell, eq_comm] using last

/-- A digest without collisions that is right for the sample configuration. -/
def sampleDigest (text : String) : String :=
  if text = "otlp-logs-clickhouse-adapter:v1\ndatabase=responsive\ntable=logs\n" ++
      "adapter_version=1\nmax_chunk_rows=10\nmax_chunk_bytes=900\ninsert_quorum=auto\n"
  then "986fef379156c65e" else String.ofList (spell text.toList)

theorem sampleDigest_injective : Function.Injective sampleDigest := by
  have spelled : ∀ text : String, String.ofList (spell text.toList) ≠ "986fef379156c65e" := by
    intro text same
    have last : (spell text.toList).getLast? = some 'e' := by
      rw [← String.toList_ofList (l := spell text.toList), same]
      rfl
    exact absurd (spell_last 'e' last) (by decide)
  intro left right same
  unfold sampleDigest at same
  split_ifs at same with isLeft isRight isRight
  · exact isLeft.trans isRight.symm
  · exact absurd same.symm (spelled right)
  · exact absurd same (spelled left)
  · exact String.toList_inj.mp (spell_injective (String.ofList_injective same))

theorem isHex_sampleDigest (text : String) : IsHex (sampleDigest text) := by
  intro c member
  unfold sampleDigest at member
  split_ifs at member
  · have checked : "986fef379156c65e".toList.all
        (fun c => c.isDigit || decide ('a' ≤ c ∧ c ≤ 'f')) = true := by decide
    simpa using List.all_eq_true.mp checked c member
  · rw [String.toList_ofList] at member
    obtain ⟨d, _, isChar⟩ := List.mem_flatMap.mp member
    rcases List.mem_append.mp isChar with digit | letter
    · exact Or.inl (Nat.isDigit_of_mem_toDigits (by decide) (by decide) digit)
    · rw [List.mem_singleton.mp letter]
      exact Or.inr (by decide)

def threeRecords : List DecodedLogRecord :=
  [plainRecord "a:b.c" 0 0 0 "", plainRecord "a:b.c" 0 0 1 "", plainRecord "a:b.c" 0 0 2 ""]

/-- A replay in another arrival order, under another schema version, with tokens off. -/
theorem tokens_never_conflate_chunks_replayed :
    let config := smallChunks 10 900
    let chunk := emit config (chunkingFingerprint sampleDigest config) "a:b.c" ⟨0, 0⟩ threeRecords 0
    let config' := { config with applyDeduplicationToken := false }
    let chunk' := emit config' (chunkingFingerprint sampleDigest config') "a:b.c" ⟨0, 0⟩
      threeRecords 0
    chunk.idempotencyToken = chunk'.idempotencyToken ∧ chunk.rows = chunk'.rows := by
  intro config chunk config' chunk'
  have planned : plan 288 sampleDigest config ⟨firstRange 1, threeRecords⟩ = some (.ok [chunk]) :=
    rfl
  have planned' : plan 288 sampleDigest config' ⟨firstRange 2, threeRecords.reverse⟩ =
    some (.ok [chunk']) := rfl
  have same : chunk.idempotencyToken = chunk'.idempotencyToken := rfl
  obtain ⟨_, _, _, _, _, _, _, _, _, sameRows⟩ := tokens_never_conflate_chunks
    sampleDigest_injective isHex_sampleDigest (by decide) (by decide) (by decide) (by decide)
    planned planned' List.mem_cons_self List.mem_cons_self same
  exact ⟨same, sameRows rfl rfl⟩

/-! ## What a token leaves out -/

/-- The chunk that a plan makes of the slice at a position. -/
theorem mem_numberSlices {cut : List DecodedLogRecord → U32 → InsertChunk}
    {slices : List (List DecodedLogRecord)} {position : Nat} {slice : List DecodedLogRecord}
    (present : slices[position]? = some slice) :
    cut slice (Fin.ofNat (2 ^ 32) position) ∈ numberSlices cut 0 slices := by
  refine List.mem_of_getElem? (i := position) ?_
  simp [numberSlices, present]

theorem cutRecords_filled {records : List DecodedLogRecord} {position : Nat}
    {slice : List DecodedLogRecord}
    (present : (cutRecords σ config records)[position]? = some slice) : records ≠ [] := by
  rintro rfl
  have empty : cutRecords σ config [] = [] := rfl
  rw [empty] at present
  cases present

theorem cutRecords_first (σ : Nat) (config : LogsAdapterConfig) {records : List DecodedLogRecord}
    (nonempty : records ≠ []) : ∃ slice, (cutRecords σ config records)[0]? = some slice := by
  have greedy := greedyCut_cutRecords σ config records
  cases shape : cutRecords σ config records with
  | cons slice later => exact ⟨slice, rfl⟩
  | nil =>
      have covers := greedy.covers
      rw [shape] at covers
      have empty : records = [] := by
        refine List.eq_nil_iff_forall_not_mem.mpr fun r member => ?_
        rw [← mem_sorted, ← covers] at member
        cases member
      exact absurd empty nonempty

/-- Wherever a record comes to a slice that is neither empty nor full by its rows, it is too
large for the slice under both record sizes or under neither. -/
def ByteTestsAgree (σ σ' : Nat) (config : LogsAdapterConfig) (records : List DecodedLogRecord) :
    Prop :=
  AlongCut (overflows σ config) (fun slice record =>
    slice.isEmpty = true ∨ max config.maxChunkRows.val 1 < slice.length + 1 ∨
      (max config.maxChunkBytes.val 1 < sliceBytes σ slice + record.approxSizeBytes σ ↔
        max config.maxChunkBytes.val 1 < sliceBytes σ' slice + record.approxSizeBytes σ'))
    [] (sorted records)

instance (σ σ' : Nat) (config : LogsAdapterConfig) (records : List DecodedLogRecord) :
    Decidable (ByteTestsAgree σ σ' config records) :=
  inferInstanceAs (Decidable (AlongCut _ _ _ _))

theorem cutRecords_eq_iff (records : List DecodedLogRecord) :
    cutRecords σ config records = cutRecords σ' config records ↔
      ByteTestsAgree σ σ' config records := by
  refine (cutFrom_eq_iff [] (sorted records)).trans (alongCut_congr (fun slice record => ?_) _ _)
  rw [List.isEmpty_iff, overflows, overflows]
  tauto

/-- Builds with different record sizes share no wrong token exactly when no record comes to a
slice that takes it under one size only. -/
theorem builds_agree_iff_byte_tests_agree
    (planned : plan σ sha256Prefix config batch = some (.ok chunks))
    (planned' : plan σ' sha256Prefix config batch = some (.ok chunks')) :
    (∀ left ∈ chunks, ∀ right ∈ chunks', left.idempotencyToken = right.idempotencyToken →
      left.rows = right.rows) ↔ ByteTestsAgree σ σ' config batch.records := by
  have greedy := greedyCut_cutRecords σ config batch.records
  have greedy' := greedyCut_cutRecords σ' config batch.records
  obtain ⟨manifestPath, shared, fits, rfl⟩ := plan_ok planned
  rw [plan_uniform shared] at planned'
  split_ifs at planned' with fits'
  cases planned'
  rw [← cutRecords_eq_iff]
  constructor
  · intro agree
    refine eq_of_flatten_eq greedy.nonempty greedy'.nonempty
      (greedy.covers.trans greedy'.covers.symm) fun position slice slice' present present' => ?_
    have rows := agree _ (mem_numberSlices present) _ (mem_numberSlices present') rfl
    simpa [emit] using congrArg List.length rows
  · intro sameCut left isLeft right isRight same
    rw [← sameCut] at isRight
    have numbered := numbered_numberSlices (emit config (chunkingFingerprint sha256Prefix config)
      manifestPath batch.identity.range) (cutRecords σ config batch.records) fits
    rw [numbered.token_injective isLeft isRight same]

/-- Two sizes under which the three records fit into one chunk. -/
theorem builds_agree_iff_byte_tests_agree_one_chunk :
    let chunk := emit (smallChunks 10 900) "986fef379156c65e" "a:b.c" ⟨0, 0⟩ threeRecords 0
    ∀ left ∈ [chunk], ∀ right ∈ [chunk], left.idempotencyToken = right.idempotencyToken →
      left.rows = right.rows := by
  intro chunk
  have planned : plan 288 (fun _ => "986fef379156c65e") (smallChunks 10 900)
    ⟨firstRange 1, threeRecords⟩ = some (.ok [chunk]) := rfl
  have planned' : plan 293 (fun _ => "986fef379156c65e") (smallChunks 10 900)
    ⟨firstRange 1, threeRecords⟩ = some (.ok [chunk]) := rfl
  exact (builds_agree_iff_byte_tests_agree planned planned').mpr (by decide)

/-- A build with smaller records puts a third row under the token of the first two. -/
theorem smaller_record_reuses_token : ∃ chunks chunks',
    plan 312 (fun _ => "986fef379156c65e") (smallChunks 10 900) ⟨firstRange 1, threeRecords⟩ =
      some (.ok chunks) ∧
    plan 288 (fun _ => "986fef379156c65e") (smallChunks 10 900) ⟨firstRange 1, threeRecords⟩ =
      some (.ok chunks') ∧
    ∃ left ∈ chunks, ∃ right ∈ chunks', left.idempotencyToken = right.idempotencyToken ∧
      left.rows ≠ right.rows := by
  refine ⟨_, _, rfl, rfl, _, List.mem_cons_self, _, List.mem_cons_self, rfl, fun same => ?_⟩
  exact absurd (congrArg List.length same) (by decide)

/-- Commits of one range share a token as soon as they share a manifest, whatever their
schema versions are. -/
theorem schemas_apart_iff_nothing_shared
    (planned : plan σ sha256Prefix config batch = some (.ok chunks))
    (planned' : plan σ' sha256Prefix config batch' = some (.ok chunks'))
    (sameRange : batch.identity.range = batch'.identity.range) :
    (∀ left ∈ chunks, ∀ right ∈ chunks', left.idempotencyToken ≠ right.idempotencyToken) ↔
    batch.records = [] ∨ batch'.records = [] ∨ ∃ r ∈ batch.records, ∃ r' ∈ batch'.records,
      r.source.manifestPath ≠ r'.source.manifestPath := by
  constructor
  · intro apart
    by_contra shares
    push Not at shares
    obtain ⟨filled, filled', sharesPath⟩ := shares
    obtain ⟨manifestPath, shared, _, rfl⟩ := plan_ok planned
    obtain ⟨manifestPath', shared', _, rfl⟩ := plan_ok planned'
    obtain ⟨r, isR⟩ := List.exists_mem_of_ne_nil _ filled
    obtain ⟨r', isR'⟩ := List.exists_mem_of_ne_nil _ filled'
    have samePath : manifestPath = manifestPath' := by
      rw [← shared r isR, ← shared' r' isR']
      exact sharesPath r isR r' isR'
    obtain ⟨slice, atZero⟩ := cutRecords_first σ config filled
    obtain ⟨slice', atZero'⟩ := cutRecords_first σ' config filled'
    refine apart _ (mem_numberSlices atZero) _ (mem_numberSlices atZero') ?_
    simp only [emit, samePath, sameRange]
  · intro nothing left isLeft right isRight same
    obtain ⟨manifestPath, slice, shared, atSlice, isEmit⟩ := plan_chunk planned isLeft
    obtain ⟨manifestPath', slice', shared', atSlice', isEmit'⟩ := plan_chunk planned' isRight
    have filled := cutRecords_filled atSlice
    have filled' := cutRecords_filled atSlice'
    rw [isEmit, isEmit'] at same
    have samePath : manifestPath = manifestPath' := by
      have atIndex := (last_number (c := ':') rfl rfl same).1
      rw [sameRange] at atIndex
      simpa only [String.append_left_inj] using atIndex
    rcases nothing with empty | empty | ⟨r, isR, r', isR', differ⟩
    · exact filled empty
    · exact filled' empty
    · rw [shared r isR, shared' r' isR'] at differ
      exact differ samePath

theorem schemas_apart_iff_nothing_shared_two_manifests :
    let chunk := emit (smallChunks 10 900) "986fef379156c65e" "a:b.c" ⟨0, 0⟩ threeRecords 0
    let other :=
      emit (smallChunks 10 900) "986fef379156c65e" "a" ⟨0, 0⟩ [plainRecord "a" 0 0 0 ""] 0
    ∀ left ∈ [chunk], ∀ right ∈ [other], left.idempotencyToken ≠ right.idempotencyToken := by
  intro chunk other
  have planned : plan 288 (fun _ => "986fef379156c65e") (smallChunks 10 900)
    ⟨firstRange 1, threeRecords⟩ = some (.ok [chunk]) := rfl
  have planned' : plan 288 (fun _ => "986fef379156c65e") (smallChunks 10 900)
    ⟨firstRange 2, [plainRecord "a" 0 0 0 ""]⟩ = some (.ok [other]) := rfl
  refine (schemas_apart_iff_nothing_shared planned planned' rfl).mpr (Or.inr (Or.inr ?_))
  exact ⟨_, List.mem_cons_self, _, List.mem_cons_self, by decide⟩

/-- The commits of two schema versions under one token. -/
theorem new_schema_reuses_token : ∃ chunks chunks',
    plan 288 (fun _ => "986fef379156c65e") (smallChunks 10 900) ⟨firstRange 1, threeRecords⟩ =
      some (.ok chunks) ∧
    plan 288 (fun _ => "986fef379156c65e") (smallChunks 10 900) ⟨firstRange 2, threeRecords⟩ =
      some (.ok chunks') ∧
    ∃ left ∈ chunks, ∃ right ∈ chunks', left.idempotencyToken = right.idempotencyToken :=
  ⟨_, _, rfl, rfl, _, List.mem_cons_self, _, List.mem_cons_self, rfl⟩

end Planned

end OpendataIngest.ClickHouse
