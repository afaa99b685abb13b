import OpendataIngest.ClickHouse.Adapter
import OpendataIngest.Lib.SortCut
import OpendataIngest.Otel.Coordinates

/-!
# The plan is a greedy cut

The chunking loop cuts the sorted records greedily under its two thresholds and numbers
the slices.  The chunk counter is a `u32`: a plan of more than 2^32 chunks panics in a build
with overflow checks and numbers its chunks from 0 again in one without.
-/

set_option autoImplicit false

namespace OpendataIngest.ClickHouse

open MachineInt OpendataIngest.Runtime Otel SortCut

/-! ## The order of the records -/

theorem sortsBefore_iff (left right : DecodedLogRecord) : sortsBefore left right ↔
    left.source.bufferSequence.val < right.source.bufferSequence.val ∨
      left.source.bufferSequence.val = right.source.bufferSequence.val ∧
        (left.source.entryIndex.val < right.source.entryIndex.val ∨
          left.source.entryIndex.val = right.source.entryIndex.val ∧
            left.source.recordIndex.val ≤ right.source.recordIndex.val) := by
  simp only [sortsBefore, Fin.lt_def, Fin.le_def, Fin.ext_iff]

instance : Std.Total sortsBefore where
  total left right := by
    rw [sortsBefore_iff, sortsBefore_iff]
    omega

instance : IsTrans DecodedLogRecord sortsBefore where
  trans left middle right := by
    rw [sortsBefore_iff, sortsBefore_iff, sortsBefore_iff]
    omega

/-- The key of `sort_by_key`. -/
def sortKey (r : DecodedLogRecord) : U64 × U32 × U32 :=
  (r.source.bufferSequence, r.source.entryIndex, r.source.recordIndex)

theorem sortKey_of_tied {left right : DecodedLogRecord} (forth : sortsBefore left right)
    (back : sortsBefore right left) : sortKey left = sortKey right := by
  rw [sortsBefore_iff] at forth back
  simp only [sortKey, Prod.mk.injEq, Fin.ext_iff]
  omega

/-- The records in the order of the plan. -/
def sorted (records : List DecodedLogRecord) : List DecodedLogRecord :=
  records.insertionSort sortsBefore

theorem sorted_stable (records : List DecodedLogRecord) :
    StableSort sortsBefore records (sorted records) :=
  stableSort_insertionSort sortsBefore records

theorem sorted_eq_of_perm {left right : List DecodedLogRecord} (perm : left.Perm right)
    (distinct : (left.map sortKey).Nodup) : sorted left = sorted right :=
  insertionSort_eq_of_perm sortsBefore perm fun _ isA _ isB forth back =>
    List.inj_on_of_nodup_map distinct isA isB (sortKey_of_tied forth back)

/-! ## The thresholds -/

def sliceBytes (σ : Nat) (slice : List DecodedLogRecord) : Nat :=
  (slice.map (DecodedLogRecord.approxSizeBytes σ)).sum

def overflows (σ : Nat) (config : LogsAdapterConfig) (current : List DecodedLogRecord)
    (record : DecodedLogRecord) : Prop :=
  max config.maxChunkRows.val 1 < current.length + 1 ∨
    max config.maxChunkBytes.val 1 < sliceBytes σ current + record.approxSizeBytes σ

instance (σ : Nat) (config : LogsAdapterConfig) (current : List DecodedLogRecord)
    (record : DecodedLogRecord) : Decidable (overflows σ config current record) :=
  inferInstanceAs (Decidable (_ ∨ _))

/-- A slice that fills keeps to the thresholds, or is a single record. -/
theorem Fills.within {σ : Nat} {config : LogsAdapterConfig} {slice : List DecodedLogRecord}
    (fills : Fills (overflows σ config) slice) :
    slice.length ≤ max config.maxChunkRows.val 1 ∧
      (sliceBytes σ slice ≤ max config.maxChunkBytes.val 1 ∨ slice.length ≤ 1) := by
  rcases List.eq_nil_or_concat slice with rfl | ⟨front, last, rfl⟩
  · simp
  · rw [List.concat_eq_append] at fills ⊢
    by_cases single : front = []
    · subst single
      simp
    · have room := fills front last [] rfl single
      simp only [overflows, not_or, Nat.not_lt] at room
      refine ⟨by simpa using room.1, Or.inl ?_⟩
      simpa [sliceBytes] using room.2

/-! ## The loop cuts greedily -/

theorem advance_eq (overflowChecks : Bool) (n : U32) : advance overflowChecks n =
    if overflowChecks = false ∨ n.val + 1 < 2 ^ 32 then some (Fin.ofNat (2 ^ 32) (n.val + 1))
    else none := by
  cases overflowChecks with
  | false => rfl
  | true =>
      simp only [advance, increment, Bool.true_eq_false, false_or, if_true]
      split_ifs with fits
      · exact congrArg some (Fin.ext (Nat.mod_eq_of_lt fits).symm)
      · rfl

/-- The slices as chunks, numbered from `first` on as far as a `u32` goes. -/
def numberSlices (cut : List DecodedLogRecord → U32 → InsertChunk) (first : Nat)
    (slices : List (List DecodedLogRecord)) : List InsertChunk :=
  slices.mapIdx fun position slice => cut slice (Fin.ofNat (2 ^ 32) (first + position))

theorem numberSlices_cons (cut : List DecodedLogRecord → U32 → InsertChunk) (first : U32)
    (slice : List DecodedLogRecord) (slices : List (List DecodedLogRecord)) :
    numberSlices cut first.val (slice :: slices) =
      cut slice first :: numberSlices cut (first.val + 1) slices := by
  simp only [numberSlices, List.mapIdx_cons, Nat.add_zero, Fin.ofNat_val_eq_self, Nat.add_assoc,
    Nat.add_comm 1]

theorem numberSlices_ofNat (cut : List DecodedLogRecord → U32 → InsertChunk) (first : Nat)
    (slices : List (List DecodedLogRecord)) :
    numberSlices cut (Fin.ofNat (2 ^ 32) first).val slices = numberSlices cut first slices := by
  have sameNumber : ∀ position, Fin.ofNat (2 ^ 32) ((Fin.ofNat (2 ^ 32) first).val + position) =
      Fin.ofNat (2 ^ 32) (first + position) := fun position =>
    Fin.ext (Nat.mod_add_mod first (2 ^ 32) position)
  simp only [numberSlices, sameNumber]

theorem chunkRecords_cut (overflowChecks : Bool) (σ : Nat) (config : LogsAdapterConfig)
    (cut : List DecodedLogRecord → U32 → InsertChunk) (records : List DecodedLogRecord)
    (state : Chunking) (sized : state.currentBytes = sliceBytes σ state.current) :
    (chunkRecords overflowChecks σ config cut state records).map (Chunking.finish cut) =
      if overflowChecks = false ∨ state.chunkIndex.val +
          (cutFrom (overflows σ config) state.current records).length ≤ 2 ^ 32 then
        some (state.chunks ++ numberSlices cut state.chunkIndex.val
          (cutFrom (overflows σ config) state.current records))
      else none := by
  induction records generalizing state with
  | nil =>
      have small := state.chunkIndex.isLt
      simp only [chunkRecords, Option.map_some, Chunking.finish]
      by_cases empty : state.current.isEmpty = true
      · have pieces : cutFrom (overflows σ config) state.current [] = [] := by
          rw [cutFrom, if_pos empty]
        rw [pieces, if_pos empty, if_pos (Or.inr (by simp))]
        simp [numberSlices]
      · have pieces : cutFrom (overflows σ config) state.current [] = [state.current] := by
          rw [cutFrom, if_neg empty]
        rw [pieces, if_neg empty,
          if_pos (Or.inr (by simp only [List.length_singleton]; omega)), numberSlices_cons]
        rfl
  | cons record rest ih =>
      have sameTest : (!state.current.isEmpty ∧
          (state.current.length + 1 > max config.maxChunkRows.val 1 ∨
            state.currentBytes + record.approxSizeBytes σ > max config.maxChunkBytes.val 1)) ↔
          (!state.current.isEmpty ∧ overflows σ config state.current record) := by
        rw [sized]
        rfl
      simp only [chunkRecords, chunkRecord]
      by_cases flush : !state.current.isEmpty ∧ overflows σ config state.current record
      · have pieces : cutFrom (overflows σ config) state.current (record :: rest) =
            state.current :: cutFrom (overflows σ config) [record] rest := by
          rw [cutFrom, if_pos flush]
        obtain ⟨more, later, nonempty⟩ : ∃ more later,
            cutFrom (overflows σ config) [record] rest = ([record] ++ more) :: later :=
          cutFrom_head [record] rest (by simp)
        rw [if_pos (sameTest.mpr flush), pieces, advance_eq]
        by_cases room : overflowChecks = false ∨ state.chunkIndex.val + 1 < 2 ^ 32
        · have sameRoom : (overflowChecks = false ∨
              (Fin.ofNat (2 ^ 32) (state.chunkIndex.val + 1)).val +
                (cutFrom (overflows σ config) [record] rest).length ≤ 2 ^ 32) ↔
              (overflowChecks = false ∨ state.chunkIndex.val +
                (state.current :: cutFrom (overflows σ config) [record] rest).length ≤ 2 ^ 32) := by
            rcases room with wraps | fits
            · simp only [wraps, true_or]
            · rw [Fin.val_ofNat, Nat.mod_eq_of_lt fits, List.length_cons, Nat.add_assoc,
                Nat.add_comm 1]
          rw [if_pos room, Option.map_some, Option.bind_some, ih _ (by simp [sliceBytes]),
            numberSlices_ofNat, numberSlices_cons]
          simp only [sameRoom, List.append_assoc, List.singleton_append]
        · have full : ¬ (overflowChecks = false ∨ state.chunkIndex.val +
              (state.current :: cutFrom (overflows σ config) [record] rest).length ≤ 2 ^ 32) := by
            rw [not_or] at room ⊢
            refine ⟨room.1, ?_⟩
            rw [nonempty, List.length_cons, List.length_cons]
            omega
          rw [if_neg room, if_neg full]
          rfl
      · have pieces : cutFrom (overflows σ config) state.current (record :: rest) =
            cutFrom (overflows σ config) (state.current ++ [record]) rest := by
          rw [cutFrom, if_neg flush]
        rw [if_neg fun test => flush (sameTest.mp test), pieces]
        exact ih _ (by simp [sliceBytes, sized])

/-! ## The plan -/

def cutRecords (σ : Nat) (config : LogsAdapterConfig) (records : List DecodedLogRecord) :
    List (List DecodedLogRecord) :=
  cut (overflows σ config) (sorted records)

theorem greedyCut_cutRecords (σ : Nat) (config : LogsAdapterConfig)
    (records : List DecodedLogRecord) :
    GreedyCut (overflows σ config) (sorted records) (cutRecords σ config records) :=
  greedyCut_cut _

section Plan

variable {σ : Nat} {sha256Prefix : String → String} {config : LogsAdapterConfig}
  {batch : ClickHouseAdapterBatch}

theorem mem_sorted {records : List DecodedLogRecord} {r : DecodedLogRecord} :
    r ∈ sorted records ↔ r ∈ records := List.mem_insertionSort sortsBefore

/-- Records of one manifest are cut and numbered; a checked counter must be large enough. -/
theorem planBuilt_uniform (overflowChecks : Bool) {manifestPath : String}
    (shared : ∀ record ∈ batch.records, record.source.manifestPath = manifestPath) :
    planBuilt overflowChecks σ sha256Prefix config batch =
      if overflowChecks = false ∨ (cutRecords σ config batch.records).length ≤ 2 ^ 32 then
        some (.ok (numberSlices (emit config (chunkingFingerprint sha256Prefix config)
          manifestPath batch.identity.range) 0 (cutRecords σ config batch.records)))
      else none := by
  unfold planBuilt cutRecords
  rw [← sorted]
  cases order : sorted batch.records with
  | nil =>
      have pieces : cut (overflows σ config) [] = [] := rfl
      rw [pieces, if_pos (Or.inr (by simp))]
      rfl
  | cons first rest =>
      have uniform : ∀ r ∈ first :: rest, r.source.manifestPath = manifestPath := by
        intro r member
        rw [← order, mem_sorted] at member
        exact shared r member
      have noMismatch : ((first :: rest).find? fun r => r.source.manifestPath ≠ manifestPath) =
          none := by
        refine List.find?_eq_none.mpr fun r member => ?_
        simp [uniform r member]
      dsimp only
      rw [uniform first List.mem_cons_self, noMismatch]
      have cuts := chunkRecords_cut overflowChecks σ config (emit config
        (chunkingFingerprint sha256Prefix config) manifestPath batch.identity.range)
        (first :: rest) ⟨[], [], 0, 0⟩ rfl
      simp only [Fin.val_zero, Nat.zero_add, List.nil_append] at cuts
      rw [← Function.comp_def Except.ok, ← Option.map_map, cuts, cut]
      split_ifs
      · rfl
      · rfl

theorem plan_uniform {manifestPath : String}
    (shared : ∀ record ∈ batch.records, record.source.manifestPath = manifestPath) :
    plan σ sha256Prefix config batch =
      if (cutRecords σ config batch.records).length ≤ 2 ^ 32 then
        some (.ok (numberSlices (emit config (chunkingFingerprint sha256Prefix config)
          manifestPath batch.identity.range) 0 (cutRecords σ config batch.records)))
      else none := by
  simp only [plan, planBuilt_uniform true shared, Bool.true_eq_false, false_or]

theorem planBuilt_mixed (overflowChecks : Bool) {r r' : DecodedLogRecord}
    (isR : r ∈ batch.records) (isR' : r' ∈ batch.records)
    (differ : r.source.manifestPath ≠ r'.source.manifestPath) :
    ∃ e, planBuilt overflowChecks σ sha256Prefix config batch = some (.error e) := by
  unfold planBuilt
  rw [← sorted]
  cases order : sorted batch.records with
  | nil =>
      rw [← mem_sorted, order] at isR
      cases isR
  | cons first rest =>
      dsimp only
      split
      · exact ⟨_, rfl⟩
      case h_2 none =>
        have uniform : ∀ r ∈ batch.records, r.source.manifestPath = first.source.manifestPath := by
          intro r member
          rw [← mem_sorted, order] at member
          simpa using List.find?_eq_none.mp none r member
        exact absurd ((uniform r isR).trans (uniform r' isR').symm) differ

theorem manifest_of_uniform {records : List DecodedLogRecord}
    (uniform : ∀ r ∈ records, ∀ r' ∈ records, r.source.manifestPath = r'.source.manifestPath) :
    ∃ manifestPath, ∀ r ∈ records, r.source.manifestPath = manifestPath := by
  cases records with
  | nil => exact ⟨"", by simp⟩
  | cons first rest => exact ⟨_, fun r member => uniform r member first (by simp)⟩

theorem planBuilt_error_iff (overflowChecks : Bool) :
    (∃ e, planBuilt overflowChecks σ sha256Prefix config batch = some (.error e)) ↔
      ∃ r ∈ batch.records, ∃ r' ∈ batch.records,
        r.source.manifestPath ≠ r'.source.manifestPath := by
  constructor
  · rintro ⟨e, failed⟩
    by_contra uniform
    push Not at uniform
    obtain ⟨manifestPath, shared⟩ := manifest_of_uniform uniform
    rw [planBuilt_uniform overflowChecks shared] at failed
    split_ifs at failed
    cases failed
  · rintro ⟨r, isR, r', isR', differ⟩
    exact planBuilt_mixed overflowChecks isR isR' differ

theorem plan_ok {chunks : List InsertChunk}
    (planned : plan σ sha256Prefix config batch = some (.ok chunks)) :
    ∃ manifestPath, (∀ r ∈ batch.records, r.source.manifestPath = manifestPath) ∧
      (cutRecords σ config batch.records).length ≤ 2 ^ 32 ∧
      chunks = numberSlices (emit config (chunkingFingerprint sha256Prefix config) manifestPath
        batch.identity.range) 0 (cutRecords σ config batch.records) := by
  have uniform : ∀ r ∈ batch.records, ∀ r' ∈ batch.records,
      r.source.manifestPath = r'.source.manifestPath := by
    intro r isR r' isR'
    by_contra differ
    obtain ⟨e, failed⟩ : ∃ e, plan σ sha256Prefix config batch = some (.error e) :=
      planBuilt_mixed true isR isR' differ
    rw [planned] at failed
    cases failed
  obtain ⟨manifestPath, shared⟩ := manifest_of_uniform uniform
  rw [plan_uniform shared] at planned
  split_ifs at planned with fits
  cases planned
  exact ⟨manifestPath, shared, fits, rfl⟩

/-- A plan has at most 2^32 chunks, and the release build makes the same one. -/
theorem plan_release {chunks : List InsertChunk}
    (planned : plan σ sha256Prefix config batch = some (.ok chunks)) :
    chunks.length ≤ 2 ^ 32 ∧
      planBuilt false σ sha256Prefix config batch = some (.ok chunks) := by
  obtain ⟨manifestPath, shared, fits, rfl⟩ := plan_ok planned
  refine ⟨by rwa [numberSlices, List.length_mapIdx], ?_⟩
  rw [planBuilt_uniform false shared, if_pos (Or.inl rfl)]

/-- The plan depends on the records through their sorted order only. -/
theorem planBuilt_eq_of_sorted (overflowChecks : Bool) {identity : CommitIdentity}
    {left right : List DecodedLogRecord} (same : sorted left = sorted right) :
    planBuilt overflowChecks σ sha256Prefix config ⟨identity, left⟩ =
      planBuilt overflowChecks σ sha256Prefix config ⟨identity, right⟩ := by
  unfold planBuilt
  rw [← sorted, ← sorted, same]

end Plan

end OpendataIngest.ClickHouse
