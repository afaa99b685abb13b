import OpendataIngest.ClickHouse.RowBinary
import OpendataIngest.ClickHouse.SinkMetrics
import Mathlib.Algebra.BigOperators.Ring.List

/-!
# The bytes of a commit

`sink.rs` and `metrics.rs` document `bytes_written` and `commit_bytes` as the sum of the
serialized lengths of the values.  The sink adds up the `len` of the rows, which is the
number of their values.  The two sums are compared here, with each other and with the bodies
that are delivered.
-/

set_option autoImplicit false

namespace OpendataIngest.ClickHouse

open MachineInt OpendataIngest.Runtime Otel ByteCodec

/-! ## Encoded lengths -/

def rowBytes (row : Row) : Nat := (row.map fun value => value.writeRowBinary.length).sum

/-- The lengths of the `write_row_binary` encodings, over all chunks, rows and values. -/
def rowBinaryBytes (chunks : List InsertChunk) : Nat :=
  (chunks.map fun chunk => (chunk.rows.map rowBytes).sum).sum

/-- The fewest bytes that a value of the same type takes. -/
def RowValue.leastBytes : RowValue → Nat
  | .string _ => 1
  | .lowCardinalityString _ => 1
  | .uint8 _ => 1
  | .int32 _ => 4
  | .uint32 _ => 4
  | .uint64 _ => 8
  | .int64 _ => 8
  | .dateTime64Nanos _ => 8
  | .nullableDateTime64Nanos _ => 1
  | .stringMap _ => 1

/-- An empty text or map, a `UInt8` or a `NULL`. -/
def RowValue.singleByte : RowValue → Bool
  | .string s => decide (s = "")
  | .lowCardinalityString s => decide (s = "")
  | .uint8 _ => true
  | .nullableDateTime64Nanos ns => ns.isNone
  | .stringMap m => m.entries.isEmpty
  | _ => false

theorem RowValue.leastBytes_le (value : RowValue) :
    value.leastBytes ≤ value.writeRowBinary.length := by
  cases value with
  | string s => exact one_le_length_text s
  | lowCardinalityString s => exact one_le_length_text s
  | uint8 v => exact Nat.le_refl 1
  | int32 v => exact (length_le 4 _).ge
  | uint32 v => exact (length_le 4 _).ge
  | uint64 v => exact (length_le 8 _).ge
  | int64 v => exact (length_le 8 _).ge
  | dateTime64Nanos ns => exact (length_le 8 _).ge
  | nullableDateTime64Nanos ns =>
      cases ns with
      | none => exact Nat.le_refl 1
      | some ns => exact Nat.le_add_left 1 _
  | stringMap m =>
      apply (one_le_length_varuint m.entries.length).trans
      rw [writeRowBinary, List.length_append]
      exact Nat.le_add_right _ _

theorem RowValue.writeRowBinary_ne_nil (value : RowValue) : value.writeRowBinary ≠ [] := by
  apply List.length_pos_iff.mp
  apply Nat.lt_of_lt_of_le _ value.leastBytes_le
  cases value <;> exact Nat.succ_pos _

theorem length_writeMap_eq_one_iff (m : Attributes) :
    (RowValue.writeRowBinary (.stringMap m)).length = 1 ↔ m.entries.isEmpty = true := by
  have counted := one_le_length_varuint m.entries.length
  rw [RowValue.writeRowBinary, List.length_append]
  cases shape : m.entries with
  | nil =>
      simp only [List.flatMap_nil, List.length_nil, Nat.add_zero, List.isEmpty_nil, iff_true]
      exact length_varuint_of_lt (by decide)
  | cons entry rest =>
      have key := one_le_length_text entry.1
      rw [shape] at counted
      simp only [List.flatMap_cons, List.length_append, List.isEmpty_cons, Bool.false_eq_true,
        iff_false]
      omega

theorem RowValue.length_eq_one_iff (value : RowValue) :
    value.writeRowBinary.length = 1 ↔ value.singleByte = true := by
  cases value with
  | string s => simpa [singleByte, writeRowBinary] using length_text_eq_one_iff s
  | lowCardinalityString s => simpa [singleByte, writeRowBinary] using length_text_eq_one_iff s
  | uint8 v => simp [singleByte, writeRowBinary]
  | int32 v => simp [singleByte, writeRowBinary, length_le]
  | uint32 v => simp [singleByte, writeRowBinary, length_le]
  | uint64 v => simp [singleByte, writeRowBinary, length_le]
  | int64 v => simp [singleByte, writeRowBinary, i64Bytes, length_le]
  | dateTime64Nanos ns => simp [singleByte, writeRowBinary, i64Bytes, length_le]
  | nullableDateTime64Nanos ns =>
      cases ns with
      | none => simp [singleByte, writeRowBinary]
      | some ns => simp [singleByte, writeRowBinary, i64Bytes, length_le]
  | stringMap m => exact length_writeMap_eq_one_iff m

/-! ## Planned values -/

def plannedRows (chunks : List InsertChunk) : List Row := chunks.flatMap InsertChunk.rows

def plannedValues (chunks : List InsertChunk) : List RowValue := (plannedRows chunks).flatten

/-- Chunk by chunk or all rows at once. -/
theorem sum_plannedRows (size : Row → Nat) (chunks : List InsertChunk) :
    (chunks.map fun chunk => (chunk.rows.map size).sum).sum =
      ((plannedRows chunks).map size).sum := by
  induction chunks with
  | nil => rfl
  | cons chunk rest ih =>
      have split : plannedRows (chunk :: rest) = chunk.rows ++ plannedRows rest :=
        List.flatMap_cons
      rw [List.map_cons, List.sum_cons, ih, split, List.map_append, List.sum_append]

theorem length_plannedRows (chunks : List InsertChunk) :
    (plannedRows chunks).length = (chunks.map InsertChunk.rowsCount).sum :=
  List.length_flatMap

/-- What the sink adds up. -/
theorem length_plannedValues (chunks : List InsertChunk) :
    (plannedValues chunks).length = (chunks.map fun c => (c.rows.map List.length).sum).sum := by
  rw [sum_plannedRows, plannedValues, List.length_flatten]

theorem rowBinaryBytes_eq (chunks : List InsertChunk) : rowBinaryBytes chunks =
    ((plannedValues chunks).flatMap RowValue.writeRowBinary).length := by
  rw [rowBinaryBytes, sum_plannedRows, List.length_flatMap, plannedValues, List.map_flatten,
    List.sum_flatten, List.map_map]
  rfl

/-- As many bytes as values: every value is a single byte. -/
theorem length_plannedValues_eq_iff (chunks : List InsertChunk) :
    (plannedValues chunks).length = rowBinaryBytes chunks ↔
      ∀ value ∈ plannedValues chunks, value.singleByte = true := by
  rw [rowBinaryBytes_eq, eq_comm,
    length_flatMap_eq_iff _ fun value _ => value.writeRowBinary_ne_nil]
  simp only [RowValue.length_eq_one_iff]

/-! ## Rows of log records -/

theorem rowBytes_logRow (config : LogsAdapterConfig) (r : DecodedLogRecord) :
    55 ≤ rowBytes (logRow config r) := by
  have least : ((logRow config r).map RowValue.leastBytes).sum = 55 := by
    simp only [logRow, List.map_cons, List.map_nil, RowValue.leastBytes, List.sum_cons,
      List.sum_nil, Nat.reduceAdd]
  rw [← least, rowBytes]
  exact List.sum_le_sum fun value _ => value.leastBytes_le

/-- The figure is 18 for each record, and the encodings are at least 55 bytes. -/
theorem figures_of_plan {σ : Nat} {sha256Prefix : String → String} {config : LogsAdapterConfig}
    {batch : ClickHouseAdapterBatch} {chunks : List InsertChunk}
    (planned : plan σ sha256Prefix config batch = some (.ok chunks)) :
    (plannedValues chunks).length = 18 * (plannedRows chunks).length ∧
      55 * (plannedRows chunks).length ≤ rowBinaryBytes chunks := by
  have logs : ∀ row ∈ plannedRows chunks, ∃ config r, row = logRow config r := by
    intro row member
    obtain ⟨chunk, inPlan, inChunk⟩ := List.mem_flatMap.mp member
    exact (logChunk_of_plan planned inPlan).logs row inChunk
  constructor
  · have wide : ∀ size ∈ (plannedRows chunks).map List.length, size = 18 := by
      intro size member
      obtain ⟨row, inPlan, rfl⟩ := List.mem_map.mp member
      obtain ⟨config, r, rfl⟩ := logs row inPlan
      rfl
    rw [plannedValues, List.length_flatten, List.sum_eq_card_nsmul _ 18 wide, List.length_map]
    exact Nat.mul_comm _ _
  · have long : ∀ size ∈ (plannedRows chunks).map rowBytes, 55 ≤ size := by
      intro size member
      obtain ⟨row, inPlan, rfl⟩ := List.mem_map.mp member
      obtain ⟨config, r, rfl⟩ := logs row inPlan
      exact rowBytes_logRow config r
    have total := List.card_nsmul_le_sum _ 55 long
    rw [List.length_map] at total
    rw [rowBinaryBytes, sum_plannedRows]
    exact (Nat.mul_comm _ _).trans_le total

/-! ## What a write reports -/

section Reports

variable {R : Type} [TypedRecords R] [DowncastLogs R] {planner : Planner} {writer : WriterConfig}
  {script : Nat → AttemptOutcome} {commit : SinkCommit R} {before after : ClickHouseMetrics}
  {log : List Attempt} {value : SinkCommitResult}

theorem Committed.bytesWritten {selected : List DecodedLogRecord} {chunks : List InsertChunk}
    (committed : Committed planner commit before after value selected chunks) :
    value.bytesWritten = (plannedValues chunks).length := by
  rw [committed.result, length_plannedValues]

/-- Under the logs adapter the figure is 18 for each record, and each takes 55 bytes or more. -/
theorem Committed.log_figures {selected : List DecodedLogRecord} {chunks : List InsertChunk}
    (committed : Committed planner commit before after value selected chunks) {σ : Nat}
    {sha256Prefix : String → String} {config : LogsAdapterConfig}
    (isLogs : planner = plan σ sha256Prefix config) :
    value.bytesWritten = 18 * selected.length ∧
      55 * selected.length ≤ rowBinaryBytes chunks := by
  have plans := committed.plans
  rw [isLogs] at plans
  have figures := figures_of_plan plans
  rw [length_plannedRows, committed.covers] at figures
  rw [committed.bytesWritten]
  exact figures

/-- So it is right for a commit without records only. -/
theorem Committed.bytesWritten_eq_iff {selected : List DecodedLogRecord}
    {chunks : List InsertChunk}
    (committed : Committed planner commit before after value selected chunks) {σ : Nat}
    {sha256Prefix : String → String} {config : LogsAdapterConfig}
    (isLogs : planner = plan σ sha256Prefix config) :
    value.bytesWritten = rowBinaryBytes chunks ↔ selected = [] := by
  obtain ⟨figure, encoded⟩ := committed.log_figures isLogs
  constructor
  · intro same
    apply List.length_eq_zero_iff.mp
    omega
  · rintro rfl
    have noRows : plannedRows chunks = [] := by
      apply List.length_eq_zero_iff.mp
      rw [length_plannedRows, committed.covers]
      rfl
    rw [committed.bytesWritten, rowBinaryBytes_eq, plannedValues, noRows]
    rfl

/-- The two figures are the encoded bytes exactly when every planned value is a single byte;
for the rows of log records this means that there are none. -/
theorem bytes_written_are_encoded_bytes_iff
    (answered : writeWithMetrics planner writer script commit before =
      some (after, log, .ok value)) :
    ∃ selected chunks, DowncastLogs.records? commit.batch.records = some selected ∧
      planner ⟨commit.identity, selected⟩ = some (.ok chunks) ∧
      (value.bytesWritten = rowBinaryBytes chunks ↔
        ∀ planned ∈ plannedValues chunks, planned.singleByte = true) ∧
      (after.commitBytes = before.commitBytes + rowBinaryBytes chunks ↔
        ∀ planned ∈ plannedValues chunks, planned.singleByte = true) ∧
      ∀ σ sha256Prefix config, planner = plan σ sha256Prefix config →
        (value.bytesWritten = rowBinaryBytes chunks ↔ selected = []) ∧
        (after.commitBytes = before.commitBytes + rowBinaryBytes chunks ↔ selected = []) := by
  obtain ⟨selected, chunks, committed⟩ := writeWithMetrics_ok answered
  have counted : after.commitBytes = before.commitBytes + rowBinaryBytes chunks ↔
      value.bytesWritten = rowBinaryBytes chunks := by
    rw [committed.bytes_counted]
    exact Nat.add_left_cancel_iff
  have single : value.bytesWritten = rowBinaryBytes chunks ↔
      ∀ planned ∈ plannedValues chunks, planned.singleByte = true := by
    rw [committed.bytesWritten]
    exact length_plannedValues_eq_iff chunks
  refine ⟨selected, chunks, committed.downcast, committed.plans, single, counted.trans single, ?_⟩
  intro σ sha256Prefix config isLogs
  have empty := committed.bytesWritten_eq_iff isLogs
  exact ⟨empty, counted.trans empty⟩

/-- Over the life of a sink with the logs adapter, `commit_bytes` counts 18 for each row. -/
theorem commit_bytes_follow_rows_committed
    {calls : List (SinkCommit R × (Nat → AttemptOutcome))} {answers : List SinkWriteAnswer}
    {σ : Nat} {sha256Prefix : String → String} {config : LogsAdapterConfig}
    (ran : writeAll (plan σ sha256Prefix config) writer calls before = some (after, answers))
    (start : before.commitBytes = 18 * Tally.total before.rowsCommitted) :
    after.commitBytes = 18 * Tally.total after.rowsCommitted := by
  obtain ⟨rows, bytes⟩ := writeAll_moves ran
  have each : ∀ answer ∈ answers, reported SinkCommitResult.bytesWritten answer =
      18 * reported SinkCommitResult.rowsWritten answer := by
    intro answer member
    obtain ⟨commit, script, start, counted, log, answered⟩ := writeAll_answered ran member
    cases answer with
    | error failure => rfl
    | ok value =>
        obtain ⟨selected, chunks, committed⟩ := writeWithMetrics_ok answered
        have figure := (committed.log_figures rfl).1
        rw [committed.result] at figure ⊢
        exact figure
  rw [rows, bytes, start, Nat.mul_add, List.map_congr_left each, List.sum_map_mul_left]

/-! ## Two commits -/

def deliveringScript : Nat → AttemptOutcome := fun _ => .answered (.response 200 "")

theorem rowBytes_plainRecord (number : U32) :
    rowBytes (logRow (smallChunks 1 1) (plainRecord "m" 0 0 number "")) = 67 := by
  have severityText : (writeText "INFO").length = 5 := length_text_of_short (by decide)
  have serviceName : (writeText "api").length = 4 := length_text_of_short (by decide)
  have manifestPath : (writeText "m").length = 2 := length_text_of_short (by decide)
  have dataPath : (writeText "data").length = 5 := length_text_of_short (by decide)
  have noText : (writeText "").length = 1 := length_text_of_short (by decide)
  have noEntries : (writeVaruint 0).length = 1 := length_varuint_of_lt (by decide)
  have noAttributes : (SortedMap.empty : Attributes).entries = [] := rfl
  have removed : (SortedMap.empty : Attributes).remove gatewayReceivedAt = SortedMap.empty := rfl
  simp only [rowBytes, logRow, plainRecord, List.map_cons, List.map_nil, List.sum_cons,
    List.sum_nil, RowValue.writeRowBinary, i64Bytes, length_le, severityText, serviceName,
    manifestPath, dataPath, noText, removed, noAttributes, noEntries, List.length_singleton,
    List.length_nil, List.flatMap_nil, List.append_nil, Option.getD_some, SortedMap.get?_empty,
    Option.bind_none, Nat.reduceAdd]

/-- Two records of 67 bytes each are reported as 36 bytes. -/
theorem bytes_written_counts_values : ∃ after log value chunks,
    writeWithMetrics singleRowPlanner ⟨6, .rowBinary⟩ deliveringScript twoRowCommit .new =
      some (after, log, .ok value) ∧
    singleRowPlanner ⟨twoRowCommit.identity, twoRowCommit.batch.records.records⟩ =
      some (.ok chunks) ∧
    value.bytesWritten = 36 ∧ after.commitBytes = 36 ∧ rowBinaryBytes chunks = 134 := by
  let chunk (number : U32) : InsertChunk := emit (smallChunks 1 1) "2905800f7d7ac31c" "m" ⟨0, 0⟩
    [plainRecord "m" 0 0 number ""] number
  refine ⟨_, _, _, [chunk 0, chunk 1], rfl, rfl, rfl, rfl, ?_⟩
  have encoded (number : U32) : ((chunk number).rows.map rowBytes).sum = 67 := by
    change ([logRow (smallChunks 1 1) (plainRecord "m" 0 0 number "")].map rowBytes).sum = 67
    rw [List.map_singleton, List.sum_singleton, rowBytes_plainRecord]
  rw [rowBinaryBytes, List.map_cons, List.map_cons, encoded, encoded]
  rfl

def noRecordsCommit : SinkCommit (TypedDecodedLogs 288) where
  identity := firstRange 1
  batch := {
    source := ⟨"manifest"⟩
    lowSequence := 0
    highSequence := 0
    sourceEntryCount := 1
    records := ⟨[]⟩
    sourceColumns := ⟨"m", "data", [], [], [], []⟩
    stats := ⟨0, 0⟩
    schemaVersion := ⟨1⟩ }

theorem bytes_written_are_encoded_bytes_without_records : ∃ after log value chunks,
    writeWithMetrics singleRowPlanner ⟨6, .rowBinary⟩ deliveringScript noRecordsCommit .new =
      some (after, log, .ok value) ∧
    value.bytesWritten = rowBinaryBytes chunks ∧
    after.commitBytes = ClickHouseMetrics.new.commitBytes + rowBinaryBytes chunks := by
  obtain ⟨after, log, value, answered⟩ : ∃ after log value,
      writeWithMetrics singleRowPlanner ⟨6, .rowBinary⟩ deliveringScript noRecordsCommit .new =
        some (after, log, .ok value) := ⟨_, _, _, rfl⟩
  obtain ⟨selected, chunks, downcast, _, _, _, logs⟩ :=
    bytes_written_are_encoded_bytes_iff answered
  have none : selected = [] := (Option.some.inj downcast).symm
  obtain ⟨reported, counted⟩ := logs 288 _ _ rfl
  exact ⟨after, log, value, chunks, answered, reported.mpr none, counted.mpr none⟩

end Reports

end OpendataIngest.ClickHouse
