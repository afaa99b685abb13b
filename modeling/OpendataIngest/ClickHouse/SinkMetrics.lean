import OpendataIngest.ClickHouse.SinkWrite
import OpendataIngest.Lib.Tally

/-!
# What a write counts

The two counters of `metrics.rs` that `ClickHouseSink::write` moves: `rows_committed`, one
counter for each `_odb_run_id`, and `commit_bytes`.  They move once all chunks are
delivered, and no other path of the call touches them.
-/

set_option autoImplicit false

namespace OpendataIngest.ClickHouse

open MachineInt OpendataIngest.Runtime Otel

/-! ## The counters -/

def odbRunIdAttr : String := "_odb_run_id"

def unknownRunIdLabel : String := "unknown"

/-- The bucket of a record. -/
def runId (rec : DecodedLogRecord) : String :=
  (rec.logAttributes.get? odbRunIdAttr).getD unknownRunIdLabel

def bucketRowsByRunId (records : List DecodedLogRecord) : Tally String :=
  Tally.ofKeys (records.map runId)

structure ClickHouseMetrics where
  rowsCommitted : Tally String
  commitBytes : Nat

def ClickHouseMetrics.new : ClickHouseMetrics := ⟨SortedMap.empty, 0⟩

/-- The counters at the end of `execute_all`. -/
def ClickHouseMetrics.afterExecute (metrics : ClickHouseMetrics) (rowsByRunId : Tally String)
    (planned : PlannedCommit) (result : Except WriterError Unit) : ClickHouseMetrics :=
  match result with
  | .ok _ =>
      { rowsCommitted := Tally.addAll metrics.rowsCommitted rowsByRunId.entries
        commitBytes := metrics.commitBytes + planned.bytesWritten }
  | .error _ => metrics

section Write

variable {R : Type} [TypedRecords R] [DowncastLogs R]

/-- `selected` of `ClickHouseSink::write`. -/
def selectedRecords (commit : SinkCommit R) : List DecodedLogRecord :=
  (DowncastLogs.records? commit.batch.records).getD []

/-- `ClickHouseSink::write`, with its counters. -/
def writeWithMetrics (planner : Planner) (writer : WriterConfig) (script : Nat → AttemptOutcome)
    (commit : SinkCommit R) (metrics : ClickHouseMetrics) :
    Option (ClickHouseMetrics × List Attempt × SinkWriteAnswer) :=
  let rowsByRunId := bucketRowsByRunId (selectedRecords commit)
  match planCommit planner commit with
  | none => none
  | some (.error failure) => some (metrics, [], .error failure)
  | some (.ok planned) =>
      let call := WriteCall.run writer (planned.chunks.length * attemptLimit writer) script
        ⟨[], 0, executeAll writer planned.chunks⟩
      match call.state with
      | .done result =>
          some (metrics.afterExecute rowsByRunId planned result, call.log,
            writeAnswer planned result)
      | _ => none

/-- The counters decide nothing. -/
theorem writeWithMetrics_write (planner : Planner) (writer : WriterConfig)
    (script : Nat → AttemptOutcome) (commit : SinkCommit R) (metrics : ClickHouseMetrics) :
    (writeWithMetrics planner writer script commit metrics).map Prod.snd =
      write planner writer script commit := by
  unfold writeWithMetrics write
  cases planCommit planner commit with
  | none => rfl
  | some checked =>
      cases checked with
      | error failure => rfl
      | ok planned =>
          dsimp only
          generalize WriteCall.run _ _ _ _ = call
          cases call.state with
          | done result => rfl
          | _ => rfl

/-- A write either is refused before its first request, or runs to its end and then counts. -/
theorem writeWithMetrics_cases {planner : Planner} {writer : WriterConfig}
    {script : Nat → AttemptOutcome} {commit : SinkCommit R} {before after : ClickHouseMetrics}
    {log : List Attempt} {answer : SinkWriteAnswer}
    (answered : writeWithMetrics planner writer script commit before =
      some (after, log, answer)) :
    (after = before ∧ ∃ failure, answer = .error failure) ∨
    ∃ planned result, planCommit planner commit = some (.ok planned) ∧
      after = before.afterExecute (bucketRowsByRunId (selectedRecords commit)) planned result ∧
      answer = writeAnswer planned result := by
  unfold writeWithMetrics at answered
  dsimp only at answered
  split at answered
  case h_1 => cases answered
  case h_2 failure rejected =>
    cases answered
    exact Or.inl ⟨rfl, failure, rfl⟩
  case h_3 planned accepted =>
    split at answered
    case h_1 result ended =>
      cases answered
      exact Or.inr ⟨planned, result, accepted, rfl, rfl⟩
    case h_2 => cases answered

end Write

/-! ## What moves them -/

/-- A write of a commit's records that succeeded, and what it has counted. -/
structure Committed {R : Type} [TypedRecords R] [DowncastLogs R] (planner : Planner)
    (commit : SinkCommit R) (before after : ClickHouseMetrics) (value : SinkCommitResult)
    (selected : List DecodedLogRecord) (chunks : List InsertChunk) : Prop where
  accepted : planCommit planner commit =
    some (.ok ⟨chunks, value.bytesWritten, value.rowsWritten⟩)
  downcast : DowncastLogs.records? commit.batch.records = some selected
  plans : planner ⟨commit.identity, selected⟩ = some (.ok chunks)
  covers : (chunks.map InsertChunk.rowsCount).sum = selected.length
  result : value =
    ⟨(chunks.map fun c => (c.rows.map List.length).sum).sum, selected.length⟩
  counted : after =
    ⟨Tally.addAll before.rowsCommitted (bucketRowsByRunId selected).entries,
      before.commitBytes + value.bytesWritten⟩

section Counted

variable {R : Type} [TypedRecords R] [DowncastLogs R] {planner : Planner} {writer : WriterConfig}
  {script : Nat → AttemptOutcome} {commit : SinkCommit R} {before after : ClickHouseMetrics}
  {log : List Attempt} {value : SinkCommitResult}

/-- A write that does not succeed counts nothing. -/
theorem writeWithMetrics_error {failure : SinkCommitFailure}
    (answered : writeWithMetrics planner writer script commit before =
      some (after, log, .error failure)) : after = before := by
  rcases writeWithMetrics_cases answered with ⟨same, _⟩ | ⟨planned, result, _, counted, failed⟩
  · exact same
  · cases result with
    | ok value => cases failed
    | error e => exact counted

theorem writeWithMetrics_ok
    (answered : writeWithMetrics planner writer script commit before =
      some (after, log, .ok value)) :
    ∃ selected chunks, Committed planner commit before after value selected chunks := by
  rcases writeWithMetrics_cases answered with
    ⟨_, failure, failed⟩ | ⟨planned, result, accepted, counted, succeeded⟩
  · cases failed
  · obtain ⟨selected, chunks, downcast, plans, covers, rfl⟩ := planCommit_planned accepted
    obtain rfl := writeAnswer_ok succeeded.symm
    cases succeeded
    rw [selectedRecords, downcast] at counted
    exact ⟨selected, chunks, accepted, downcast, plans, covers, rfl, counted⟩

variable {selected : List DecodedLogRecord} {chunks : List InsertChunk}
  (committed : Committed planner commit before after value selected chunks)
include committed

/-- Every record moves the counter of its run by one. -/
theorem Committed.rows_counted (run : String) : Tally.count after.rowsCommitted run =
    Tally.count before.rowsCommitted run + (selected.map runId).count run := by
  rw [committed.counted, Tally.count_addAll_entries, bucketRowsByRunId, Tally.count_ofKeys]

/-- All runs together move by the rows that the result reports. -/
theorem Committed.rows_total : Tally.total after.rowsCommitted =
    Tally.total before.rowsCommitted + value.rowsWritten := by
  rw [committed.counted, Tally.total_addAll_entries, bucketRowsByRunId, Tally.total_ofKeys,
    List.length_map, committed.result]

theorem Committed.bytes_counted :
    after.commitBytes = before.commitBytes + value.bytesWritten := by
  rw [committed.counted]

end Counted

/-! ## The life of a sink -/

/-- The writes of a sink, each with what its attempts meet, in the order in which they end. -/
def writeAll {R : Type} [TypedRecords R] [DowncastLogs R] (planner : Planner)
    (writer : WriterConfig) : List (SinkCommit R × (Nat → AttemptOutcome)) → ClickHouseMetrics →
      Option (ClickHouseMetrics × List SinkWriteAnswer)
  | [], metrics => some (metrics, [])
  | (commit, script) :: rest, metrics =>
      match writeWithMetrics planner writer script commit metrics with
      | none => none
      | some (counted, _, answer) =>
          (writeAll planner writer rest counted).map fun later => (later.1, answer :: later.2)

/-- What an answer reports; an error reports nothing. -/
def reported (figure : SinkCommitResult → Nat) : SinkWriteAnswer → Nat
  | .ok value => figure value
  | .error _ => 0

section Life

variable {R : Type} [TypedRecords R] [DowncastLogs R] {planner : Planner} {writer : WriterConfig}
  {calls : List (SinkCommit R × (Nat → AttemptOutcome))} {before after : ClickHouseMetrics}
  {answers : List SinkWriteAnswer}

theorem writeWithMetrics_moves {script : Nat → AttemptOutcome} {commit : SinkCommit R}
    {log : List Attempt} {answer : SinkWriteAnswer}
    (answered : writeWithMetrics planner writer script commit before =
      some (after, log, answer)) :
    Tally.total after.rowsCommitted = Tally.total before.rowsCommitted +
        reported SinkCommitResult.rowsWritten answer ∧
      after.commitBytes = before.commitBytes +
        reported SinkCommitResult.bytesWritten answer := by
  cases answer with
  | ok value =>
      obtain ⟨selected, chunks, committed⟩ := writeWithMetrics_ok answered
      exact ⟨committed.rows_total, committed.bytes_counted⟩
  | error failure =>
      rw [writeWithMetrics_error answered]
      exact ⟨rfl, rfl⟩

theorem writeAll_cons {commit : SinkCommit R} {script : Nat → AttemptOutcome}
    (ran : writeAll planner writer ((commit, script) :: calls) before = some (after, answers)) :
    ∃ counted log answer later, answers = answer :: later ∧
      writeWithMetrics planner writer script commit before = some (counted, log, answer) ∧
      writeAll planner writer calls counted = some (after, later) := by
  unfold writeAll at ran
  split at ran
  case h_1 => cases ran
  case h_2 counted log answer answered =>
    obtain ⟨⟨after', later⟩, rest, same⟩ := Option.map_eq_some_iff.mp ran
    cases same
    exact ⟨counted, log, answer, later, rfl, answered, rest⟩

/-- The counters move by what the answers report. -/
theorem writeAll_moves (ran : writeAll planner writer calls before = some (after, answers)) :
    Tally.total after.rowsCommitted = Tally.total before.rowsCommitted +
        (answers.map (reported SinkCommitResult.rowsWritten)).sum ∧
      after.commitBytes = before.commitBytes +
        (answers.map (reported SinkCommitResult.bytesWritten)).sum := by
  induction calls generalizing before answers with
  | nil =>
      cases ran
      exact ⟨rfl, rfl⟩
  | cons call rest ih =>
      obtain ⟨counted, log, answer, later, rfl, answered, ranRest⟩ := writeAll_cons ran
      obtain ⟨rows, bytes⟩ := writeWithMetrics_moves answered
      obtain ⟨laterRows, laterBytes⟩ := ih ranRest
      simp only [List.map_cons, List.sum_cons]
      omega

theorem writeAll_answered (ran : writeAll planner writer calls before = some (after, answers))
    {answer : SinkWriteAnswer} (member : answer ∈ answers) :
    ∃ (commit : SinkCommit R) (script : Nat → AttemptOutcome)
      (start counted : ClickHouseMetrics) (log : List Attempt),
      writeWithMetrics planner writer script commit start = some (counted, log, answer) := by
  induction calls generalizing before answers with
  | nil =>
      cases ran
      cases member
  | cons call rest ih =>
      obtain ⟨counted, log, first, later, rfl, answered, ranRest⟩ := writeAll_cons ran
      rcases List.mem_cons.mp member with isFirst | isLater
      · rw [isFirst]
        exact ⟨call.1, call.2, before, counted, log, answered⟩
      · exact ih ranRest isLater

end Life

end OpendataIngest.ClickHouse
