import OpendataIngest.ClickHouse.Writer

/-!
# The ClickHouse sink

`ClickHouseSink` of `sink.rs`: the checks before the first request, the writer's run, and
what its result means to the runtime.
-/

set_option autoImplicit false

namespace OpendataIngest.ClickHouse

open MachineInt OpendataIngest.Runtime Otel

/-- `TypedRecords::as_any` with `downcast_ref::<TypedDecodedLogs>`. -/
class DowncastLogs (R : Type) where
  records? : R → Option (List DecodedLogRecord)

instance (σ : Nat) : DowncastLogs (TypedDecodedLogs σ) where
  records? logs := some logs.records

abbrev Planner : Type :=
  ClickHouseAdapterBatch → Option (Except AdapterError (List InsertChunk))

structure PlannedCommit where
  chunks : List InsertChunk
  bytesWritten : Nat
  rowsWritten : Nat

def schemaDebug (schema : TypedSchema) : String :=
  "TypedSchema \x7b name: " ++ String.quote schema.name ++
    s!", version: SchemaVersion({schema.version.version.val}) " ++ "\x7d"

variable {R : Type} [TypedRecords R] [DowncastLogs R]

/-- `ClickHouseSink::write` up to `execute_all`; `none` when the adapter panics. -/
def planCommit (planner : Planner) (commit : SinkCommit R) :
    Option (Except SinkCommitFailure PlannedCommit) :=
  let identity := commit.identity
  let batch := commit.batch
  if identity.range.low ≠ batch.lowSequence ∨ identity.range.high ≠ batch.highSequence then
    some (.error (.fatal (s!"SinkCommit identity range {identity.range.low.val}..=" ++
      s!"{identity.range.high.val} disagrees with DecodedBatch range " ++
      s!"{batch.lowSequence.val}..={batch.highSequence.val}")))
  else match DowncastLogs.records? batch.records with
    | none =>
        some (.error (.fatal (s!"ClickHouseSink expects TypedDecodedLogs " ++
          s!"(schema {otlpLogsSchemaName}), got " ++
          schemaDebug (TypedRecords.schema batch.records))))
    | some selected =>
        match planner ⟨identity, selected⟩ with
        | none => none
        | some (.error e) => some (.error (.fatal e.text))
        | some (.ok chunks) =>
            let inputRowCount := selected.length
            let chunkRowTotal := (chunks.map InsertChunk.rowsCount).sum
            if chunkRowTotal ≠ inputRowCount then
              some (.error (.fatal (s!"adapter plan covered {chunkRowTotal} rows but commit " ++
                s!"held {inputRowCount}; refusing to insert and ack a partial/dropped chunking")))
            else
              some (.ok {
                chunks := chunks
                bytesWritten := (chunks.map fun c => (c.rows.map List.length).sum).sum
                rowsWritten := chunkRowTotal })

/-- The closing `match` of `ClickHouseSink::write`. -/
def writeAnswer (planned : PlannedCommit) (result : Except WriterError Unit) : SinkWriteAnswer :=
  match result with
  | .ok _ => .ok ⟨planned.bytesWritten, planned.rowsWritten⟩
  | .error e =>
      match e.errorClass with
      | .retryable => .error (.maybeCommitted e.text)
      | .retryBudgetExhausted => .error (.maybeCommitted e.text)
      | .nonRetryable => .error (.fatal e.text)

def checkCommitted (_identity : CommitIdentity) : RuntimeResult CommitStatus := .ok .unknown

/-! ## A call in progress -/

/-- A `Sink::write` that has not returned.  `request` is the request it waits for. -/
inductive SinkCall where
  | rejected (failure : SinkCommitFailure)
  | running (planned : PlannedCommit) (state : WriterState) (request : Option Nat)

/-- The answer of a call that has come to its end. -/
def SinkCall.answer? : SinkCall → Option SinkWriteAnswer
  | .rejected failure => some (.error failure)
  | .running planned (.done result) _ => some (writeAnswer planned result)
  | .running _ _ _ => none

def beginWrite (planner : Planner) (writer : WriterConfig) (commit : SinkCommit R) :
    Option SinkCall :=
  (planCommit planner commit).map fun result => match result with
    | .error failure => .rejected failure
    | .ok planned => .running planned (executeAll writer planned.chunks) none

/-- A planned commit: its chunks cover its records, and its figures are read off the chunks. -/
theorem planCommit_planned {planner : Planner} {commit : SinkCommit R} {planned : PlannedCommit}
    (accepted : planCommit planner commit = some (.ok planned)) :
    ∃ selected chunks, DowncastLogs.records? commit.batch.records = some selected ∧
      planner ⟨commit.identity, selected⟩ = some (.ok chunks) ∧
      (chunks.map InsertChunk.rowsCount).sum = selected.length ∧
      planned = ⟨chunks, (chunks.map fun c => (c.rows.map List.length).sum).sum,
        selected.length⟩ := by
  unfold planCommit at accepted
  dsimp only at accepted
  split_ifs at accepted
  · cases accepted
  · split at accepted
    · cases accepted
    · rename_i selected downcast
      split at accepted
      · cases accepted
      · cases accepted
      · rename_i chunks plans
        split_ifs at accepted with uncovered
        · cases accepted
        · have covered := not_not.mp uncovered
          rw [covered] at accepted
          cases accepted
          exact ⟨selected, chunks, downcast, plans, covered, rfl⟩

/-- A commit whose write begins has been planned for its own range and records. -/
theorem planCommit_ok {planner : Planner} {commit : SinkCommit R} {planned : PlannedCommit}
    (accepted : planCommit planner commit = some (.ok planned)) :
    ∃ selected, DowncastLogs.records? commit.batch.records = some selected ∧
      planner ⟨commit.identity, selected⟩ = some (.ok planned.chunks) ∧
      planned.rowsWritten = selected.length := by
  obtain ⟨selected, chunks, downcast, plans, _, rfl⟩ := planCommit_planned accepted
  exact ⟨selected, downcast, plans, rfl⟩

theorem writeAnswer_ok {planned : PlannedCommit} {result : Except WriterError Unit}
    {value : SinkCommitResult} (answered : writeAnswer planned result = .ok value) :
    result = .ok () := by
  cases result with
  | ok value => rfl
  | error e =>
      unfold writeAnswer at answered
      dsimp only at answered
      split at answered
      all_goals cases answered

end OpendataIngest.ClickHouse
