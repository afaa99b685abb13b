import OpendataIngest.ClickHouse.CommitBytes

/-!
# The bytes that were delivered

The attempts of a write that got a 2xx carry the planned chunks, each one once and in the
order of the plan.  So a write that succeeds has delivered a header for each chunk and the
encodings of all values, and this is what its figures are compared with.
-/

set_option autoImplicit false

namespace OpendataIngest.ClickHouse

open MachineInt OpendataIngest.Runtime Otel ByteCodec

/-! ## Delivered chunks -/

def deliveredAttempts (log : List Attempt) : List Attempt :=
  log.filter fun attempt => attempt.outcome.isSuccess

def deliveredChunks (log : List Attempt) : List InsertChunk :=
  (deliveredAttempts log).map Attempt.chunk

theorem deliveredChunks_success (log : List Attempt) {attempt : Attempt}
    (success : attempt.outcome.isSuccess = true) :
    deliveredChunks (log ++ [attempt]) = deliveredChunks log ++ [attempt.chunk] := by
  simp [deliveredChunks, deliveredAttempts, success]

theorem deliveredChunks_failure (log : List Attempt) {attempt : Attempt}
    (failed : attempt.outcome.isSuccess = false) :
    deliveredChunks (log ++ [attempt]) = deliveredChunks log := by
  simp [deliveredChunks, deliveredAttempts, failed]

/-- The chunks delivered so far are those before the current one. -/
def WriteCall.Delivers (chunks : List InsertChunk) (call : WriteCall) : Prop :=
  match call.state with
  | .posting _ _ chunk rest => deliveredChunks call.log ++ chunk :: rest = chunks
  | .done (.ok _) => deliveredChunks call.log = chunks
  | .done (.error _) => deliveredChunks call.log <+: chunks
  | _ => False

section Calls

variable {config : WriterConfig} {chunks rest : List InsertChunk} {log : List Attempt}

theorem delivers_executeAll (position : Nat) (cut : deliveredChunks log ++ rest = chunks) :
    WriteCall.Delivers chunks ⟨log, position, executeAll config rest⟩ := by
  cases rest with
  | nil =>
      rw [List.append_nil] at cut
      exact cut
  | cons chunk later =>
      cases serialized : serialize config.serializationFormat chunk with
      | error e =>
          simp only [executeAll, serialized]
          exact ⟨chunk :: later, cut⟩
      | ok body =>
          simp only [executeAll, serialized]
          exact cut

theorem delivers_step {call : WriteCall} (delivers : call.Delivers chunks)
    (outcome : AttemptOutcome) : (call.step config outcome).Delivers chunks := by
  obtain ⟨log, position, state⟩ := call
  cases state with
  | awaiting attempt body chunk rest => exact delivers.elim
  | backingOff attempt body chunk rest => exact delivers.elim
  | done result => exact delivers
  | posting attempt body chunk rest =>
      have cut : deliveredChunks log ++ chunk :: rest = chunks := delivers
      have unchanged (failed : outcome.isSuccess = false) : deliveredChunks
          (log ++ [⟨position, chunk, attemptRequest chunk body outcome, outcome⟩]) =
          deliveredChunks log := deliveredChunks_failure log failed
      simp only [WriteCall.step]
      rcases outcome.result_cases with ⟨success, result⟩ | ⟨failed, _, e, result, isClass⟩ |
        ⟨failed, _, e, result, isClass⟩
      · rw [result, afterAttempt, resume_executeAll]
        apply delivers_executeAll
        rw [deliveredChunks_success log success, List.append_assoc]
        exact cut
      · rw [← unchanged failed] at cut
        rw [result]
        simp only [afterAttempt, isClass]
        by_cases more : attempt < config.maxAttempts.val
        · rw [if_pos more]
          exact cut
        · rw [if_neg more]
          exact ⟨chunk :: rest, cut⟩
      · rw [← unchanged failed] at cut
        rw [result]
        simp only [afterAttempt, isClass]
        exact ⟨chunk :: rest, cut⟩

theorem delivers_run (fuel : Nat) (script : Nat → AttemptOutcome) {call : WriteCall}
    (delivers : call.Delivers chunks) : (call.run config fuel script).Delivers chunks := by
  induction fuel generalizing script call with
  | zero => exact delivers
  | succ fuel ih => exact ih _ (delivers_step delivers (script 0))

end Calls

/-! ## Delivered bodies -/

def headerBytes (chunk : InsertChunk) : Nat :=
  match writeTypes chunk.columns with
  | .ok types =>
      (writeVaruint chunk.columns.length ++ chunk.columns.flatMap writeText ++ types).length
  | .error _ => 0

def Attempt.bodyBytes (attempt : Attempt) : Nat :=
  (attempt.request.map fun request => request.body.rowBinary.length).getD 0

def deliveredBytes (log : List Attempt) : Nat :=
  ((deliveredAttempts log).map Attempt.bodyBytes).sum

/-- A body is the header and the encodings of the chunk's values. -/
theorem length_serializeRowBinary {chunk : InsertChunk} {bytes : List UInt8}
    (serialized : serializeRowBinary chunk = .ok bytes) :
    bytes.length = headerBytes chunk + (chunk.rows.map rowBytes).sum := by
  have rows : (chunk.rows.flatMap fun row => row.flatMap RowValue.writeRowBinary).length =
      (chunk.rows.map rowBytes).sum := by
    rw [List.length_flatMap]
    congr 2
    funext row
    exact List.length_flatMap
  unfold serializeRowBinary at serialized
  rw [writeRows_eq] at serialized
  unfold headerBytes
  cases named : writeTypes chunk.columns with
  | error e =>
      rw [named] at serialized
      cases serialized
  | ok types =>
      rw [named] at serialized
      cases checked : checkRows chunk.columns.length chunk.rows with
      | error e =>
          rw [checked] at serialized
          cases serialized
      | ok value =>
          rw [checked] at serialized
          cases serialized
          rw [List.length_append, rows]

theorem deliveredBytes_eq {config : WriterConfig} {chunks : List InsertChunk}
    {log : List Attempt} (kept : LogKept config chunks log)
    (format : config.serializationFormat = .rowBinary) :
    deliveredBytes log = ((deliveredChunks log).map headerBytes).sum +
      rowBinaryBytes (deliveredChunks log) := by
  have bodies : ∀ attempt ∈ deliveredAttempts log, attempt.bodyBytes =
      headerBytes attempt.chunk + (attempt.chunk.rows.map rowBytes).sum := by
    intro attempt member
    obtain ⟨inLog, success⟩ := List.mem_filter.mp member
    obtain ⟨body, _, serialized, request⟩ := kept.made attempt inLog
    rw [format] at serialized
    have bytes := serializeRowBinary_eq attempt.chunk
    rw [serialized] at bytes
    rw [← length_serializeRowBinary bytes, Attempt.bodyBytes, request]
    cases sent : attempt.outcome with
    | noClient message =>
        rw [sent] at success
        cases success
    | answered outcome => rfl
  rw [deliveredBytes, List.map_congr_left bodies, List.sum_map_add, deliveredChunks,
    rowBinaryBytes, List.map_map, List.map_map]
  rfl

/-! ## Writes -/

section Writes

variable {R : Type} [TypedRecords R] [DowncastLogs R] {planner : Planner} {writer : WriterConfig}
  {script : Nat → AttemptOutcome} {commit : SinkCommit R} {log : List Attempt}

/-- A write delivers the first chunks of its plan, and all of them when it succeeds. -/
theorem write_delivers {planned : PlannedCommit} {answer : SinkWriteAnswer}
    (accepted : planCommit planner commit = some (.ok planned))
    (answered : write planner writer script commit = some (log, answer)) :
    LogKept writer planned.chunks log ∧ deliveredChunks log <+: planned.chunks ∧
      ∀ value, answer = .ok value → deliveredChunks log = planned.chunks := by
  let fuel := planned.chunks.length * attemptLimit writer
  obtain ⟨log', position, result, ran, kept, _⟩ := run_ends fuel script kept_start
    (remaining_executeAll [] 0)
  have delivers : WriteCall.Delivers planned.chunks ⟨log', position, .done result⟩ := by
    rw [← ran]
    exact delivers_run fuel script (delivers_executeAll 0 rfl)
  simp only [write, accepted, fuel, ran] at answered ran
  cases answered
  cases result with
  | ok value =>
      have all : deliveredChunks log = planned.chunks := delivers
      exact ⟨kept, all ▸ List.prefix_rfl, fun _ _ => all⟩
  | error e =>
      refine ⟨kept, delivers, fun value succeeded => ?_⟩
      cases writeAnswer_ok succeeded

/-- A write that succeeds has delivered the encodings of its values and a header for each
chunk. -/
theorem write_delivers_encoded_bytes {before after : ClickHouseMetrics} {value : SinkCommitResult}
    (format : writer.serializationFormat = .rowBinary)
    (answered : writeWithMetrics planner writer script commit before =
      some (after, log, .ok value)) :
    ∃ selected chunks, Committed planner commit before after value selected chunks ∧
      deliveredChunks log = chunks ∧
      deliveredBytes log = (chunks.map headerBytes).sum + rowBinaryBytes chunks := by
  obtain ⟨selected, chunks, committed⟩ := writeWithMetrics_ok answered
  have written : write planner writer script commit = some (log, .ok value) := by
    rw [← writeWithMetrics_write, answered]
    rfl
  obtain ⟨kept, _, all⟩ := write_delivers committed.accepted written
  have delivered := all value rfl
  have bytes := deliveredBytes_eq kept format
  rw [delivered] at bytes
  exact ⟨selected, chunks, committed, delivered, bytes⟩

end Writes

end OpendataIngest.ClickHouse
