import OpendataIngest.ClickHouse.SinkWrite
import OpendataIngest.Runtime.Pipeline.ScriptedRetry
import Mathlib.Algebra.Group.Action.Defs
import Mathlib.Algebra.Order.BigOperators.Group.List

/-!
# The delivery of a commit

`write_with_retry` over the ClickHouse sink.  The sink's `check_committed` knows nothing, so
a write whose budget is spent is written again from its first chunk on: the two retry loops
multiply.  The outcomes of a delivery are given for each write and each of its attempts.
-/

set_option autoImplicit false

namespace OpendataIngest.ClickHouse

open MachineInt OpendataIngest.Runtime Pipeline Otel

/-! ## Deliveries -/

/-- `begun` is how many attempts a write has made when the token drops it.  The last of
them may never see its answer. -/
structure DeliveryScript where
  outcomes : Nat → Nat → AttemptOutcome
  abort : Nat → Interruption
  begun : Nat

section Deliver

variable {R : Type} [TypedRecords R] [DowncastLogs R]
variable (planner : Planner) (writer : WriterConfig) (commit : SinkCommit R)

/-- The sink under the script.  Only writes that return are asked for. -/
def DeliveryScript.sink (script : DeliveryScript) : SinkScript where
  writes k := match write planner writer (script.outcomes k) commit with
    | some (_, answer) => answer
    | none => .error (.fatal "")
  checks _ := checkCommitted commit.identity
  abort := script.abort

/-- The attempts of a write that is dropped. -/
def startedLog (attempts : Nat) (outcomes : Nat → AttemptOutcome) : List Attempt :=
  match planCommit planner commit with
  | some (.ok planned) =>
      (WriteCall.run writer attempts outcomes ⟨[], 0, executeAll writer planned.chunks⟩).log
  | _ => []

/-- The attempts behind the k-th write of the loop. -/
def DeliveryScript.writeLog (script : DeliveryScript) (event : SinkEvent R) (k : Nat) :
    List Attempt :=
  match event.answer with
  | some _ => match write planner writer (script.outcomes k) commit with
      | some (log, _) => log
      | none => []
  | none => startedLog planner writer commit script.begun (script.outcomes k)

/-- The attempts of all writes in a log of the loop. -/
def DeliveryScript.attemptLogs (script : DeliveryScript) (log : List (SinkEvent R)) :
    List (List Attempt) :=
  (writeEvents log).mapIdx fun k event => script.writeLog planner writer commit event k

/-- A commit through both loops, with the attempts of each write; `none` when the adapter
panics. -/
def deliver (options : RuntimeOptions) (script : DeliveryScript) :
    Option (List (List Attempt) × WriteAttempt) :=
  match planCommit planner commit with
  | none => none
  | some _ =>
      (writeWithRetry options commit (script.sink planner writer commit)).map fun delivered =>
        (script.attemptLogs planner writer commit delivered.1, delivered.2)

end Deliver

/-! ## What a delivery says -/

section Kept

variable (writer : WriterConfig) (chunks : List InsertChunk) (maxAttempts : Nat)

/-- Each write is a call of its own; all of them but the last one spent their budget. -/
structure DeliveryKept (logs : List (List Attempt)) : Prop where
  calls : ∀ log ∈ logs, LogKept writer chunks log
  budget : logs.length ≤ maxAttempts + 1
  repeated : ∀ log ∈ logs.dropLast, ∃ position, Exhausted writer chunks log position

/-- What the result of a delivery says.  The k-th write, its check and the backoff after it
are the awaits 3k, 3k + 1 and 3k + 2. -/
def DeliveryEnd (script : DeliveryScript) (logs : List (List Attempt)) (result : WriteAttempt) :
    Prop :=
  match result.outcome with
  | .committed => (∀ n < 3 * logs.length - 2, script.abort n = .no) ∧
      ∃ log ∈ logs.getLast?, ∀ position < chunks.length, Delivered log position
  | .verifiedAlreadyCommitted => False
  | .failedRetryable => (∀ n < 3 * logs.length - 2, script.abort n = .no) ∧
      logs.length = maxAttempts + 1 ∧
      ∀ log ∈ logs, ∃ position, Exhausted writer chunks log position
  | .failedFatal =>
      (∃ n, 3 * logs.length ≤ n + 3 ∧ n ≤ 3 * logs.length ∧ script.abort n ≠ .no) ∨
      (∀ n < 3 * logs.length - 2, script.abort n = .no) ∧
        ∃ log ∈ logs.getLast?, ∃ position, Refused writer chunks log position

/-- No attempt is answered for good, and nothing aborts. -/
structure Unreachable (script : DeliveryScript) : Prop where
  outcomes : ∀ k n, (script.outcomes k n).isRetryable = true
  abort : ∀ n, script.abort n = .no

end Kept

/-- The k-th write has the k-th outcomes.  It is a whole write, or the last one, which the
token dropped. -/
structure DeliveryScripted {R : Type} [TypedRecords R] [DowncastLogs R] (planner : Planner)
    (writer : WriterConfig) (commit : SinkCommit R) (script : DeliveryScript)
    (logs : List (List Attempt)) : Prop where
  outcomes : ∀ (k : Nat) (log : List Attempt), logs[k]? = some log →
    AsScripted (script.outcomes k) log
  whole : ∀ (k : Nat) (log : List Attempt), logs[k]? = some log →
    (∃ answer, write planner writer (script.outcomes k) commit = some (log, answer)) ∨
      k + 1 = logs.length ∧ script.abort (3 * k) = .duringCall ∧
        log = startedLog planner writer commit script.begun (script.outcomes k)
  awaited : ∀ n < 3 * (logs.length - 1), script.abort n = .no

/-! ## One write -/

section Write

variable {config : WriterConfig} {chunks : List InsertChunk}

theorem kept_run (fuel : Nat) (script : Nat → AttemptOutcome) {call : WriteCall}
    (kept : call.Kept config chunks) : (call.run config fuel script).Kept config chunks := by
  induction fuel generalizing script call with
  | zero => exact kept
  | succ fuel ih => exact ih _ (kept_step kept (script 0))

variable {R : Type} [TypedRecords R] [DowncastLogs R]
variable {planner : Planner} {commit : SinkCommit R} {planned : PlannedCommit}

theorem write_ends (config : WriterConfig)
    (accepted : planCommit planner commit = some (.ok planned)) (script : Nat → AttemptOutcome) :
    ∃ log result, write planner config script commit = some (log, writeAnswer planned result) ∧
      LogKept config planned.chunks log ∧ Ending config planned.chunks log result ∧
      AsScripted script log := by
  obtain ⟨log, position, result, ran, kept, ending, scripted⟩ :=
    call_ends config planned.chunks script
  refine ⟨log, result, ?_, kept, ending, scripted⟩
  simp only [write, accepted, ran]

/-- The attempts of a write that is dropped follow the script as well. -/
theorem startedLog_kept (config : WriterConfig)
    (accepted : planCommit planner commit = some (.ok planned)) (attempts : Nat)
    (script : Nat → AttemptOutcome) :
    LogKept config planned.chunks (startedLog planner config commit attempts script) ∧
      AsScripted script (startedLog planner config commit attempts script) := by
  obtain ⟨later, isLog, scripted⟩ :=
    run_log config attempts script ⟨[], 0, executeAll config planned.chunks⟩
  have started : startedLog planner config commit attempts script = later := by
    simp only [startedLog, accepted]
    exact isLog
  have start : WriteCall.Kept config planned.chunks ⟨[], 0, executeAll config planned.chunks⟩ :=
    kept_start
  have kept := (kept_run attempts script start).log
  rw [isLog] at kept
  rw [started]
  exact ⟨kept, scripted⟩

/-- A server that cannot be reached leaves a write at its first chunk. -/
theorem Ending.unreachable {log : List Attempt} {result : Except WriterError Unit}
    {chunk : InsertChunk} {body : InsertBody} (ending : Ending config chunks log result)
    (retryable : ∀ a ∈ log, a.outcome.isRetryable = true) (first : chunks[0]? = some chunk)
    (serialized : serialize config.serializationFormat chunk = .ok body) :
    Exhausted config chunks log 0 := by
  have undelivered : ∀ position, ¬ Delivered log position := fun position =>
    undelivered_of_retried fun a member _ => retryable a member
  have nonempty : 0 < chunks.length := (List.getElem?_eq_some_iff.mp first).1
  cases ending with
  | delivered front => exact absurd (front.passed 0 nonempty) (undelivered 0)
  | @exhausted e position front exhausted budget =>
      cases position with
      | zero => exact exhausted
      | succ before => exact absurd (front.passed 0 (Nat.succ_pos before)) (undelivered 0)
  | @refused e position front notDelivered refused fatal =>
      cases position with
      | succ before => exact absurd (front.passed 0 (Nat.succ_pos before)) (undelivered 0)
      | zero =>
          rcases refused.refused with ⟨a, member, _, _, notRetryable⟩ | ⟨other, e', present, failed⟩
          · rw [retryable a member] at notRetryable
            cases notRetryable
          · rw [first] at present
            cases present
            rw [serialized] at failed
            cases failed

end Write

/-! ## The writes of the loop -/

/-- What the answer of a write says about its attempts. -/
structure AnswerKept (config : WriterConfig) (chunks : List InsertChunk) (log : List Attempt)
    (answer : SinkWriteAnswer) : Prop where
  kept : LogKept config chunks log
  ok : ∀ value, answer = .ok value → ∀ position < chunks.length, Delivered log position
  maybe : ∀ message, answer = .error (.maybeCommitted message) →
    ∃ position, Exhausted config chunks log position
  fatal : ∀ message, answer = .error (.fatal message) →
    ∃ position, Refused config chunks log position
  settled : ∀ message, answer ≠ .error (.notCommitted message)

section Loop

variable {R : Type} [TypedRecords R] [DowncastLogs R]
variable {planner : Planner} {writer : WriterConfig} {commit : SinkCommit R}
  {planned : PlannedCommit} {script : DeliveryScript}

theorem answerKept_of_ending {log : List Attempt} {result : Except WriterError Unit}
    (kept : LogKept writer planned.chunks log) (ending : Ending writer planned.chunks log result) :
    AnswerKept writer planned.chunks log (writeAnswer planned result) := by
  obtain ⟨fatal, maybe, settled⟩ := writeAnswer_error_iff planned result
  refine ⟨kept, fun value isOk => ending.ok_iff.mp (writeAnswer_ok isOk), ?_, ?_, settled⟩
  · intro message isMaybe
    obtain ⟨e, failed, notFatal⟩ := maybe.mp ⟨message, isMaybe⟩
    have budget := (ending.settled e failed).resolve_right notFatal
    exact (ending.budget_iff kept).mp ⟨e, failed, budget⟩
  · intro message isFatal
    exact (ending.fatal_iff kept).mp (fatal.mp ⟨message, isFatal⟩)

/-- The k-th write of the loop, when it was answered. -/
theorem writeLog_answered (writer : WriterConfig) (script : DeliveryScript)
    (accepted : planCommit planner commit = some (.ok planned)) (k : Nat)
    (answer : SinkWriteAnswer) :
    ∃ log result, script.writeLog planner writer commit (.write commit (some answer)) k = log ∧
      (script.sink planner writer commit).writes k = writeAnswer planned result ∧
      write planner writer (script.outcomes k) commit = some (log, writeAnswer planned result) ∧
      LogKept writer planned.chunks log ∧ Ending writer planned.chunks log result ∧
      AsScripted (script.outcomes k) log := by
  obtain ⟨log, result, ran, kept, ending, scripted⟩ :=
    write_ends writer accepted (script.outcomes k)
  refine ⟨log, result, ?_, ?_, ran, kept, ending, scripted⟩
  · simp only [DeliveryScript.writeLog, SinkEvent.answer, Option.map_some, ran]
  · simp only [DeliveryScript.sink, ran]

theorem writeLog_kept (writer : WriterConfig) (script : DeliveryScript)
    (accepted : planCommit planner commit = some (.ok planned)) (k : Nat)
    (answer : SinkWriteAnswer) : AnswerKept writer planned.chunks
      (script.writeLog planner writer commit (.write commit (some answer)) k)
      ((script.sink planner writer commit).writes k) := by
  obtain ⟨log, result, isLog, isAnswer, _, kept, ending, _⟩ :=
    writeLog_answered writer script accepted k answer
  rw [isLog, isAnswer]
  exact answerKept_of_ending kept ending

variable {log : List (SinkEvent R)} {maxAttempts : Nat}

theorem length_attemptLogs :
    (script.attemptLogs planner writer commit log).length = writesIn log := by
  rw [DeliveryScript.attemptLogs, List.length_mapIdx, length_writeEvents]

theorem attemptLogs_at {k : Nat} {attempts : List Attempt}
    (present : (script.attemptLogs planner writer commit log)[k]? = some attempts) :
    ∃ event, (writeEvents log)[k]? = some event ∧
      attempts = script.writeLog planner writer commit event k := by
  rw [DeliveryScript.attemptLogs, List.getElem?_mapIdx] at present
  obtain ⟨event, isEvent, isLog⟩ := Option.map_eq_some_iff.mp present
  exact ⟨event, isEvent, isLog.symm⟩

theorem mem_attemptLogs {attempts : List Attempt}
    (member : attempts ∈ script.attemptLogs planner writer commit log) :
    ∃ k event, (writeEvents log)[k]? = some event ∧
      attempts = script.writeLog planner writer commit event k := by
  obtain ⟨k, present⟩ := List.mem_iff_getElem?.mp member
  exact ⟨k, attemptLogs_at present⟩

variable (accepted : planCommit planner commit = some (.ok planned))
include accepted

/-- The sink's writes never fail for certain. -/
theorem sink_settled (k : Nat) (e : BoxError) :
    (script.sink planner writer commit).writes k ≠ .error (.notCommitted e) :=
  (writeLog_kept writer script accepted k (.error (.fatal e))).settled e

variable (scripted : LogScripted commit (script.sink planner writer commit) log)
include scripted

/-- The last write is answered by the script too. -/
theorem attemptLogs_last {front : List (SinkEvent R)} {answer : SinkWriteAnswer}
    (shape : log = front ++ [.write commit (some answer)]) :
    ∃ attempts ∈ (script.attemptLogs planner writer commit log).getLast?,
      AnswerKept writer planned.chunks attempts answer := by
  have events : writeEvents log = writeEvents front ++ [.write commit (some answer)] := by
    rw [shape, writeEvents_write]
  have last : (writeEvents log)[(writeEvents front).length]? =
      some (.write commit (some answer)) := by
    rw [events, List.getElem?_concat_length]
  have isAnswer :
      answer = (script.sink planner writer commit).writes (writeEvents front).length := by
    rcases scripted.written _ _ last with answered | dropped
    · cases answered
      rfl
    · cases dropped
  have kept : AnswerKept writer planned.chunks (script.writeLog planner writer commit
      (.write commit (some answer)) (writeEvents front).length)
      ((script.sink planner writer commit).writes (writeEvents front).length) :=
    writeLog_kept writer script accepted _ answer
  rw [← isAnswer] at kept
  refine ⟨_, ?_, kept⟩
  rw [DeliveryScript.attemptLogs, events, List.mapIdx_concat, List.getLast?_concat]
  rfl

/-- A write whose answer lets the loop go on has spent its budget. -/
theorem exhausted_of_open {k : Nat} {event : SinkEvent R}
    (present : (writeEvents log)[k]? = some event)
    (open_ : ∃ a, event.answer = some a ∧ a.isOpen = true) :
    ∃ position, Exhausted writer planned.chunks
      (script.writeLog planner writer commit event k) position := by
  obtain ⟨a, answered, isOpen⟩ := open_
  rcases scripted.written k event present with rfl | rfl
  · have kept : AnswerKept writer planned.chunks (script.writeLog planner writer commit
        (.write commit (some ((script.sink planner writer commit).writes k))) k)
        ((script.sink planner writer commit).writes k) := writeLog_kept writer script accepted k _
    cases answered
    cases isAnswer : (script.sink planner writer commit).writes k with
    | ok value =>
        rw [isAnswer] at isOpen
        cases isOpen
    | error failure =>
        cases failure with
        | fatal e =>
            rw [isAnswer] at isOpen
            cases isOpen
        | notCommitted e => exact absurd isAnswer (kept.settled e)
        | maybeCommitted e =>
            rw [← isAnswer]
            exact kept.maybe e isAnswer
  · cases answered

variable (kept : RetryLog maxAttempts commit log)
include kept

theorem deliveryKept_attemptLogs : DeliveryKept writer planned.chunks maxAttempts
    (script.attemptLogs planner writer commit log) := by
  refine ⟨?_, ?_, ?_⟩
  · intro attempts member
    obtain ⟨k, event, present, rfl⟩ := mem_attemptLogs member
    rcases scripted.written k event present with rfl | rfl
    · exact (writeLog_kept writer script accepted k _).kept
    · exact (startedLog_kept writer accepted _ _).1
  · rw [length_attemptLogs]
    exact kept.budget
  · intro attempts member
    rcases List.eq_nil_or_concat (writeEvents log) with empty | ⟨front, last, shape⟩
    · rw [DeliveryScript.attemptLogs, empty] at member
      cases member
    · rw [List.concat_eq_append] at shape
      rw [DeliveryScript.attemptLogs, shape, List.mapIdx_concat, List.dropLast_concat] at member
      obtain ⟨k, less, rfl⟩ := List.mem_mapIdx.mp member
      have present : (writeEvents log)[k]? = some front[k] := by
        rw [shape, List.getElem?_append_left less, List.getElem?_eq_getElem less]
      refine exhausted_of_open accepted scripted present (mem_dropLast_open kept.protocol ?_)
      refine mem_dropLast_of_writeEvents ?_
      rw [shape, List.dropLast_concat]
      exact List.getElem_mem less

theorem deliveryScripted_attemptLogs : DeliveryScripted planner writer commit script
    (script.attemptLogs planner writer commit log) := by
  have settled := scripted.settled (sink_settled accepted)
  refine ⟨fun k attempts present => ?_, fun k attempts present => ?_, fun n less => ?_⟩
  · obtain ⟨event, isEvent, rfl⟩ := attemptLogs_at present
    rcases scripted.written k event isEvent with rfl | rfl
    · obtain ⟨_, _, isLog, _, _, _, _, follows⟩ :=
        writeLog_answered writer script accepted k ((script.sink planner writer commit).writes k)
      rw [isLog]
      exact follows
    · exact (startedLog_kept writer accepted _ _).2
  · obtain ⟨event, isEvent, rfl⟩ := attemptLogs_at present
    rcases scripted.written k event isEvent with rfl | rfl
    · obtain ⟨_, _, isLog, _, ran, _⟩ :=
        writeLog_answered writer script accepted k ((script.sink planner writer commit).writes k)
      rw [isLog]
      exact Or.inl ⟨_, ran⟩
    · obtain ⟨isLast, count⟩ := kept.awaits_dropped settled isEvent
      have fires := scripted.dropped ⟨_, List.mem_of_mem_filter (List.mem_of_getElem? isEvent), rfl⟩
      rw [count] at fires
      rw [length_attemptLogs]
      exact Or.inr ⟨isLast, fires, rfl⟩
  · rw [length_attemptLogs] at less
    exact scripted.awaited n (less.trans_le (kept.awaits_bounds settled).1)

/-- What had to be let through for the last write to be answered. -/
theorem awaited_of_answered (last : ∀ event ∈ log.getLast?, event.answer ≠ none) :
    ∀ n < 3 * (script.attemptLogs planner writer commit log).length - 2, script.abort n = .no := by
  intro n less
  rw [length_attemptLogs] at less
  exact scripted.awaited n (less.trans_le
    (kept.awaits_answered (scripted.settled (sink_settled accepted)) last))

theorem deliveryEnd_attemptLogs {result : WriteAttempt}
    (ended : LoopEnd maxAttempts commit log result)
    (fatal : result.outcome = .failedFatal →
      FatalEnd (script.sink planner writer commit) log result) :
    DeliveryEnd writer planned.chunks maxAttempts script
      (script.attemptLogs planner writer commit log) result := by
  have answered_last : ∀ {front : List (SinkEvent R)} {event : SinkEvent R},
      log = front ++ [event] → event.answer ≠ none → ∀ last ∈ log.getLast?, last.answer ≠ none := by
    intro front event shape answered last isLast
    rw [shape, List.getLast?_concat] at isLast
    cases isLast
    exact answered
  cases ended with
  | committed shape =>
      obtain ⟨attempts, isLast, answered⟩ := attemptLogs_last accepted scripted shape
      exact ⟨awaited_of_answered accepted scripted kept
        (answered_last shape (by simp [SinkEvent.answer])), attempts, isLast, answered.ok _ rfl⟩
  | verified shape =>
      -- the sink's check answers `unknown`
      have member : SinkEvent.check commit.identity (some (.ok .committed)) ∈ log := by simp [shape]
      obtain ⟨k, answer⟩ := scripted.check_answer member
      cases answer
  | refused shape =>
      obtain ⟨attempts, isLast, answered⟩ := attemptLogs_last accepted scripted shape
      exact Or.inr ⟨awaited_of_answered accepted scripted kept
        (answered_last shape (by simp [SinkEvent.answer])), attempts, isLast, answered.fatal _ rfl⟩
  | @checkFailed front e shape =>
      have member : SinkEvent.check commit.identity (some (.error e)) ∈ log := by simp [shape]
      obtain ⟨k, answer⟩ := scripted.check_answer member
      cases answer
  | exhausted open_ ready spent =>
      refine ⟨awaited_of_answered accepted scripted kept fun event isLast unanswered => ?_, ?_,
        fun attempts member => ?_⟩
      · obtain ⟨a, answered, _⟩ := open_ event (List.mem_of_getLast? isLast)
        rw [unanswered] at answered
        cases answered
      · rw [length_attemptLogs, spent]
      · obtain ⟨k, event, present, rfl⟩ := mem_attemptLogs member
        have inLog := List.mem_of_mem_filter (List.mem_of_getElem? present)
        exact exhausted_of_open accepted scripted present (open_ event inLog)
  | @interrupted front tail message shape open_ unanswered unchecked =>
      rcases fatal rfl with ⟨e, _, isError⟩ | ⟨e, isLast, _⟩ | ⟨_, n, isAwait, fires⟩
      · cases isError
      · obtain ⟨event, member, isAnswer⟩ := List.mem_filterMap.mp (List.mem_of_getLast? isLast)
        cases event with
        | write commit' answer =>
            obtain ⟨_, _, isCheck⟩ := Option.map_eq_some_iff.mp isAnswer
            cases isCheck
        | check identity answer =>
            obtain ⟨_, rfl, isCheck⟩ := Option.map_eq_some_iff.mp isAnswer
            cases isCheck
            obtain ⟨k, answer⟩ := scripted.check_answer member
            cases answer
      · obtain ⟨least, most⟩ := kept.awaits_bounds (scripted.settled (sink_settled accepted))
        refine Or.inl ⟨n, ?_, ?_, fires⟩
        · rw [length_attemptLogs]
          rw [awaitsOf] at least isAwait
          omega
        · rw [length_attemptLogs]
          rw [awaitsOf] at isAwait
          omega

end Loop

/-! ## Both budgets together -/

section Budgets

variable {writer : WriterConfig} {chunks : List InsertChunk} {maxAttempts : Nat}
  {logs : List (List Attempt)}

theorem attemptsAt_flatten (logs : List (List Attempt)) (position : Nat) :
    attemptsAt logs.flatten position = (logs.map fun log => attemptsAt log position).sum :=
  List.countP_flatten

/-- The budgets multiply. -/
theorem DeliveryKept.attempts (kept : DeliveryKept writer chunks maxAttempts logs)
    (position : Nat) :
    attemptsAt logs.flatten position ≤ (maxAttempts + 1) * attemptLimit writer := by
  have each : ∀ count ∈ logs.map fun log => attemptsAt log position,
      count ≤ attemptLimit writer := by
    intro count member
    obtain ⟨log, inLogs, rfl⟩ := List.mem_map.mp member
    exact (kept.calls log inLogs).limited position
  calc attemptsAt logs.flatten position
    _ = (logs.map fun log => attemptsAt log position).sum := attemptsAt_flatten logs position
    _ ≤ (logs.map fun log => attemptsAt log position).length • attemptLimit writer :=
        List.sum_le_card_nsmul _ _ each
    _ = logs.length * attemptLimit writer := by rw [List.length_map, smul_eq_mul]
    _ ≤ (maxAttempts + 1) * attemptLimit writer := Nat.mul_le_mul_right _ kept.budget

/-- All requests for a chunk are the same one. -/
theorem DeliveryKept.same_request (kept : DeliveryKept writer chunks maxAttempts logs)
    {a b : Attempt} (isA : a ∈ logs.flatten) (isB : b ∈ logs.flatten)
    (here : a.position = b.position) {request request' : InsertRequest}
    (sent : a.request = some request) (sent' : b.request = some request') :
    request = request' := by
  obtain ⟨log, inLogs, inLog⟩ := List.mem_flatten.mp isA
  obtain ⟨log', inLogs', inLog'⟩ := List.mem_flatten.mp isB
  obtain ⟨body, present, serialized, isRequest⟩ := (kept.calls log inLogs).made a inLog
  obtain ⟨body', present', serialized', isRequest'⟩ := (kept.calls log' inLogs').made b inLog'
  rw [here, present'] at present
  have sameChunk : b.chunk = a.chunk := Option.some.inj present
  rw [sameChunk, serialized] at serialized'
  have sameBody : body = body' := Except.ok.inj serialized'
  rw [isRequest] at sent
  rw [isRequest', sameChunk, ← sameBody] at sent'
  cases isA : a.outcome with
  | noClient message =>
      rw [isA] at sent
      cases sent
  | answered http =>
      cases isB : b.outcome with
      | noClient message =>
          rw [isB] at sent'
          cases sent'
      | answered http' =>
          rw [isA] at sent
          rw [isB] at sent'
          cases sent
          cases sent'
          rfl

/-- Every write of the commit stopped at its first chunk. -/
theorem attempts_of_exhausted (stuck : ∀ log ∈ logs, Exhausted writer chunks log 0) :
    attemptsAt logs.flatten 0 = logs.length * attemptLimit writer := by
  have each : ∀ count ∈ logs.map fun log => attemptsAt log 0, count = attemptLimit writer := by
    intro count member
    obtain ⟨log, inLogs, rfl⟩ := List.mem_map.mp member
    exact (stuck log inLogs).spent
  rw [attemptsAt_flatten, List.sum_eq_card_nsmul _ _ each, List.length_map, smul_eq_mul]

end Budgets

section Results

variable {R : Type} [TypedRecords R] [DowncastLogs R]

/-- What a delivery says, and where an unreachable server leaves its writes. -/
theorem deliver_ends (planner : Planner) (writer : WriterConfig) (options : RuntimeOptions)
    (script : DeliveryScript) (commit : SinkCommit R) {planned : PlannedCommit}
    (accepted : planCommit planner commit = some (.ok planned)) :
    ∃ logs result, deliver planner writer commit options script = some (logs, result) ∧
      DeliveryKept writer planned.chunks options.effectiveRetryMaxAttempts.val logs ∧
      DeliveryScripted planner writer commit script logs ∧
      DeliveryEnd writer planned.chunks options.effectiveRetryMaxAttempts.val script logs result ∧
      ∀ chunk body, Unreachable script → planned.chunks[0]? = some chunk →
        serialize writer.serializationFormat chunk = .ok body →
        ∀ log ∈ logs, Exhausted writer planned.chunks log 0 := by
  obtain ⟨log, result, returned, kept, ended, scripted, fatal⟩ := writeWithRetry_ends options
    commit (script.sink planner writer commit)
  refine ⟨script.attemptLogs planner writer commit log, result, ?_,
    deliveryKept_attemptLogs accepted scripted kept,
    deliveryScripted_attemptLogs accepted scripted kept,
    deliveryEnd_attemptLogs accepted scripted kept ended fatal, ?_⟩
  · unfold deliver
    rw [accepted]
    simp only [returned, Option.map_some]
  · intro chunk body unreachable first serialized attempts member
    obtain ⟨k, event, present, rfl⟩ := mem_attemptLogs member
    rcases scripted.written k event present with rfl | rfl
    · obtain ⟨_, _, isLog, _, _, _, ending, follows⟩ :=
        writeLog_answered writer script accepted k ((script.sink planner writer commit).writes k)
      rw [isLog]
      refine ending.unreachable (fun a inLog => ?_) first serialized
      obtain ⟨i, atI⟩ := List.mem_iff_getElem?.mp inLog
      rw [follows i a atI]
      exact unreachable.outcomes k i
    · have fires := scripted.dropped ⟨_, List.mem_of_mem_filter (List.mem_of_getElem? present), rfl⟩
      have calm : (script.sink planner writer commit).abort (awaitsOf log) = .no :=
        unreachable.abort _
      rw [calm] at fires
      cases fires

/-- Writes that are all stuck at the first chunk end the delivery with its budget spent. -/
theorem DeliveryEnd.spent {writer : WriterConfig} {chunks : List InsertChunk} {maxAttempts : Nat}
    {script : DeliveryScript} {logs : List (List Attempt)} {result : WriteAttempt}
    (isEnd : DeliveryEnd writer chunks maxAttempts script logs result)
    (kept : DeliveryKept writer chunks maxAttempts logs) (calm : ∀ n, script.abort n = .no)
    (nonempty : 0 < chunks.length) (stuck : ∀ log ∈ logs, Exhausted writer chunks log 0) :
    result.outcome = .failedRetryable ∧ logs.length = maxAttempts + 1 := by
  unfold DeliveryEnd at isEnd
  split at isEnd
  case h_1 =>
    obtain ⟨_, attempts, isLast, all⟩ := isEnd
    exact absurd (all 0 nonempty) (stuck attempts (List.mem_of_getLast? isLast)).undelivered
  case h_2 => exact isEnd.elim
  case h_3 outcome => exact ⟨outcome, isEnd.2.1⟩
  case h_4 =>
    rcases isEnd with ⟨n, _, _, aborts⟩ | ⟨_, attempts, isLast, position, refused⟩
    · exact absurd (calm n) aborts
    · have inLogs := List.mem_of_getLast? isLast
      have exhausted := stuck attempts inLogs
      cases position with
      | zero => exact absurd refused (exhausted.not_refused (kept.calls _ inLogs))
      | succ before =>
          exact absurd (refused.passed 0 (Nat.succ_pos before)) exhausted.undelivered

/-- A commit is sent again as a whole until both retry budgets are spent. -/
theorem delivery_spends_both_budgets (planner : Planner) (writer : WriterConfig)
    (options : RuntimeOptions) (script : DeliveryScript) (commit : SinkCommit R)
    {planned : PlannedCommit} (accepted : planCommit planner commit = some (.ok planned)) :
    ∃ logs result, deliver planner writer commit options script = some (logs, result) ∧
      DeliveryKept writer planned.chunks options.effectiveRetryMaxAttempts.val logs ∧
      DeliveryScripted planner writer commit script logs ∧
      DeliveryEnd writer planned.chunks options.effectiveRetryMaxAttempts.val script logs result ∧
      (∀ position, attemptsAt logs.flatten position ≤
        (options.effectiveRetryMaxAttempts.val + 1) * attemptLimit writer) ∧
      (∀ a ∈ logs.flatten, ∀ b ∈ logs.flatten, a.position = b.position →
        ∀ request request', a.request = some request → b.request = some request' →
          request = request') ∧
      ∀ chunk body, Unreachable script → planned.chunks[0]? = some chunk →
        serialize writer.serializationFormat chunk = .ok body →
        result.outcome = .failedRetryable ∧ attemptsAt logs.flatten 0 =
          (options.effectiveRetryMaxAttempts.val + 1) * attemptLimit writer := by
  obtain ⟨logs, result, delivered, kept, scripted, isEnd, allStuck⟩ :=
    deliver_ends planner writer options script commit accepted
  refine ⟨logs, result, delivered, kept, scripted, isEnd, kept.attempts,
    fun a isA b isB here request request' => kept.same_request isA isB here,
    fun chunk body unreachable first serialized => ?_⟩
  have stuck := allStuck chunk body unreachable first serialized
  have nonempty : 0 < planned.chunks.length := (List.getElem?_eq_some_iff.mp first).1
  obtain ⟨spent, all⟩ := isEnd.spent kept unreachable.abort nonempty stuck
  refine ⟨spent, ?_⟩
  rw [attempts_of_exhausted stuck, all]

/-- A server that is always busy, under the default options. -/
theorem delivery_spends_both_budgets_busy : ∃ logs result,
    deliver singleRowPlanner ⟨6, .rowBinary⟩ twoRowCommit RuntimeOptions.default
      ⟨fun _ _ => .answered (.response 503 "busy"), fun _ => .no, 0⟩ = some (logs, result) ∧
    result.outcome = .failedRetryable ∧ attemptsAt logs.flatten 0 = 24 ∧
    ∀ log ∈ logs, ∀ a ∈ log, a.outcome = .answered (.response 503 "busy") := by
  obtain ⟨planned, chunk, body, accepted, first, serialized⟩ : ∃ planned chunk body,
      planCommit singleRowPlanner twoRowCommit = some (.ok planned) ∧
      planned.chunks[0]? = some chunk ∧
      serialize SerializationFormat.rowBinary chunk = .ok body := ⟨_, _, _, rfl, rfl, rfl⟩
  obtain ⟨logs, result, delivered, _, scripted, _, _, _, unreachable⟩ :=
    delivery_spends_both_budgets singleRowPlanner ⟨6, .rowBinary⟩ RuntimeOptions.default
    ⟨fun _ _ => .answered (.response 503 "busy"), fun _ => .no, 0⟩ twoRowCommit accepted
  obtain ⟨spent, attempts⟩ := unreachable chunk body ⟨fun _ _ => rfl, fun _ => rfl⟩ first serialized
  refine ⟨logs, result, delivered, spent, attempts, fun log inLogs a inLog => ?_⟩
  obtain ⟨k, atK⟩ := List.mem_iff_getElem?.mp inLogs
  obtain ⟨j, atJ⟩ := List.mem_iff_getElem?.mp inLog
  exact scripted.outcomes k log atK j a atJ

end Results

end OpendataIngest.ClickHouse
