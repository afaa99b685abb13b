import OpendataIngest.ClickHouse.SinkWrite
import OpendataIngest.Lib.Machine
import OpendataIngest.Lib.Tally

/-!
# The metrics of a writer

Any number of calls of `execute_all` share one `ClickHouseMetrics`.  A call is suspended in
`send`, while it reads the response and in the backoff, and can be dropped there; the pieces
between two suspensions interleave in any order.

A writer has one format and one client mode, so a family with only these labels is one
metric.  A histogram of seconds or bytes is the number of its samples.
-/

set_option autoImplicit false

namespace OpendataIngest.ClickHouse

open MachineInt

/-! ## The families -/

inductive InsertResult where
  | ok
  | retryable
  | nonRetryable
  | retryBudgetExhausted
  deriving DecidableEq

def InsertResult.asLabel : InsertResult → String
  | .ok => "ok"
  | .retryable => "retryable"
  | .nonRetryable => "non_retryable"
  | .retryBudgetExhausted => "retry_budget_exhausted"

structure WriterMetrics where
  serialized : Nat
  chunkRows : List Nat
  insertDuration : Tally String
  retryCount : Tally String
  insertErrors : Tally String
  httpConcurrentInflight : Int

namespace WriterMetrics

def new : WriterMetrics := ⟨0, [], SortedMap.empty, SortedMap.empty, SortedMap.empty, 0⟩

/-- `execute_chunk` once the chunk is serialized. -/
def observeChunk (metrics : WriterMetrics) (chunk : InsertChunk) : WriterMetrics :=
  { metrics with
    serialized := metrics.serialized + 1
    chunkRows := metrics.chunkRows ++ [chunk.rowsCount] }

def observeInsert (metrics : WriterMetrics) (result : InsertResult) : WriterMetrics :=
  { metrics with insertDuration := Tally.add metrics.insertDuration result.asLabel 1 }

def countRetry (metrics : WriterMetrics) : WriterMetrics :=
  { metrics with retryCount := Tally.add metrics.retryCount "retryable" 1 }

def countError (metrics : WriterMetrics) (statusCode : String) : WriterMetrics :=
  { metrics with insertErrors := Tally.add metrics.insertErrors statusCode 1 }

def addInflight (metrics : WriterMetrics) (amount : Int) : WriterMetrics :=
  { metrics with httpConcurrentInflight := metrics.httpConcurrentInflight + amount }

/-- The metrics on the way to the next chunk. -/
def enter (metrics : WriterMetrics) : WriterState → WriterMetrics
  | .posting _ _ chunk _ => metrics.observeChunk chunk
  | .awaiting _ _ _ _ => metrics
  | .backingOff _ _ _ _ => metrics
  | .done _ => metrics

end WriterMetrics

/-- The label of an attempt. -/
def attemptLabel (result : Except WriterError Unit) : InsertResult :=
  match result with
  | .ok _ => .ok
  | .error err =>
      match err.errorClass with
      | .retryable => .retryable
      | .nonRetryable => .nonRetryable
      | .retryBudgetExhausted => .retryBudgetExhausted

/-- The label under which `classify_reqwest` counts. -/
def ReqwestErrorKind.asLabel : ReqwestErrorKind → String
  | .timeout => "timeout"
  | .connect => "connect"
  | .status => "http"
  | .other => "network"

/-! ## Calls -/

/-- Where a call stands: `awaiting` is inside `send`, `reading` inside `text`. -/
inductive CallPoint where
  | running (state : WriterState)
  | reading (status : Nat) (attempt : Nat) (body : InsertBody) (chunk : InsertChunk)
      (rest : List InsertChunk)
  | dropped (chunk : InsertChunk) (inSend : Bool)

structure EndedAttempt where
  chunk : InsertChunk
  outcome : AttemptOutcome

structure MeteredCall where
  point : CallPoint
  attempts : List EndedAttempt

inductive CallAction where
  | send (clientError : Option String)
  | receive (answer : Except ReqwestError Nat)
  | read (text : String)
  | wake
  | drop

/-- `execute_chunk` from the result of an attempt on. -/
def MeteredCall.endAttempt (config : WriterConfig) (metrics : WriterMetrics)
    (call : MeteredCall) (attempt : Nat) (body : InsertBody) (chunk : InsertChunk)
    (rest : List InsertChunk) (outcome : AttemptOutcome) : WriterMetrics × MeteredCall :=
  let observed := metrics.observeInsert (attemptLabel outcome.result)
  let next := afterAttempt config attempt body chunk rest outcome.result
  let counted := match next with
    | .backingOff _ _ _ _ => observed.countRetry
    | _ => observed.enter next
  (counted, ⟨.running next, call.attempts ++ [⟨chunk, outcome⟩]⟩)

def MeteredCall.step (config : WriterConfig) (metrics : WriterMetrics) (call : MeteredCall)
    (action : CallAction) : Option (WriterMetrics × MeteredCall) :=
  match call.point, action with
  | .running (.posting attempt body chunk rest), .send (some message) =>
      some (call.endAttempt config metrics attempt body chunk rest (.noClient message))
  | .running (.posting attempt body chunk rest), .send none =>
      some (metrics.addInflight 1, ⟨.running (.awaiting attempt body chunk rest), call.attempts⟩)
  | .running (.awaiting attempt body chunk rest), .receive (.error error) =>
      some (call.endAttempt config ((metrics.addInflight (-1)).countError error.kind.asLabel)
        attempt body chunk rest (.answered (.failed error)))
  | .running (.awaiting attempt body chunk rest), .receive (.ok status) =>
      some (metrics.addInflight (-1), ⟨.reading status attempt body chunk rest, call.attempts⟩)
  | .reading status attempt body chunk rest, .read text =>
      let response : HttpOutcome := .response status text
      some (call.endAttempt config
        (if response.isSuccess then metrics else metrics.countError (toString status))
        attempt body chunk rest (.answered response))
  | .running (.backingOff attempt body chunk rest), .wake =>
      some (metrics, ⟨.running (.posting (attempt + 1) body chunk rest), call.attempts⟩)
  | .running (.awaiting _ _ chunk _), .drop =>
      some (metrics, ⟨.dropped chunk true, call.attempts⟩)
  | .reading _ _ _ chunk _, .drop => some (metrics, ⟨.dropped chunk false, call.attempts⟩)
  | .running (.backingOff _ _ chunk _), .drop =>
      some (metrics, ⟨.dropped chunk false, call.attempts⟩)
  | _, _ => none

/-! ## The writer and its calls -/

structure WriterPool where
  metrics : WriterMetrics
  calls : List MeteredCall

inductive PoolAction where
  | executeAll (chunks : List InsertChunk)
  | call (i : Nat) (action : CallAction)

def WriterPool.step (config : WriterConfig) (pool : WriterPool) :
    PoolAction → Option WriterPool
  | .executeAll chunks =>
      let state := ClickHouse.executeAll config chunks
      some ⟨pool.metrics.enter state, pool.calls ++ [⟨.running state, []⟩]⟩
  | .call i action =>
      match pool.calls[i]? with
      | none => none
      | some call => (call.step config pool.metrics action).map fun next =>
          ⟨next.1, pool.calls.set i next.2⟩

def writerMachine (config : WriterConfig) : Machine WriterPool PoolAction where
  start := ⟨WriterMetrics.new, []⟩
  step := WriterPool.step config

/-! ## The moves of a call -/

section Moves

variable (config : WriterConfig) (metrics : WriterMetrics) (call : MeteredCall)

/-- Everything one step of a call can do. -/
inductive CallMove : CallAction → WriterMetrics × MeteredCall → Prop where
  | noClient {attempt : Nat} {body : InsertBody} {chunk : InsertChunk} {rest : List InsertChunk}
      (at_point : call.point = .running (.posting attempt body chunk rest)) (message : String) :
      CallMove (.send (some message))
        (call.endAttempt config metrics attempt body chunk rest (.noClient message))
  | sends {attempt : Nat} {body : InsertBody} {chunk : InsertChunk} {rest : List InsertChunk}
      (at_point : call.point = .running (.posting attempt body chunk rest)) :
      CallMove (.send none)
        (metrics.addInflight 1, ⟨.running (.awaiting attempt body chunk rest), call.attempts⟩)
  | fails {attempt : Nat} {body : InsertBody} {chunk : InsertChunk} {rest : List InsertChunk}
      (at_point : call.point = .running (.awaiting attempt body chunk rest))
      (error : ReqwestError) :
      CallMove (.receive (.error error))
        (call.endAttempt config ((metrics.addInflight (-1)).countError error.kind.asLabel)
          attempt body chunk rest (.answered (.failed error)))
  | answers {attempt : Nat} {body : InsertBody} {chunk : InsertChunk} {rest : List InsertChunk}
      (at_point : call.point = .running (.awaiting attempt body chunk rest)) (status : Nat) :
      CallMove (.receive (.ok status))
        (metrics.addInflight (-1), ⟨.reading status attempt body chunk rest, call.attempts⟩)
  | reads {status attempt : Nat} {body : InsertBody} {chunk : InsertChunk}
      {rest : List InsertChunk} (at_point : call.point = .reading status attempt body chunk rest)
      (text : String) :
      CallMove (.read text)
        (call.endAttempt config
          (if (HttpOutcome.response status text).isSuccess then metrics
            else metrics.countError (toString status))
          attempt body chunk rest (.answered (.response status text)))
  | wakes {attempt : Nat} {body : InsertBody} {chunk : InsertChunk} {rest : List InsertChunk}
      (at_point : call.point = .running (.backingOff attempt body chunk rest)) :
      CallMove .wake
        (metrics, ⟨.running (.posting (attempt + 1) body chunk rest), call.attempts⟩)
  | dropsSend {attempt : Nat} {body : InsertBody} {chunk : InsertChunk}
      {rest : List InsertChunk}
      (at_point : call.point = .running (.awaiting attempt body chunk rest)) :
      CallMove .drop (metrics, ⟨.dropped chunk true, call.attempts⟩)
  | dropsText {status attempt : Nat} {body : InsertBody} {chunk : InsertChunk}
      {rest : List InsertChunk}
      (at_point : call.point = .reading status attempt body chunk rest) :
      CallMove .drop (metrics, ⟨.dropped chunk false, call.attempts⟩)
  | dropsBackoff {attempt : Nat} {body : InsertBody} {chunk : InsertChunk}
      {rest : List InsertChunk}
      (at_point : call.point = .running (.backingOff attempt body chunk rest)) :
      CallMove .drop (metrics, ⟨.dropped chunk false, call.attempts⟩)

variable {config metrics call}

theorem callMove_of_step {action : CallAction} {next : WriterMetrics × MeteredCall}
    (taken : call.step config metrics action = some next) :
    CallMove config metrics call action next := by
  unfold MeteredCall.step at taken
  split at taken
  case h_1 message at_point =>
    cases taken
    exact .noClient at_point message
  case h_2 at_point =>
    cases taken
    exact .sends at_point
  case h_3 error at_point =>
    cases taken
    exact .fails at_point error
  case h_4 status at_point =>
    cases taken
    exact .answers at_point status
  case h_5 text at_point =>
    cases taken
    exact .reads at_point text
  case h_6 at_point =>
    cases taken
    exact .wakes at_point
  case h_7 at_point =>
    cases taken
    exact .dropsSend at_point
  case h_8 at_point =>
    cases taken
    exact .dropsText at_point
  case h_9 at_point =>
    cases taken
    exact .dropsBackoff at_point
  case h_10 => cases taken

end Moves

/-! ## The end of an attempt -/

theorem executeAll_cases (config : WriterConfig) (chunks : List InsertChunk) :
    executeAll config chunks = .done (.ok ()) ∨
    (∃ e, executeAll config chunks = .done (.error e) ∧ e.errorClass = .nonRetryable) ∨
    ∃ body chunk rest, executeAll config chunks = .posting 1 body chunk rest := by
  cases chunks with
  | nil => exact Or.inl rfl
  | cons chunk rest =>
      cases serialized : serialize config.serializationFormat chunk with
      | error e =>
          refine Or.inr (Or.inl ⟨e, ?_, serialize_error_class serialized⟩)
          simp only [executeAll, serialized]
      | ok body =>
          refine Or.inr (Or.inr ⟨body, chunk, rest, ?_⟩)
          simp only [executeAll, serialized]

/-- The writer never labels an attempt with the exhausted budget. -/
theorem attemptLabel_ne_exhausted (outcome : AttemptOutcome) :
    attemptLabel outcome.result ≠ .retryBudgetExhausted := by
  rcases outcome.result_cases with ⟨_, result⟩ | ⟨_, _, e, result, isClass⟩ |
    ⟨_, _, e, result, isClass⟩
  · rw [result]
    exact InsertResult.noConfusion
  · rw [result, attemptLabel, isClass]
    exact InsertResult.noConfusion
  · rw [result, attemptLabel, isClass]
    exact InsertResult.noConfusion

section Attempt

variable (config : WriterConfig) (metrics : WriterMetrics) (call : MeteredCall) (attempt : Nat)
  (body : InsertBody) (chunk : InsertChunk) (rest : List InsertChunk) (outcome : AttemptOutcome)

def MeteredCall.ended (state : WriterState) : MeteredCall :=
  ⟨.running state, call.attempts ++ [⟨chunk, outcome⟩]⟩

/-- The ways an attempt can end. -/
inductive AttemptEnd : WriterMetrics × MeteredCall → Prop where
  | delivered (success : outcome.isSuccess = true) (label : attemptLabel outcome.result = .ok) :
      AttemptEnd ((metrics.observeInsert .ok).enter (executeAll config rest),
        call.ended chunk outcome (executeAll config rest))
  | backsOff (failed : outcome.isSuccess = false)
      (label : attemptLabel outcome.result = .retryable) :
      AttemptEnd ((metrics.observeInsert .retryable).countRetry,
        call.ended chunk outcome (.backingOff attempt body chunk rest))
  | exhausted (failed : outcome.isSuccess = false)
      (label : attemptLabel outcome.result = .retryable) (message : String) :
      AttemptEnd (metrics.observeInsert .retryable,
        call.ended chunk outcome (.done (.error (.retryBudgetExhausted message))))
  | refused (failed : outcome.isSuccess = false)
      (label : attemptLabel outcome.result = .nonRetryable) {e : WriterError}
      (isClass : e.errorClass = .nonRetryable) :
      AttemptEnd (metrics.observeInsert .nonRetryable,
        call.ended chunk outcome (.done (.error e)))

theorem endAttempt_ends : AttemptEnd config metrics call attempt body chunk rest outcome
    (call.endAttempt config metrics attempt body chunk rest outcome) := by
  unfold MeteredCall.endAttempt
  dsimp only
  rcases outcome.result_cases with ⟨success, result⟩ | ⟨failed, _, e, result, isClass⟩ |
    ⟨failed, _, e, result, isClass⟩
  · have label : attemptLabel outcome.result = .ok := by
      rw [result]
      rfl
    have arm : (match executeAll config rest with
        | .backingOff _ _ _ _ => (metrics.observeInsert .ok).countRetry
        | _ => (metrics.observeInsert .ok).enter (executeAll config rest)) =
        (metrics.observeInsert .ok).enter (executeAll config rest) := by
      rcases executeAll_cases config rest with done | ⟨_, done, _⟩ | ⟨_, _, _, posting⟩
      · rw [done]
      · rw [done]
      · rw [posting]
    have next : afterAttempt config attempt body chunk rest outcome.result =
        executeAll config rest := by
      rw [result]
      rfl
    rw [next, label, arm]
    exact .delivered success label
  · have label : attemptLabel outcome.result = .retryable := by rw [result, attemptLabel, isClass]
    by_cases more : attempt < config.maxAttempts.val
    · have next : afterAttempt config attempt body chunk rest outcome.result =
          .backingOff attempt body chunk rest := by
        rw [result]
        simp only [afterAttempt, isClass, if_pos more]
      rw [next, label]
      exact .backsOff failed label
    · have next : afterAttempt config attempt body chunk rest outcome.result =
          .done (.error (.retryBudgetExhausted
            s!"retry budget ({config.maxAttempts.val}) exhausted: {e.text}")) := by
        rw [result]
        simp only [afterAttempt, isClass, if_neg more]
      rw [next, label]
      exact .exhausted failed label _
  · have label : attemptLabel outcome.result = .nonRetryable := by
      rw [result, attemptLabel, isClass]
    have next : afterAttempt config attempt body chunk rest outcome.result =
        .done (.error e) := by
      rw [result]
      simp only [afterAttempt, isClass]
    rw [next, label]
    exact .refused failed label isClass

end Attempt

/-! ## The calls behind the metrics -/

def Attempt.ended (made : Attempt) : EndedAttempt := ⟨made.chunk, made.outcome⟩

/-- A call between two attempts, or inside one, as the write that its attempts make up. -/
def CallPoint.Shows (state : WriterState) : CallPoint → Prop
  | .running (.posting attempt body chunk rest) => state = .posting attempt body chunk rest
  | .running (.awaiting attempt body chunk rest) => state = .posting attempt body chunk rest
  | .running (.backingOff attempt body chunk rest) =>
      state = .posting (attempt + 1) body chunk rest
  | .running (.done result) => state = .done result
  | .reading _ attempt body chunk rest => state = .posting attempt body chunk rest
  | .dropped _ _ => True

structure MeteredCall.Makes (config : WriterConfig) (chunks : List InsertChunk)
    (write : WriteCall) (call : MeteredCall) : Prop where
  kept : write.Kept config chunks
  log : write.log.map Attempt.ended = call.attempts
  shown : call.point.Shows write.state

section Makes

variable {config : WriterConfig} {metrics : WriterMetrics} {chunks : List InsertChunk}
  {write : WriteCall} {call : MeteredCall}

theorem executeAll_shows (chunks : List InsertChunk) :
    CallPoint.Shows (executeAll config chunks) (.running (executeAll config chunks)) := by
  rcases executeAll_cases config chunks with done | ⟨_, done, _⟩ | ⟨_, _, _, posting⟩
  · rw [done]
    rfl
  · rw [done]
    rfl
  · rw [posting]
    rfl

theorem afterAttempt_shows (attempt : Nat) (body : InsertBody) (chunk : InsertChunk)
    (rest : List InsertChunk) (result : Except WriterError Unit) :
    CallPoint.Shows (resume (afterAttempt config attempt body chunk rest result))
      (.running (afterAttempt config attempt body chunk rest result)) := by
  unfold afterAttempt
  split
  · rw [resume_executeAll]
    exact executeAll_shows rest
  · split
    · split_ifs
      · rfl
      · rfl
    · rfl
    · rfl

theorem MeteredCall.Makes.attempt (makes : call.Makes config chunks write) {attempt : Nat}
    {body : InsertBody} {chunk : InsertChunk} {rest : List InsertChunk}
    (posting : write.state = .posting attempt body chunk rest) (outcome : AttemptOutcome) :
    (call.endAttempt config metrics attempt body chunk rest outcome).2.Makes config chunks
      (write.step config outcome) := by
  refine ⟨kept_step makes.kept outcome, ?_, ?_⟩
  · simp only [WriteCall.step, posting, List.map_append, makes.log]
    rfl
  · simp only [WriteCall.step, posting]
    exact afterAttempt_shows attempt body chunk rest outcome.result

theorem MeteredCall.Makes.step (makes : call.Makes config chunks write) {action : CallAction}
    {next : WriterMetrics × MeteredCall} (taken : call.step config metrics action = some next) :
    ∃ write', next.2.Makes config chunks write' := by
  obtain ⟨kept, log, shown⟩ := id makes
  cases callMove_of_step taken with
  | noClient at_point | fails at_point | reads at_point =>
      rw [at_point] at shown
      exact ⟨_, makes.attempt shown _⟩
  | sends at_point | answers at_point | wakes at_point =>
      rw [at_point] at shown
      exact ⟨write, kept, log, shown⟩
  | dropsSend | dropsText | dropsBackoff => exact ⟨write, kept, log, trivial⟩

/-- Every call is a write that keeps its log. -/
theorem makes_of_reachable {pool : WriterPool}
    (reachable : (writerMachine config).Reachable pool) :
    ∀ call ∈ pool.calls, ∃ chunks write, call.Makes config chunks write := by
  induction reachable with
  | start => exact fun call member => absurd member List.not_mem_nil
  | step action _ taken made =>
      cases action with
      | executeAll chunks =>
          cases taken
          intro call member
          rcases List.mem_append.mp member with earlier | new
          · exact made call earlier
          · rw [List.mem_singleton.mp new]
            exact ⟨chunks, _, kept_start, rfl, executeAll_shows chunks⟩
      | call i action =>
          simp only [writerMachine, WriterPool.step] at taken
          split at taken
          case h_1 => cases taken
          case h_2 call present =>
            obtain ⟨next, stepped, rfl⟩ := Option.map_eq_some_iff.mp taken
            intro other member
            rcases List.mem_or_eq_of_mem_set member with old | rfl
            · exact made other old
            · obtain ⟨chunks, write, makes⟩ := made call (List.mem_of_getElem? present)
              obtain ⟨write', makes'⟩ := makes.step stepped
              exact ⟨chunks, write', makes'⟩

end Makes

end OpendataIngest.ClickHouse
