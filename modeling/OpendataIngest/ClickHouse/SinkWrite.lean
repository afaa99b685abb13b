import OpendataIngest.ClickHouse.AdapterPlan
import OpendataIngest.ClickHouse.Sink

/-!
# A write from end to end

`ClickHouseSink::write` against a script: the outcome of the first attempt, of the second
one, and so on.  An attempt whose client cannot be built sends no request.  The log of a
call lists its attempts; `position` is the chunk's place in the plan.
-/

set_option autoImplicit false

namespace OpendataIngest.ClickHouse

open MachineInt OpendataIngest.Runtime Otel

/-! ## Attempts -/

inductive AttemptOutcome where
  | noClient (message : String)
  | answered (outcome : HttpOutcome)
  deriving DecidableEq

namespace AttemptOutcome

/-- What `execute_once` returns. -/
def result : AttemptOutcome → Except WriterError Unit
  | .noClient message => .error (.nonRetryable s!"reqwest client: {message}")
  | .answered outcome => executeOnce outcome

def isSuccess : AttemptOutcome → Bool
  | .noClient _ => false
  | .answered outcome => outcome.isSuccess

/-- A transport error, a 429 or a 5xx. -/
def isRetryable : AttemptOutcome → Bool
  | .noClient _ => false
  | .answered (.failed _) => true
  | .answered (.response status _) => decide (status = 429 ∨ 500 ≤ status ∧ status < 600)

end AttemptOutcome

structure Attempt where
  position : Nat
  chunk : InsertChunk
  request : Option InsertRequest
  outcome : AttemptOutcome

def attemptRequest (chunk : InsertChunk) (body : InsertBody) :
    AttemptOutcome → Option InsertRequest
  | .noClient _ => none
  | .answered _ => some (insertRequest chunk body)

/-! ## Calls -/

structure WriteCall where
  log : List Attempt
  position : Nat
  state : WriterState

/-- The end of the backoff. -/
def resume : WriterState → WriterState
  | .backingOff attempt body chunk rest => .posting (attempt + 1) body chunk rest
  | state => state

def WriteCall.step (config : WriterConfig) (outcome : AttemptOutcome) (call : WriteCall) :
    WriteCall :=
  match call.state with
  | .posting attempt body chunk rest =>
      { log := call.log ++ [⟨call.position, chunk, attemptRequest chunk body outcome, outcome⟩]
        position := if outcome.isSuccess then call.position + 1 else call.position
        state := resume (afterAttempt config attempt body chunk rest outcome.result) }
  | _ => call

def WriteCall.run (config : WriterConfig) : Nat → (Nat → AttemptOutcome) → WriteCall → WriteCall
  | 0, _, call => call
  | fuel + 1, script, call =>
      run config fuel (fun n => script (n + 1)) (call.step config (script 0))

/-- How often a chunk can be sent. -/
def attemptLimit (config : WriterConfig) : Nat := max 1 config.maxAttempts.val

/-- `ClickHouseSink::write`, with its attempts; `none` when the adapter panics. -/
def write {R : Type} [TypedRecords R] [DowncastLogs R] (planner : Planner)
    (writer : WriterConfig) (script : Nat → AttemptOutcome) (commit : SinkCommit R) :
    Option (List Attempt × SinkWriteAnswer) :=
  match planCommit planner commit with
  | none => none
  | some (.error failure) => some ([], .error failure)
  | some (.ok planned) =>
      let call := WriteCall.run writer (planned.chunks.length * attemptLimit writer) script
        ⟨[], 0, executeAll writer planned.chunks⟩
      match call.state with
      | .done result => some (call.log, writeAnswer planned result)
      | _ => none

/-! ## What an attempt leads to -/

theorem AttemptOutcome.not_retryable {outcome : AttemptOutcome}
    (success : outcome.isSuccess = true) : outcome.isRetryable = false := by
  cases outcome with
  | noClient message => cases success
  | answered http =>
      cases http with
      | failed error => cases success
      | response status body =>
          simp only [isSuccess, HttpOutcome.isSuccess, decide_eq_true_eq] at success
          simp only [isRetryable, decide_eq_false_iff_not]
          omega

/-- Every outcome is a success, is retryable or is refused. -/
theorem AttemptOutcome.result_cases (outcome : AttemptOutcome) :
    (outcome.isSuccess = true ∧ outcome.result = .ok ()) ∨
    (outcome.isSuccess = false ∧ outcome.isRetryable = true ∧
      ∃ e, outcome.result = .error e ∧ e.errorClass = .retryable) ∨
    (outcome.isSuccess = false ∧ outcome.isRetryable = false ∧
      ∃ e, outcome.result = .error e ∧ e.errorClass = .nonRetryable) := by
  cases outcome with
  | noClient message => exact Or.inr (Or.inr ⟨rfl, rfl, _, rfl, rfl⟩)
  | answered http =>
      cases http with
      | failed error =>
          refine Or.inr (Or.inl ⟨rfl, rfl, _, rfl, ?_⟩)
          unfold classifyReqwest
          cases error.kind with
          | timeout => rfl
          | connect => rfl
          | status => rfl
          | other => rfl
      | response status body =>
          by_cases success : (HttpOutcome.response status body).isSuccess = true
          · exact Or.inl ⟨success, if_pos success⟩
          · have failed : result (.answered (.response status body)) =
                .error (classifyStatus status body) := if_neg success
            rw [Bool.not_eq_true] at success
            by_cases retry : status = 429 ∨ 500 ≤ status ∧ status < 600
            · refine Or.inr (Or.inl ⟨success, decide_eq_true retry, _, failed, ?_⟩)
              rw [classifyStatus, if_pos retry]
              rfl
            · refine Or.inr (Or.inr ⟨success, decide_eq_false retry, _, failed, ?_⟩)
              rw [classifyStatus, if_neg retry]
              rfl

theorem columnTypes_error_class {e : WriterError} (names : List String)
    (failed : columnTypes names = .error e) : e.errorClass = .nonRetryable := by
  induction names with
  | nil => cases failed
  | cons name rest ih =>
      unfold columnTypes at failed
      split at failed
      case h_1 e' missing =>
        cases failed
        unfold clickhouseTypeForColumn at missing
        split at missing
        all_goals cases missing
        rfl
      case h_2 ty named =>
        split at failed
        case h_1 e' later =>
          cases failed
          exact ih later
        case h_2 => cases failed

theorem checkRows_error_class {columnCount : Nat} {e : WriterError} (rows : List Row)
    (failed : checkRows columnCount rows = .error e) : e.errorClass = .nonRetryable := by
  induction rows with
  | nil => cases failed
  | cons row rest ih =>
      unfold checkRows at failed
      split_ifs at failed
      · cases failed
        rfl
      · exact ih failed

theorem serialize_error_class {format : SerializationFormat} {chunk : InsertChunk}
    {e : WriterError} (failed : serialize format chunk = .error e) :
    e.errorClass = .nonRetryable := by
  unfold serialize at failed
  dsimp only at failed
  split at failed
  case h_1 e' missing =>
    cases failed
    cases format with
    | jsonEachRow => cases missing
    | rowBinary => exact columnTypes_error_class _ missing
  case h_2 types named =>
    split at failed
    case h_1 e' short =>
      cases failed
      exact checkRows_error_class _ short
    case h_2 => cases failed

/-! ## What the log of a call says -/

def attemptsAt (log : List Attempt) (position : Nat) : Nat :=
  log.countP fun attempt => attempt.position = position

/-- The chunk at the position got a 2xx. -/
def Delivered (log : List Attempt) (position : Nat) : Prop :=
  ∃ attempt ∈ log, attempt.position = position ∧ attempt.outcome.isSuccess = true

/-- The next attempt repeats a retryable one, or follows a 2xx with the next chunk. -/
def Follows (before : Attempt) (position : Nat) : Prop :=
  position = before.position ∧ before.outcome.isRetryable = true ∨
    position = before.position + 1 ∧ before.outcome.isSuccess = true

section Log

variable (config : WriterConfig) (chunks : List InsertChunk)

/-- In chunk order, each chunk within its limit, and always with its own body and token. -/
structure LogKept (log : List Attempt) : Prop where
  made : ∀ attempt ∈ log, ∃ body, chunks[attempt.position]? = some attempt.chunk ∧
    serialize config.serializationFormat attempt.chunk = .ok body ∧
    attempt.request = attemptRequest attempt.chunk body attempt.outcome
  first : ∀ attempt ∈ log.head?, attempt.position = 0
  ordered : log.IsChain fun before after => Follows before after.position
  limited : ∀ position, attemptsAt log position ≤ attemptLimit config

/-- The chunks before the position are delivered, and none after it was tried. -/
structure Front (log : List Attempt) (position : Nat) : Prop where
  passed : ∀ earlier < position, Delivered log earlier
  bounded : ∀ attempt ∈ log, attempt.position ≤ position
  clear : ∀ attempt ∈ log, attempt.position < position →
    attempt.outcome.isSuccess = true ∨ attempt.outcome.isRetryable = true

/-- Every attempt at the chunk was retryable, and there are no more. -/
structure Exhausted (log : List Attempt) (position : Nat) : Prop where
  inRange : position < chunks.length
  passed : ∀ earlier < position, Delivered log earlier
  spent : attemptsAt log position = attemptLimit config
  ambiguous : ∀ attempt ∈ log, attempt.position = position → attempt.outcome.isRetryable = true

/-- The chunk was refused, or has no body. -/
structure Refused (log : List Attempt) (position : Nat) : Prop where
  inRange : position < chunks.length
  passed : ∀ earlier < position, Delivered log earlier
  refused : (∃ attempt ∈ log, attempt.position = position ∧
      attempt.outcome.isSuccess = false ∧ attempt.outcome.isRetryable = false) ∨
    ∃ chunk e, chunks[position]? = some chunk ∧
      serialize config.serializationFormat chunk = .error e

end Log

/-! ## The invariant of a call -/

section Kept

variable (config : WriterConfig) (chunks : List InsertChunk)

/-- What the result says about the log. -/
inductive Ending (log : List Attempt) : Except WriterError Unit → Prop where
  | delivered (front : Front log chunks.length) : Ending log (.ok ())
  | exhausted {e : WriterError} {position : Nat} (front : Front log position)
      (exhausted : Exhausted config chunks log position)
      (budget : e.errorClass = .retryBudgetExhausted) : Ending log (.error e)
  | refused {e : WriterError} {position : Nat} (front : Front log position)
      (undelivered : ¬ Delivered log position)
      (refused : Refused config chunks log position)
      (fatal : e.errorClass = .nonRetryable) : Ending log (.error e)

/-- The state `posting` with its chunk at the position. -/
structure Posting (log : List Attempt) (position attempt : Nat) (body : InsertBody)
    (chunk : InsertChunk) (rest : List InsertChunk) : Prop where
  front : Front log position
  cut : ∃ sent, chunks = sent ++ chunk :: rest ∧ sent.length = position
  body : serialize config.serializationFormat chunk = .ok body
  count : attemptsAt log position + 1 = attempt
  within : attempt ≤ attemptLimit config
  retried : ∀ a ∈ log, a.position = position → a.outcome.isRetryable = true
  next : ∀ a ∈ log.getLast?, Follows a position
  start : log = [] → position = 0

structure WriteCall.Kept (call : WriteCall) : Prop where
  log : LogKept config chunks call.log
  state : match call.state with
    | .posting attempt body chunk rest =>
        Posting config chunks call.log call.position attempt body chunk rest
    | .done result => Ending config chunks call.log result
    | _ => False

end Kept

/-! ## One attempt more -/

theorem attemptsAt_snoc (log : List Attempt) (a : Attempt) (position : Nat) :
    attemptsAt (log ++ [a]) position =
      attemptsAt log position + if a.position = position then 1 else 0 := by
  simp [attemptsAt, List.countP_append, List.countP_singleton]

theorem Delivered.snoc {log : List Attempt} {position : Nat} (delivered : Delivered log position)
    (a : Attempt) : Delivered (log ++ [a]) position := by
  obtain ⟨attempt, member, facts⟩ := delivered
  exact ⟨attempt, List.mem_append_left _ member, facts⟩

section Step

variable {config : WriterConfig} {chunks : List InsertChunk} {log : List Attempt}
  {position attempt : Nat} {body : InsertBody} {chunk : InsertChunk} {rest : List InsertChunk}

/-- The chunk can be sent once more. -/
theorem LogKept.snoc (kept : LogKept config chunks log)
    (posting : Posting config chunks log position attempt body chunk rest)
    (outcome : AttemptOutcome) : LogKept config chunks
      (log ++ [⟨position, chunk, attemptRequest chunk body outcome, outcome⟩]) := by
  refine ⟨?_, ?_, ?_, ?_⟩
  · intro a member
    rcases List.mem_append.mp member with old | new
    · exact kept.made a old
    · rw [List.mem_singleton.mp new]
      obtain ⟨sent, cut, isPosition⟩ := posting.cut
      refine ⟨body, ?_, posting.body, rfl⟩
      rw [cut, ← isPosition]
      simp
  · intro a isHead
    cases log with
    | nil =>
        cases isHead
        exact posting.start rfl
    | cons head others => exact kept.first a isHead
  · refine List.isChain_append.mpr ⟨kept.ordered, List.isChain_singleton _, ?_⟩
    intro a isLast b isNew
    cases isNew
    exact posting.next a isLast
  · intro other
    rw [attemptsAt_snoc]
    split_ifs with same
    · have count := posting.count
      have within := posting.within
      rw [← same]
      dsimp only
      omega
    · exact kept.limited other

/-- An attempt that does not deliver leaves the position where it is. -/
theorem Front.stay (front : Front log position) {a : Attempt} (here : a.position = position) :
    Front (log ++ [a]) position := by
  refine ⟨fun earlier less => (front.passed earlier less).snoc a, ?_, ?_⟩
  · intro b member
    rcases List.mem_append.mp member with old | new
    · exact front.bounded b old
    · rw [List.mem_singleton.mp new, here]
  · intro b member less
    rcases List.mem_append.mp member with old | new
    · exact front.clear b old less
    · rw [List.mem_singleton.mp new] at less
      omega

theorem Front.advance (front : Front log position)
    (retried : ∀ a ∈ log, a.position = position → a.outcome.isRetryable = true) {a : Attempt}
    (here : a.position = position) (success : a.outcome.isSuccess = true) :
    Front (log ++ [a]) (position + 1) := by
  refine ⟨?_, ?_, ?_⟩
  · intro earlier less
    by_cases last : earlier = position
    · exact ⟨a, by simp, here.trans last.symm, success⟩
    · exact (front.passed earlier (by omega)).snoc a
  · intro b member
    rcases List.mem_append.mp member with old | new
    · have bounded := front.bounded b old
      omega
    · rw [List.mem_singleton.mp new, here]
      omega
  · intro b member less
    rcases List.mem_append.mp member with old | new
    · by_cases last : b.position = position
      · exact Or.inr (retried b old last)
      · exact front.clear b old (by omega)
    · rw [List.mem_singleton.mp new]
      exact Or.inl success

theorem undelivered_of_retried
    (retried : ∀ a ∈ log, a.position = position → a.outcome.isRetryable = true) :
    ¬ Delivered log position := by
  rintro ⟨a, member, here, success⟩
  have retryable := retried a member here
  rw [AttemptOutcome.not_retryable success] at retryable
  cases retryable

/-- `execute_all` comes to the next chunk. -/
theorem kept_executeAll (kept : LogKept config chunks log) (front : Front log position)
    (fresh : ∀ a ∈ log, a.position < position) {sent : List InsertChunk}
    (cut : chunks = sent ++ rest) (isPosition : sent.length = position)
    (next : ∀ a ∈ log.getLast?, Follows a position) (start : log = [] → position = 0) :
    WriteCall.Kept config chunks ⟨log, position, executeAll config rest⟩ := by
  have untried : ∀ a ∈ log, a.position = position → a.outcome.isRetryable = true := by
    intro a member here
    have less := fresh a member
    omega
  refine ⟨kept, ?_⟩
  cases rest with
  | nil =>
      rw [List.append_nil] at cut
      rw [← isPosition, ← cut] at front
      exact .delivered front
  | cons chunk later =>
      cases serialized : serialize config.serializationFormat chunk with
      | error e =>
          simp only [executeAll, serialized]
          have present : chunks[position]? = some chunk := by
            rw [cut, ← isPosition]
            simp
          refine .refused front (undelivered_of_retried untried) ⟨?_, front.passed, ?_⟩
            (serialize_error_class serialized)
          · exact (List.getElem?_eq_some_iff.mp present).1
          · exact Or.inr ⟨chunk, e, present, serialized⟩
      | ok body =>
          simp only [executeAll, serialized]
          have none : attemptsAt log position = 0 := by
            refine List.countP_eq_zero.mpr fun a member => ?_
            have less := fresh a member
            simp only [decide_eq_true_eq]
            omega
          refine ⟨front, ⟨sent, cut, isPosition⟩, serialized, ?_, ?_, untried, next, start⟩
          · rw [none]
          · exact Nat.le_max_left 1 _

theorem resume_executeAll : resume (executeAll config rest) = executeAll config rest := by
  cases rest with
  | nil => rfl
  | cons next later =>
      simp only [executeAll]
      cases serialize config.serializationFormat next with
      | error e => rfl
      | ok body => rfl

theorem Posting.inRange (posting : Posting config chunks log position attempt body chunk rest) :
    position < chunks.length := by
  obtain ⟨sent, cut, isPosition⟩ := posting.cut
  rw [cut, ← isPosition]
  simp

theorem kept_success (kept : LogKept config chunks log)
    (posting : Posting config chunks log position attempt body chunk rest)
    {outcome : AttemptOutcome} (success : outcome.isSuccess = true) :
    WriteCall.Kept config chunks
      ⟨log ++ [⟨position, chunk, attemptRequest chunk body outcome, outcome⟩], position + 1,
        executeAll config rest⟩ := by
  obtain ⟨sent, cut, isPosition⟩ := posting.cut
  have cut' : chunks = (sent ++ [chunk]) ++ rest := by rw [cut, List.append_cons]
  refine kept_executeAll (kept.snoc posting outcome)
    (posting.front.advance posting.retried rfl success) ?_ cut' (by simp [isPosition]) ?_ ?_
  · intro a member
    rcases List.mem_append.mp member with old | new
    · have bounded := posting.front.bounded a old
      omega
    · rw [List.mem_singleton.mp new]
      exact Nat.lt_succ_self position
  · intro a isLast
    rw [List.getLast?_concat] at isLast
    cases isLast
    exact Or.inr ⟨rfl, success⟩
  · intro empty
    simp at empty

theorem kept_retryable (kept : LogKept config chunks log)
    (posting : Posting config chunks log position attempt body chunk rest)
    {outcome : AttemptOutcome} (retryable : outcome.isRetryable = true) {e : WriterError}
    (isClass : e.errorClass = .retryable) :
    WriteCall.Kept config chunks
      ⟨log ++ [⟨position, chunk, attemptRequest chunk body outcome, outcome⟩], position,
        resume (afterAttempt config attempt body chunk rest (.error e))⟩ := by
  have counted : attemptsAt
      (log ++ [⟨position, chunk, attemptRequest chunk body outcome, outcome⟩]) position =
      attempt := by
    rw [attemptsAt_snoc, if_pos rfl, posting.count]
  have retried : ∀ a ∈ log ++ [⟨position, chunk, attemptRequest chunk body outcome, outcome⟩],
      a.position = position → a.outcome.isRetryable = true := by
    intro a member here
    rcases List.mem_append.mp member with old | new
    · exact posting.retried a old here
    · rw [List.mem_singleton.mp new]
      exact retryable
  simp only [afterAttempt, isClass]
  by_cases more : attempt < config.maxAttempts.val
  · rw [if_pos more]
    refine ⟨kept.snoc posting outcome, posting.front.stay rfl, posting.cut, posting.body, ?_, ?_,
      retried, ?_, ?_⟩
    · rw [counted]
    · exact Nat.le_trans more (Nat.le_max_right 1 _)
    · intro a isLast
      rw [List.getLast?_concat] at isLast
      cases isLast
      exact Or.inl ⟨rfl, retryable⟩
    · intro empty
      simp at empty
  · rw [if_neg more]
    have front : Front
        (log ++ [⟨position, chunk, attemptRequest chunk body outcome, outcome⟩]) position :=
      posting.front.stay rfl
    refine ⟨kept.snoc posting outcome, .exhausted front
      ⟨posting.inRange, front.passed, ?_, retried⟩ rfl⟩
    have within := posting.within
    have count := posting.count
    rw [counted]
    unfold attemptLimit at within ⊢
    omega

theorem kept_refused (kept : LogKept config chunks log)
    (posting : Posting config chunks log position attempt body chunk rest)
    {outcome : AttemptOutcome} (failed : outcome.isSuccess = false)
    (refused : outcome.isRetryable = false) {e : WriterError}
    (isClass : e.errorClass = .nonRetryable) :
    WriteCall.Kept config chunks
      ⟨log ++ [⟨position, chunk, attemptRequest chunk body outcome, outcome⟩], position,
        resume (afterAttempt config attempt body chunk rest (.error e))⟩ := by
  simp only [afterAttempt, isClass]
  have front : Front
      (log ++ [⟨position, chunk, attemptRequest chunk body outcome, outcome⟩]) position :=
    posting.front.stay rfl
  refine ⟨kept.snoc posting outcome, .refused front ?_ ⟨posting.inRange, front.passed, ?_⟩ isClass⟩
  · rintro ⟨a, member, here, success⟩
    rcases List.mem_append.mp member with old | new
    · exact undelivered_of_retried posting.retried ⟨a, old, here, success⟩
    · rw [List.mem_singleton.mp new, failed] at success
      cases success
  · exact Or.inl ⟨_, List.mem_append_right _ List.mem_cons_self, rfl, failed, refused⟩

theorem kept_step {call : WriteCall} (kept : call.Kept config chunks) (outcome : AttemptOutcome) :
    (call.step config outcome).Kept config chunks := by
  obtain ⟨log, position, state⟩ := call
  obtain ⟨logKept, inState⟩ := kept
  cases state with
  | awaiting attempt body chunk rest => exact inState.elim
  | backingOff attempt body chunk rest => exact inState.elim
  | done result => exact ⟨logKept, inState⟩
  | posting attempt body chunk rest =>
      simp only [WriteCall.step]
      rcases outcome.result_cases with ⟨success, result⟩ | ⟨failed, retryable, e, result, isClass⟩ |
        ⟨failed, refused, e, result, isClass⟩
      · rw [if_pos success, result, afterAttempt, resume_executeAll]
        exact kept_success logKept inState success
      · rw [failed, result]
        exact kept_retryable logKept inState retryable isClass
      · rw [failed, result]
        exact kept_refused logKept inState failed refused isClass

/-! ## Whole runs -/

/-- How many attempts a call can still make. -/
def WriteCall.remaining (config : WriterConfig) (call : WriteCall) : Nat :=
  match call.state with
  | .posting attempt _ _ rest =>
      attemptLimit config + 1 - attempt + rest.length * attemptLimit config
  | _ => 0

theorem remaining_executeAll (log : List Attempt) (position : Nat) :
    WriteCall.remaining config ⟨log, position, executeAll config rest⟩ ≤
      rest.length * attemptLimit config := by
  cases rest with
  | nil => simp [executeAll, WriteCall.remaining]
  | cons chunk later =>
      cases serialized : serialize config.serializationFormat chunk with
      | error e => simp [executeAll, serialized, WriteCall.remaining]
      | ok body =>
          simp only [executeAll, serialized, WriteCall.remaining, List.length_cons, Nat.succ_mul]
          omega

theorem remaining_step {call : WriteCall} (kept : call.Kept config chunks)
    (outcome : AttemptOutcome) :
    (call.step config outcome).remaining config ≤ call.remaining config - 1 := by
  obtain ⟨log, position, state⟩ := call
  obtain ⟨logKept, inState⟩ := kept
  cases state with
  | awaiting attempt body chunk rest => exact inState.elim
  | backingOff attempt body chunk rest => exact inState.elim
  | done result => exact Nat.le_refl 0
  | posting attempt body chunk rest =>
      have within := Posting.within inState
      simp only [WriteCall.step]
      rcases outcome.result_cases with ⟨_, result⟩ | ⟨_, _, e, result, isClass⟩ |
        ⟨_, _, e, result, isClass⟩
      · rw [result, afterAttempt, resume_executeAll]
        refine (remaining_executeAll _ _).trans ?_
        simp only [WriteCall.remaining]
        omega
      · rw [result]
        simp only [afterAttempt, isClass]
        by_cases more : attempt < config.maxAttempts.val
        · rw [if_pos more]
          simp only [resume, WriteCall.remaining]
          omega
        · rw [if_neg more]
          simp [resume, WriteCall.remaining]
      · rw [result]
        simp [afterAttempt, isClass, resume, WriteCall.remaining]

/-- The outcomes of a log are those of the script, one after the other. -/
def AsScripted (script : Nat → AttemptOutcome) (log : List Attempt) : Prop :=
  ∀ (k : Nat) (a : Attempt), log[k]? = some a → a.outcome = script k

theorem AsScripted.nil (script : Nat → AttemptOutcome) : AsScripted script [] := by
  intro k a present
  cases present

theorem AsScripted.cons {script : Nat → AttemptOutcome} {a : Attempt} {later : List Attempt}
    (now : a.outcome = script 0) (next : AsScripted (fun n => script (n + 1)) later) :
    AsScripted script (a :: later) := by
  intro k b present
  cases k with
  | zero =>
      cases present
      exact now
  | succ k => exact next k b (by simpa using present)

/-- A call that posts makes one attempt a step; any other call stays as it is. -/
theorem step_cases (config : WriterConfig) (outcome : AttemptOutcome) (call : WriteCall) :
    (∀ other, call.step config other = call) ∨
      ∃ a, a.outcome = outcome ∧ (call.step config outcome).log = call.log ++ [a] := by
  obtain ⟨log, position, state⟩ := call
  cases state with
  | posting attempt body chunk rest => exact Or.inr ⟨_, rfl, rfl⟩
  | _ => exact Or.inl fun _ => rfl

theorem run_of_stopped {call : WriteCall} (stopped : ∀ other, call.step config other = call)
    (fuel : Nat) (script : Nat → AttemptOutcome) : call.run config fuel script = call := by
  induction fuel generalizing script with
  | zero => rfl
  | succ fuel ih =>
      rw [WriteCall.run, stopped]
      exact ih _

theorem run_log (config : WriterConfig) (fuel : Nat) (script : Nat → AttemptOutcome)
    (call : WriteCall) :
    ∃ later, (call.run config fuel script).log = call.log ++ later ∧ AsScripted script later := by
  induction fuel generalizing script call with
  | zero => exact ⟨[], (List.append_nil _).symm, .nil script⟩
  | succ fuel ih =>
      rcases step_cases config (script 0) call with stopped | ⟨a, isOutcome, extended⟩
      · rw [run_of_stopped stopped]
        exact ⟨[], (List.append_nil _).symm, .nil script⟩
      · obtain ⟨later, isLog, scripted⟩ := ih (fun n => script (n + 1))
          (call.step config (script 0))
        refine ⟨a :: later, ?_, .cons isOutcome scripted⟩
        rw [WriteCall.run, isLog, extended, List.append_assoc]
        rfl

/-- With an outcome for every attempt, a call comes to its end. -/
theorem run_ends (fuel : Nat) (script : Nat → AttemptOutcome) {call : WriteCall}
    (kept : call.Kept config chunks) (enough : call.remaining config ≤ fuel) :
    ∃ log position result, WriteCall.run config fuel script call = ⟨log, position, .done result⟩ ∧
      LogKept config chunks log ∧ Ending config chunks log result := by
  induction fuel generalizing script call with
  | zero =>
      obtain ⟨log, position, state⟩ := call
      obtain ⟨logKept, inState⟩ := kept
      cases state with
      | awaiting attempt body chunk rest => exact inState.elim
      | backingOff attempt body chunk rest => exact inState.elim
      | done result => exact ⟨log, position, result, rfl, logKept, inState⟩
      | posting attempt body chunk rest =>
          have within := Posting.within inState
          simp only [WriteCall.remaining] at enough
          omega
  | succ fuel ih =>
      have later := remaining_step kept (script 0)
      exact ih _ (kept_step kept (script 0)) (by omega)

theorem kept_start : WriteCall.Kept config chunks ⟨[], 0, executeAll config chunks⟩ := by
  have kept : LogKept config chunks [] := ⟨by simp, by simp, .nil, fun _ => Nat.zero_le _⟩
  have front : Front [] 0 := ⟨by simp, by simp, by simp⟩
  exact kept_executeAll kept front (by simp) (List.nil_append chunks).symm rfl (by simp)
    fun _ => rfl

/-- A whole call: every attempt is the script's next one. -/
theorem call_ends (config : WriterConfig) (chunks : List InsertChunk)
    (script : Nat → AttemptOutcome) :
    ∃ log position result, WriteCall.run config (chunks.length * attemptLimit config) script
        ⟨[], 0, executeAll config chunks⟩ = ⟨log, position, .done result⟩ ∧
      LogKept config chunks log ∧ Ending config chunks log result ∧ AsScripted script log := by
  obtain ⟨log, position, result, ran, kept, ending⟩ := run_ends
    (chunks.length * attemptLimit config) script kept_start (remaining_executeAll [] 0)
  obtain ⟨later, isLog, scripted⟩ := run_log config (chunks.length * attemptLimit config) script
    ⟨[], 0, executeAll config chunks⟩
  rw [ran] at isLog
  have same : log = later := isLog
  rw [← same] at scripted
  exact ⟨log, position, result, ran, kept, ending, scripted⟩

end Step

/-! ## Results -/

section Results

variable {config : WriterConfig} {chunks : List InsertChunk} {log : List Attempt}
  {position : Nat} {result : Except WriterError Unit}

theorem Exhausted.undelivered (exhausted : Exhausted config chunks log position) :
    ¬ Delivered log position :=
  undelivered_of_retried exhausted.ambiguous

/-- A chunk with an attempt has a body. -/
theorem LogKept.serialized (kept : LogKept config chunks log) {a : Attempt} (member : a ∈ log)
    {chunk : InsertChunk} (present : chunks[a.position]? = some chunk) (e : WriterError) :
    serialize config.serializationFormat chunk ≠ .error e := by
  obtain ⟨body, isChunk, serialized, _⟩ := kept.made a member
  rw [isChunk] at present
  cases present
  rw [serialized]
  nofun

theorem Exhausted.not_refused (kept : LogKept config chunks log)
    (exhausted : Exhausted config chunks log position) : ¬ Refused config chunks log position := by
  rintro ⟨_, _, ⟨a, member, here, _, refused⟩ | ⟨chunk, e, present, failed⟩⟩
  · rw [exhausted.ambiguous a member here] at refused
    cases refused
  · have tried : 0 < attemptsAt log position := by
      rw [exhausted.spent]
      exact Nat.lt_of_lt_of_le Nat.one_pos (Nat.le_max_left 1 _)
    obtain ⟨a, member, here⟩ := List.countP_pos_iff.mp tried
    rw [← of_decide_eq_true here] at present
    exact kept.serialized member present e failed

theorem Front.not_refused (front : Front log position) (kept : LogKept config chunks log)
    {earlier : Nat} (less : earlier < position) : ¬ Refused config chunks log earlier := by
  rintro ⟨_, _, ⟨a, member, here, failed, refused⟩ | ⟨chunk, e, present, failed⟩⟩
  · rcases front.clear a member (by omega) with success | retryable
    · rw [failed] at success
      cases success
    · rw [refused] at retryable
      cases retryable
  · obtain ⟨a, member, rfl, _⟩ := front.passed earlier less
    exact kept.serialized member present e failed

/-- A chunk that was not delivered is the last one that was tried. -/
theorem Refused.unique (kept : LogKept config chunks log) (front : Front log position)
    (undelivered : ¬ Delivered log position) {other : Nat}
    (refused : Refused config chunks log other) : other = position := by
  rcases Nat.lt_trichotomy other position with less | same | greater
  · exact absurd refused (front.not_refused kept less)
  · exact same
  · exact absurd (refused.passed position greater) undelivered

theorem Exhausted.unique (front : Front log position) (undelivered : ¬ Delivered log position)
    {other : Nat} (exhausted : Exhausted config chunks log other) : other = position := by
  rcases Nat.lt_trichotomy other position with less | same | greater
  · exact absurd (front.passed other less) exhausted.undelivered
  · exact same
  · exact absurd (exhausted.passed position greater) undelivered

variable (kept : LogKept config chunks log) (ending : Ending config chunks log result)
include ending

theorem Ending.ok_iff : result = .ok () ↔ ∀ p < chunks.length, Delivered log p := by
  cases ending with
  | delivered front => exact ⟨fun _ => front.passed, fun _ => rfl⟩
  | exhausted front exhausted budget =>
      refine ⟨nofun, fun all => ?_⟩
      exact absurd (all _ exhausted.inRange) exhausted.undelivered
  | refused front undelivered refused fatal =>
      refine ⟨nofun, fun all => ?_⟩
      exact absurd (all _ refused.inRange) undelivered

/-- A result is never merely retryable. -/
theorem Ending.settled (e : WriterError) (failed : result = .error e) :
    e.errorClass = .retryBudgetExhausted ∨ e.errorClass = .nonRetryable := by
  cases ending with
  | delivered front => cases failed
  | exhausted front exhausted budget =>
      cases failed
      exact Or.inl budget
  | refused front undelivered refused fatal =>
      cases failed
      exact Or.inr fatal

include kept

theorem Ending.budget_iff :
    (∃ e, result = .error e ∧ e.errorClass = .retryBudgetExhausted) ↔
      ∃ p, Exhausted config chunks log p := by
  cases ending with
  | delivered front =>
      refine ⟨nofun, ?_⟩
      rintro ⟨p, exhausted⟩
      exact absurd (front.passed p exhausted.inRange) exhausted.undelivered
  | exhausted front exhausted budget => exact ⟨fun _ => ⟨_, exhausted⟩, fun _ => ⟨_, rfl, budget⟩⟩
  | refused front undelivered refused fatal =>
      constructor
      · rintro ⟨e, same, budget⟩
        cases same
        rw [fatal] at budget
        cases budget
      · rintro ⟨p, exhausted⟩
        obtain rfl := exhausted.unique front undelivered
        exact absurd refused (exhausted.not_refused kept)

theorem Ending.fatal_iff :
    (∃ e, result = .error e ∧ e.errorClass = .nonRetryable) ↔
      ∃ p, Refused config chunks log p := by
  cases ending with
  | delivered front =>
      refine ⟨nofun, ?_⟩
      rintro ⟨p, refused⟩
      exact absurd refused (front.not_refused kept refused.inRange)
  | exhausted front exhausted budget =>
      constructor
      · rintro ⟨e, same, fatal⟩
        cases same
        rw [budget] at fatal
        cases fatal
      · rintro ⟨p, refused⟩
        obtain rfl := refused.unique kept front exhausted.undelivered
        exact absurd refused (exhausted.not_refused kept)
  | refused front undelivered refused fatal =>
      exact ⟨fun _ => ⟨_, refused⟩, fun _ => ⟨_, rfl, fatal⟩⟩

end Results

section Write

variable {R : Type} [TypedRecords R] [DowncastLogs R]

theorem writeAnswer_error_iff (planned : PlannedCommit) (result : Except WriterError Unit) :
    ((∃ message, writeAnswer planned result = .error (.fatal message)) ↔
      ∃ e, result = .error e ∧ e.errorClass = .nonRetryable) ∧
    ((∃ message, writeAnswer planned result = .error (.maybeCommitted message)) ↔
      ∃ e, result = .error e ∧ e.errorClass ≠ .nonRetryable) ∧
    ∀ message, writeAnswer planned result ≠ .error (.notCommitted message) := by
  cases result with
  | ok value => exact ⟨⟨nofun, nofun⟩, ⟨nofun, nofun⟩, nofun⟩
  | error e => cases e <;> simp [writeAnswer, WriterError.errorClass]

def twoRowCommit : SinkCommit (TypedDecodedLogs 288) where
  identity := firstRange 1
  batch := {
    source := ⟨"manifest"⟩
    lowSequence := 0
    highSequence := 0
    sourceEntryCount := 1
    records := ⟨[plainRecord "m" 0 0 0 "", plainRecord "m" 0 0 1 ""]⟩
    sourceColumns := ⟨"m", "data", [0, 0], [0, 0], [0, 1], [0, 0]⟩
    stats := ⟨0, 0⟩
    schemaVersion := ⟨1⟩ }

def singleRowPlanner : Planner := plan 288 (fun _ => "2905800f7d7ac31c") (smallChunks 1 1)

end Write

end OpendataIngest.ClickHouse
