import OpendataIngest.ClickHouse.WriterMetrics
import OpendataIngest.Lib.Ledger
import Mathlib.Algebra.Group.Int.Defs
import Mathlib.Algebra.BigOperators.Ring.Finset

/-!
# What the writer's metrics account for

A metric is a reading of the shared metrics.  Each call has a share in it, told from where
the call stands and from its attempts, and every step moves the reading by the share of the
call that takes it.
-/

set_option autoImplicit false

namespace OpendataIngest.ClickHouse

open Ledger

/-! ## What the metrics are about -/

/-- Waiting for `send`, or dropped there. -/
def CallPoint.inSend : CallPoint → Bool
  | .running (.awaiting _ _ _ _) => true
  | .dropped _ inSend => inSend
  | _ => false

/-- The chunk of the last attempt, unless it was delivered. -/
def lastFailed (attempts : List EndedAttempt) : List InsertChunk :=
  match attempts.getLast? with
  | none => []
  | some last => if last.outcome.isSuccess then [] else [last.chunk]

/-- The chunk that a call has serialized and not delivered. -/
def MeteredCall.unfinished (call : MeteredCall) : List InsertChunk :=
  match call.point with
  | .running (.posting _ _ chunk _) => [chunk]
  | .running (.awaiting _ _ chunk _) => [chunk]
  | .running (.backingOff _ _ chunk _) => [chunk]
  | .running (.done _) => lastFailed call.attempts
  | .reading _ _ _ chunk _ => [chunk]
  | .dropped chunk _ => [chunk]

def MeteredCall.isExhausted (call : MeteredCall) : Bool :=
  match call.point with
  | .running (.done (.error (.retryBudgetExhausted _))) => true
  | _ => false

def EndedAttempt.hasLabel (label : InsertResult) (ended : EndedAttempt) : Bool :=
  decide (attemptLabel ended.outcome.result = label)

/-- The label under which a failed attempt is counted, if a request was sent. -/
def AttemptOutcome.errorLabel : AttemptOutcome → Option String
  | .noClient _ => none
  | .answered (.failed error) => some error.kind.asLabel
  | .answered (.response status body) =>
      if (HttpOutcome.response status body).isSuccess then none else some (toString status)

def EndedAttempt.hasError (code : String) (ended : EndedAttempt) : Bool :=
  decide (ended.outcome.errorLabel = some code)

def EndedAttempt.isDelivered (ended : EndedAttempt) : Bool := ended.outcome.isSuccess

def deliveredRows (attempts : List EndedAttempt) : Nat :=
  ((attempts.filter EndedAttempt.isDelivered).map fun ended => ended.chunk.rowsCount).sum

namespace WriterPool

def attempts (pool : WriterPool) : List EndedAttempt := pool.calls.flatMap MeteredCall.attempts

def unfinished (pool : WriterPool) : List InsertChunk :=
  pool.calls.flatMap MeteredCall.unfinished

end WriterPool

/-! ## Readings and shares -/

inductive Meter where
  | inflight
  | insertDuration (label : InsertResult)
  | insertErrors (code : String)
  | retryCount
  | serialized
  | chunkRows

namespace Meter

def reading : Meter → WriterMetrics → ℤ
  | inflight, metrics => metrics.httpConcurrentInflight
  | insertDuration label, metrics => Tally.count metrics.insertDuration label.asLabel
  | insertErrors code, metrics => Tally.count metrics.insertErrors code
  | retryCount, metrics => Tally.count metrics.retryCount "retryable"
  | serialized, metrics => metrics.serialized
  | chunkRows, metrics => metrics.chunkRows.sum

def share : Meter → MeteredCall → ℤ
  | inflight, call => if call.point.inSend then 1 else 0
  | insertDuration label, call => call.attempts.countP (EndedAttempt.hasLabel label)
  | insertErrors code, call => call.attempts.countP (EndedAttempt.hasError code)
  | retryCount, call => call.attempts.countP (EndedAttempt.hasLabel .retryable) -
      if call.isExhausted then 1 else 0
  | serialized, call => call.attempts.countP EndedAttempt.isDelivered + call.unfinished.length
  | chunkRows, call => deliveredRows call.attempts +
      (call.unfinished.map InsertChunk.rowsCount).sum

/-- What the client's answer has moved before the result of the attempt is recorded. -/
def moved (call : MeteredCall) (outcome : AttemptOutcome) : Meter → ℤ
  | inflight => if call.point.inSend then -1 else 0
  | insertErrors code => if outcome.errorLabel = some code then 1 else 0
  | _ => 0

end Meter

/-! ## Ends of attempts -/

theorem asLabel_inj {label other : InsertResult} :
    label.asLabel = other.asLabel ↔ label = other := by
  cases label <;> cases other <;> simp [InsertResult.asLabel]

theorem lastFailed_snoc (attempts : List EndedAttempt) (ended : EndedAttempt) :
    lastFailed (attempts ++ [ended]) =
      if ended.outcome.isSuccess then [] else [ended.chunk] := by
  unfold lastFailed
  rw [List.getLast?_concat]

/-- The chunk that `execute_all` turns to is observed once, and is unfinished then. -/
theorem enter_chunks (config : WriterConfig) (metrics : WriterMetrics)
    {attempts : List EndedAttempt} (delivered : lastFailed attempts = [])
    (chunks : List InsertChunk) :
    ∃ entered, (metrics.enter (executeAll config chunks)).serialized =
        metrics.serialized + entered.length ∧
      (metrics.enter (executeAll config chunks)).chunkRows =
        metrics.chunkRows ++ entered.map InsertChunk.rowsCount ∧
      MeteredCall.unfinished ⟨.running (executeAll config chunks), attempts⟩ = entered := by
  rcases executeAll_cases config chunks with ended | ⟨e, ended, _⟩ | ⟨body, chunk, rest, next⟩
  · rw [ended]
    exact ⟨[], rfl, (List.append_nil _).symm, delivered⟩
  · rw [ended]
    exact ⟨[], rfl, (List.append_nil _).symm, delivered⟩
  · rw [next]
    exact ⟨[chunk], rfl, rfl, rfl⟩

theorem enter_others (metrics : WriterMetrics) (state : WriterState) :
    (metrics.enter state).insertDuration = metrics.insertDuration ∧
    (metrics.enter state).retryCount = metrics.retryCount ∧
    (metrics.enter state).insertErrors = metrics.insertErrors ∧
    (metrics.enter state).httpConcurrentInflight = metrics.httpConcurrentInflight := by
  cases state with
  | posting attempt body chunk rest => exact ⟨rfl, rfl, rfl, rfl⟩
  | awaiting attempt body chunk rest => exact ⟨rfl, rfl, rfl, rfl⟩
  | backingOff attempt body chunk rest => exact ⟨rfl, rfl, rfl, rfl⟩
  | done result => exact ⟨rfl, rfl, rfl, rfl⟩

theorem executeAll_open (config : WriterConfig) (chunks : List InsertChunk)
    (attempts : List EndedAttempt) :
    CallPoint.inSend (.running (executeAll config chunks)) = false ∧
    MeteredCall.isExhausted ⟨.running (executeAll config chunks), attempts⟩ = false := by
  rcases executeAll_cases config chunks with ended | ⟨e, ended, isClass⟩ |
    ⟨body, chunk, rest, next⟩
  · rw [ended]
    exact ⟨rfl, rfl⟩
  · rw [ended]
    refine ⟨rfl, ?_⟩
    cases e with
    | retryBudgetExhausted text => cases isClass
    | retryable text => rfl
    | nonRetryable text => rfl
    | serialization text => rfl
  · rw [next]
    exact ⟨rfl, rfl⟩

theorem deliveredRows_snoc (attempts : List EndedAttempt) (ended : EndedAttempt) :
    deliveredRows (attempts ++ [ended]) = deliveredRows attempts +
      if ended.outcome.isSuccess = true then ended.chunk.rowsCount else 0 := by
  unfold deliveredRows
  rw [List.filter_append, List.map_append, List.sum_append]
  by_cases success : ended.outcome.isSuccess = true
  · rw [List.filter_singleton, EndedAttempt.isDelivered, success]
    rfl
  · rw [Bool.not_eq_true] at success
    rw [List.filter_singleton, EndedAttempt.isDelivered, success]
    rfl

section Attempt

variable {config : WriterConfig} {metrics : WriterMetrics} {call : MeteredCall} {attempt : Nat}
  {body : InsertBody} {chunk : InsertChunk} {rest : List InsertChunk} {outcome : AttemptOutcome}

namespace AttemptEnd

variable {after : WriterMetrics × MeteredCall}
  (ends : AttemptEnd config metrics call attempt body chunk rest outcome after)
include ends

theorem attempts : after.2.attempts = call.attempts ++ [⟨chunk, outcome⟩] := by
  cases ends with
  | delivered success label => rfl
  | backsOff failed label => rfl
  | exhausted failed label message => rfl
  | refused failed label isClass => rfl

theorem fields : after.1.insertDuration =
      Tally.add metrics.insertDuration (attemptLabel outcome.result).asLabel 1 ∧
    after.1.insertErrors = metrics.insertErrors ∧
    after.1.httpConcurrentInflight = metrics.httpConcurrentInflight := by
  cases ends with
  | delivered success label =>
      obtain ⟨durations, _, errors, inflight⟩ :=
        enter_others (metrics.observeInsert .ok) (executeAll config rest)
      rw [label]
      exact ⟨durations, errors, inflight⟩
  | backsOff failed label => exact ⟨by rw [label]; rfl, rfl, rfl⟩
  | exhausted failed label message => exact ⟨by rw [label]; rfl, rfl, rfl⟩
  | refused failed label isClass => exact ⟨by rw [label]; rfl, rfl, rfl⟩

theorem outside_send : after.2.point.inSend = false := by
  cases ends with
  | delivered success label => exact (executeAll_open config rest []).1
  | backsOff failed label => rfl
  | exhausted failed label message => rfl
  | refused failed label isClass => rfl

/-- A retryable failure is retried, and counted, or has spent the budget. -/
theorem retries : Tally.count after.1.retryCount "retryable" +
      (if after.2.isExhausted then 1 else 0) =
    Tally.count metrics.retryCount "retryable" +
      if attemptLabel outcome.result = .retryable then 1 else 0 := by
  cases ends with
  | delivered success label =>
      obtain ⟨_, retries, _⟩ := enter_others (metrics.observeInsert .ok) (executeAll config rest)
      have notSpent : (call.ended chunk outcome (executeAll config rest)).isExhausted = false :=
        (executeAll_open config rest _).2
      rw [retries, notSpent, label]
      rfl
  | backsOff failed label =>
      have counted : Tally.count (metrics.observeInsert .retryable).countRetry.retryCount
          "retryable" = Tally.count metrics.retryCount "retryable" + 1 :=
        (Tally.count_add _ _ _ _).trans (by rw [if_pos rfl]; rfl)
      rw [counted, label]
      rfl
  | exhausted failed label message =>
      rw [label]
      rfl
  | refused failed label isClass =>
      rename_i e
      have notSpent : (call.ended chunk outcome (.done (.error e))).isExhausted = false := by
        cases e with
        | retryBudgetExhausted text => cases isClass
        | retryable text => rfl
        | nonRetryable text => rfl
        | serialization text => rfl
      rw [notSpent, label]
      rfl

/-- A delivered chunk gives way to the next one; any other stays in hand. -/
theorem chunks : ∃ entered, after.1.serialized = metrics.serialized + entered.length ∧
    after.1.chunkRows = metrics.chunkRows ++ entered.map InsertChunk.rowsCount ∧
    ((outcome.isSuccess = true ∧ after.2.unfinished = entered) ∨
      (outcome.isSuccess = false ∧ entered = [] ∧ after.2.unfinished = [chunk])) := by
  cases ends with
  | delivered success label =>
      have delivered : lastFailed (call.attempts ++ [⟨chunk, outcome⟩]) = [] := by
        rw [lastFailed_snoc, if_pos success]
      obtain ⟨entered, count, rows, unfinished⟩ :=
        enter_chunks config (metrics.observeInsert .ok) delivered rest
      exact ⟨entered, count, rows, Or.inl ⟨success, unfinished⟩⟩
  | backsOff failed label =>
      exact ⟨[], rfl, (List.append_nil _).symm, Or.inr ⟨failed, rfl, rfl⟩⟩
  | exhausted failed label message =>
      have kept : lastFailed (call.attempts ++ [⟨chunk, outcome⟩]) = [chunk] := by
        rw [lastFailed_snoc, failed]
        rfl
      exact ⟨[], rfl, (List.append_nil _).symm, Or.inr ⟨failed, rfl, kept⟩⟩
  | refused failed label isClass =>
      have kept : lastFailed (call.attempts ++ [⟨chunk, outcome⟩]) = [chunk] := by
        rw [lastFailed_snoc, failed]
        rfl
      exact ⟨[], rfl, (List.append_nil _).symm, Or.inr ⟨failed, rfl, kept⟩⟩

theorem posts (holds : call.unfinished = [chunk]) (open_ : call.isExhausted = false)
    {before : WriterMetrics} (meter : Meter)
    (isMoved : meter.reading metrics = meter.reading before + meter.moved call outcome) :
    meter.reading after.1 + meter.share call = meter.reading before + meter.share after.2 := by
  cases meter with
  | inflight =>
      simp only [Meter.reading, Meter.moved, Meter.share] at isMoved ⊢
      rw [ends.fields.2.2, ends.outside_send, isMoved]
      cases call.point.inSend with
      | true => simp
      | false => simp
  | insertDuration label =>
      simp only [Meter.reading, Meter.moved, Meter.share, add_zero] at isMoved ⊢
      have sameLabel : EndedAttempt.hasLabel label ⟨chunk, outcome⟩ = true ↔
          label.asLabel = (attemptLabel outcome.result).asLabel := by
        rw [asLabel_inj, EndedAttempt.hasLabel, decide_eq_true_eq, eq_comm]
      rw [ends.fields.1, ends.attempts, Tally.count_add, List.countP_append,
        List.countP_singleton, if_congr sameLabel rfl rfl]
      omega
  | insertErrors code =>
      simp only [Meter.reading, Meter.moved, Meter.share] at isMoved ⊢
      have sameCode : EndedAttempt.hasError code ⟨chunk, outcome⟩ = true ↔
          outcome.errorLabel = some code := by
        rw [EndedAttempt.hasError, decide_eq_true_eq]
      rw [ends.fields.2.1, ends.attempts, List.countP_append, List.countP_singleton,
        if_congr sameCode rfl rfl, isMoved]
      split_ifs with counted
      · omega
      · omega
  | retryCount =>
      have retries := ends.retries
      simp only [Meter.reading, Meter.moved, Meter.share, add_zero] at isMoved ⊢
      have isRetryable : EndedAttempt.hasLabel .retryable ⟨chunk, outcome⟩ = true ↔
          attemptLabel outcome.result = .retryable := by
        rw [EndedAttempt.hasLabel, decide_eq_true_eq]
      rw [ends.attempts, List.countP_append, List.countP_singleton,
        if_congr isRetryable rfl rfl, open_]
      rw [if_neg Bool.false_ne_true]
      by_cases spent : after.2.isExhausted = true
      · rw [if_pos spent] at retries ⊢
        omega
      · rw [if_neg spent] at retries ⊢
        omega
  | serialized =>
      obtain ⟨entered, count, _, hand⟩ := ends.chunks
      simp only [Meter.reading, Meter.moved, Meter.share, add_zero] at isMoved ⊢
      rw [ends.attempts, List.countP_append, List.countP_singleton, holds, count]
      rcases hand with ⟨success, unfinished⟩ | ⟨failed, none, unfinished⟩
      · rw [unfinished, EndedAttempt.isDelivered, if_pos success, List.length_singleton]
        omega
      · rw [unfinished, EndedAttempt.isDelivered, failed, none, List.length_singleton]
        simp only [Bool.false_eq_true, if_false, List.length_nil]
        omega
  | chunkRows =>
      obtain ⟨entered, _, rows, hand⟩ := ends.chunks
      simp only [Meter.reading, Meter.moved, Meter.share, add_zero] at isMoved ⊢
      rw [ends.attempts, deliveredRows_snoc, holds, rows, List.sum_append]
      rcases hand with ⟨success, unfinished⟩ | ⟨failed, none, unfinished⟩
      · rw [unfinished, if_pos success, List.map_singleton, List.sum_singleton]
        dsimp only
        omega
      · rw [unfinished, failed, none, List.map_singleton, List.sum_singleton]
        simp only [Bool.false_eq_true, if_false, List.map_nil, List.sum_nil]
        omega

end AttemptEnd

end Attempt

/-! ## One step -/

section Step

variable {config : WriterConfig} {metrics : WriterMetrics} {call : MeteredCall}

theorem addInflight_zero (metrics : WriterMetrics) : metrics = metrics.addInflight 0 := by
  unfold WriterMetrics.addInflight
  rw [add_zero]

/-- A step that ends no attempt leaves the log, the chunk in hand and the counters alone. -/
theorem share_of_quiet (inflight : ℤ) {point : CallPoint} {before after : WriterMetrics}
    (sameHand : MeteredCall.unfinished ⟨point, call.attempts⟩ = call.unfinished)
    (open_ : call.isExhausted = false)
    (open' : MeteredCall.isExhausted ⟨point, call.attempts⟩ = false)
    (same : after = before.addInflight inflight)
    (gauge : inflight + (if call.point.inSend then 1 else 0) = if point.inSend then 1 else 0)
    (meter : Meter) : meter.reading after + meter.share call =
      meter.reading before + meter.share ⟨point, call.attempts⟩ := by
  rw [same]
  cases meter with
  | inflight =>
      simp only [Meter.reading, Meter.share, WriterMetrics.addInflight]
      rw [add_assoc, gauge]
  | insertDuration label => rfl
  | insertErrors code => rfl
  | retryCount =>
      simp only [Meter.reading, Meter.share, WriterMetrics.addInflight]
      rw [open_, open']
  | serialized =>
      simp only [Meter.reading, Meter.share, WriterMetrics.addInflight]
      rw [sameHand]
  | chunkRows =>
      simp only [Meter.reading, Meter.share, WriterMetrics.addInflight]
      rw [sameHand]

theorem share_of_still {point : CallPoint}
    (sameHand : MeteredCall.unfinished ⟨point, call.attempts⟩ = call.unfinished)
    (open_ : call.isExhausted = false)
    (open' : MeteredCall.isExhausted ⟨point, call.attempts⟩ = false)
    (sameSend : call.point.inSend = point.inSend) (meter : Meter) :
    meter.reading metrics + meter.share call =
      meter.reading metrics + meter.share ⟨point, call.attempts⟩ := by
  apply share_of_quiet 0 sameHand open_ open' (addInflight_zero metrics)
  rw [zero_add, sameSend]

theorem reading_countError (metrics : WriterMetrics) (code : String) (meter : Meter) :
    meter.reading (metrics.countError code) = meter.reading metrics +
      match meter with
      | .insertErrors other => if some code = some other then 1 else 0
      | _ => 0 := by
  cases meter with
  | insertErrors other =>
      simp only [Meter.reading, WriterMetrics.countError, Tally.count_add, Option.some_inj]
      split_ifs with same reversed reversed
      · rfl
      · exact absurd same.symm reversed
      · exact absurd reversed.symm same
      · rfl
  | _ => exact (add_zero _).symm

/-- The answer of `send` leaves the gauge, and a failure is counted under its label. -/
theorem reading_moved {outcome : AttemptOutcome} (inflight : ℤ) (before after : WriterMetrics)
    (counted : after = match outcome.errorLabel with
      | none => before.addInflight inflight
      | some code => (before.addInflight inflight).countError code)
    (gauge : inflight = if call.point.inSend then -1 else 0) (meter : Meter) :
    meter.reading after = meter.reading before + meter.moved call outcome := by
  cases label : outcome.errorLabel with
  | none =>
      rw [label] at counted
      rw [counted]
      cases meter with
      | inflight =>
          simp only [Meter.reading, Meter.moved, WriterMetrics.addInflight]
          rw [gauge]
      | insertErrors other =>
          simp only [Meter.moved, label]
          exact (add_zero _).symm
      | _ => exact (add_zero _).symm
  | some code =>
      rw [label] at counted
      rw [counted, reading_countError]
      cases meter with
      | inflight =>
          simp only [Meter.reading, Meter.moved, WriterMetrics.addInflight]
          rw [gauge, add_zero]
      | insertErrors other =>
          simp only [Meter.moved, label]
          rfl
      | _ => rfl

/-- Every step moves what is read from the metrics by the share of the call that moved. -/
theorem step_posts {action : CallAction} {next : WriterMetrics × MeteredCall}
    (taken : call.step config metrics action = some next) (meter : Meter) :
    meter.reading next.1 + meter.share call = meter.reading metrics + meter.share next.2 := by
  cases callMove_of_step taken with
  | noClient at_point message =>
      apply (endAttempt_ends config metrics call _ _ _ _ _).posts
      · rw [MeteredCall.unfinished, at_point]
      · rw [MeteredCall.isExhausted, at_point]
      · refine reading_moved 0 _ _ (addInflight_zero metrics) ?_ meter
        rw [at_point]
        rfl
  | fails at_point error =>
      apply (endAttempt_ends config _ call _ _ _ _ _).posts
      · rw [MeteredCall.unfinished, at_point]
      · rw [MeteredCall.isExhausted, at_point]
      · apply reading_moved (-1) metrics _ _ _ meter
        · rfl
        · rw [at_point]
          rfl
  | @reads status attempt body chunk rest at_point text =>
      apply (endAttempt_ends config _ call attempt body chunk rest _).posts
      · rw [MeteredCall.unfinished, at_point]
      · rw [MeteredCall.isExhausted, at_point]
      · refine reading_moved 0 _ _ ?_ ?_ meter
        · rw [AttemptOutcome.errorLabel]
          by_cases success : (HttpOutcome.response status text).isSuccess = true
          · rw [if_pos success, if_pos success]
            exact addInflight_zero metrics
          · rw [if_neg success, if_neg success]
            exact congrArg (WriterMetrics.countError · _) (addInflight_zero metrics)
        · rw [at_point]
          rfl
  | sends at_point =>
      apply share_of_quiet 1
      · rw [MeteredCall.unfinished, MeteredCall.unfinished, at_point]
      · rw [MeteredCall.isExhausted, at_point]
      · rfl
      · rfl
      · rw [at_point]
        rfl
  | answers at_point status =>
      apply share_of_quiet (-1)
      · rw [MeteredCall.unfinished, MeteredCall.unfinished, at_point]
      · rw [MeteredCall.isExhausted, at_point]
      · rfl
      · rfl
      · rw [at_point]
        rfl
  | wakes at_point | dropsSend at_point | dropsText at_point | dropsBackoff at_point =>
      apply share_of_still
      · rw [MeteredCall.unfinished, MeteredCall.unfinished, at_point]
      · rw [MeteredCall.isExhausted, at_point]
      · rfl
      · rw [at_point]
        rfl

end Step

/-! ## Every run -/

section Runs

variable {config : WriterConfig} {pool : WriterPool}

theorem enter_posts (metrics : WriterMetrics) (chunks : List InsertChunk) (meter : Meter) :
    meter.reading (metrics.enter (executeAll config chunks)) =
      meter.reading metrics + meter.share ⟨.running (executeAll config chunks), []⟩ := by
  obtain ⟨outside, open_⟩ := executeAll_open config chunks []
  obtain ⟨durations, retries, errors, inflight⟩ := enter_others metrics (executeAll config chunks)
  have nothing : lastFailed [] = [] := rfl
  obtain ⟨entered, count, rows, hand⟩ := enter_chunks config metrics nothing chunks
  cases meter with
  | inflight =>
      simp only [Meter.reading, Meter.share]
      rw [inflight, outside]
      exact (add_zero _).symm
  | insertDuration label =>
      simp only [Meter.reading, Meter.share]
      rw [durations]
      exact (add_zero _).symm
  | insertErrors code =>
      simp only [Meter.reading, Meter.share]
      rw [errors]
      exact (add_zero _).symm
  | retryCount =>
      simp only [Meter.reading, Meter.share]
      rw [retries, open_]
      exact (add_zero _).symm
  | serialized =>
      simp only [Meter.reading, Meter.share]
      rw [count, hand]
      simp
  | chunkRows =>
      simp only [Meter.reading, Meter.share]
      rw [rows, hand, List.sum_append]
      simp [deliveredRows]

theorem balanced_of_reachable (reachable : (writerMachine config).Reachable pool)
    (meter : Meter) : Balanced meter.reading meter.share pool.metrics pool.calls := by
  induction reachable with
  | start =>
      cases meter with
      | _ => rfl
  | step action _ taken balanced =>
      cases action with
      | executeAll chunks =>
          cases taken
          exact balanced.join (enter_posts _ chunks meter)
      | call i action =>
          simp only [writerMachine, WriterPool.step] at taken
          split at taken
          case h_1 => cases taken
          case h_2 call present =>
            obtain ⟨next, stepped, rfl⟩ := Option.map_eq_some_iff.mp taken
            exact balanced.move present (step_posts stepped meter)

/-- What the shares of the calls come to. -/
def Meter.total : Meter → List MeteredCall → ℤ
  | .inflight, calls => calls.countP fun call => call.point.inSend
  | .insertDuration label, calls =>
      (calls.flatMap MeteredCall.attempts).countP (EndedAttempt.hasLabel label)
  | .insertErrors code, calls =>
      (calls.flatMap MeteredCall.attempts).countP (EndedAttempt.hasError code)
  | .retryCount, calls =>
      (calls.flatMap MeteredCall.attempts).countP (EndedAttempt.hasLabel .retryable) -
        calls.countP MeteredCall.isExhausted
  | .serialized, calls => (calls.flatMap MeteredCall.attempts).countP EndedAttempt.isDelivered +
      (calls.flatMap MeteredCall.unfinished).length
  | .chunkRows, calls => deliveredRows (calls.flatMap MeteredCall.attempts) +
      ((calls.flatMap MeteredCall.unfinished).map InsertChunk.rowsCount).sum

theorem Meter.total_cons (meter : Meter) (call : MeteredCall) (rest : List MeteredCall) :
    meter.total (call :: rest) = meter.share call + meter.total rest := by
  cases meter with
  | inflight =>
      simp only [Meter.total, Meter.share, List.countP_cons]
      split_ifs
      · omega
      · omega
  | insertDuration label =>
      simp only [Meter.total, Meter.share, List.flatMap_cons, List.countP_append]
      omega
  | insertErrors code =>
      simp only [Meter.total, Meter.share, List.flatMap_cons, List.countP_append]
      omega
  | retryCount =>
      simp only [Meter.total, Meter.share, List.flatMap_cons, List.countP_append,
        List.countP_cons]
      split_ifs
      · omega
      · omega
  | serialized =>
      simp only [Meter.total, Meter.share, List.flatMap_cons, List.countP_append,
        List.length_append]
      omega
  | chunkRows =>
      simp only [Meter.total, Meter.share, List.flatMap_cons, List.map_append, List.sum_append,
        deliveredRows, List.filter_append]
      omega

theorem Meter.sum_share (meter : Meter) (calls : List MeteredCall) :
    (calls.map meter.share).sum = meter.total calls := by
  induction calls with
  | nil =>
      cases meter with
      | _ => rfl
  | cons call rest ih => rw [List.map_cons, List.sum_cons, ih, Meter.total_cons]

theorem reading_of_reachable (reachable : (writerMachine config).Reachable pool)
    (meter : Meter) : meter.reading pool.metrics = meter.total pool.calls :=
  (balanced_of_reachable reachable meter).trans (meter.sum_share pool.calls)

/-- Whatever the calls do, the metrics account for every attempt and every chunk. -/
theorem metrics_account_for_every_attempt (reachable : (writerMachine config).Reachable pool) :
    pool.metrics.httpConcurrentInflight = pool.calls.countP (fun call => call.point.inSend) ∧
    (∀ label, Tally.count pool.metrics.insertDuration label.asLabel =
      pool.attempts.countP (EndedAttempt.hasLabel label)) ∧
    Tally.count pool.metrics.insertDuration "retry_budget_exhausted" = 0 ∧
    (∀ code, Tally.count pool.metrics.insertErrors code =
      pool.attempts.countP (EndedAttempt.hasError code)) ∧
    Tally.count pool.metrics.retryCount "retryable" +
        pool.calls.countP MeteredCall.isExhausted =
      pool.attempts.countP (EndedAttempt.hasLabel .retryable) ∧
    pool.metrics.serialized =
      pool.attempts.countP EndedAttempt.isDelivered + pool.unfinished.length ∧
    pool.metrics.chunkRows.sum = deliveredRows pool.attempts +
      (pool.unfinished.map InsertChunk.rowsCount).sum ∧
    ∀ call ∈ pool.calls, ∃ chunks log, LogKept config chunks log ∧
      log.map Attempt.ended = call.attempts ∧
      ∀ result, call.point = .running (.done result) → Ending config chunks log result := by
  have durations : ∀ label, Tally.count pool.metrics.insertDuration label.asLabel =
      pool.attempts.countP (EndedAttempt.hasLabel label) := fun label =>
    Int.ofNat_inj.mp (reading_of_reachable reachable (.insertDuration label))
  refine ⟨reading_of_reachable reachable .inflight, durations, ?_, fun code => ?_, ?_, ?_, ?_,
    fun call member => ?_⟩
  · have exhausted := durations .retryBudgetExhausted
    rw [InsertResult.asLabel] at exhausted
    rw [exhausted]
    refine List.countP_eq_zero.mpr fun ended _ => ?_
    rw [EndedAttempt.hasLabel, decide_eq_true_eq]
    exact attemptLabel_ne_exhausted ended.outcome
  · exact Int.ofNat_inj.mp (reading_of_reachable reachable (.insertErrors code))
  · have counted := reading_of_reachable reachable .retryCount
    simp only [Meter.reading, Meter.total] at counted
    unfold WriterPool.attempts
    omega
  · have counted := reading_of_reachable reachable .serialized
    simp only [Meter.reading, Meter.total] at counted
    unfold WriterPool.attempts WriterPool.unfinished
    omega
  · have counted := reading_of_reachable reachable .chunkRows
    simp only [Meter.reading, Meter.total] at counted
    unfold WriterPool.attempts WriterPool.unfinished
    omega
  · obtain ⟨chunks, write, made⟩ := makes_of_reachable reachable call member
    refine ⟨chunks, write.log, made.kept.log, made.log, fun result ended => ?_⟩
    have shown := made.shown
    have inState := made.kept.state
    rw [ended] at shown
    rw [shown] at inState
    exact inState

end Runs

/-- A chunk of one row. -/
def oneRowChunk : InsertChunk where
  database := "default"
  table := "logs"
  columns := ["Body"]
  rows := [[.string "one"]]
  settings := ⟨none, "token", true⟩
  idempotencyToken := "token"
  chunkIndex := ⟨0, by decide⟩

/-- Two calls send the same chunk; the first is dropped there, the second is answered. -/
def droppedInSend : List PoolAction :=
  [.executeAll [oneRowChunk], .executeAll [oneRowChunk], .call 0 (.send none),
    .call 1 (.send none), .call 0 .drop, .call 1 (.receive (.ok 200)), .call 1 (.read "")]

theorem metrics_account_for_every_attempt_dropped : ∃ pool : WriterPool,
    (writerMachine ⟨⟨4, by decide⟩, .jsonEachRow⟩).run droppedInSend = some pool ∧
    pool.metrics.httpConcurrentInflight = 1 ∧ pool.metrics.serialized = 2 ∧
    Tally.count pool.metrics.insertDuration (InsertResult.asLabel .ok) = 1 := by
  obtain ⟨pool, ran, inSend, delivered, unfinished, ok⟩ : ∃ pool,
      (writerMachine ⟨⟨4, by decide⟩, .jsonEachRow⟩).run droppedInSend = some pool ∧
      pool.calls.countP (fun call => call.point.inSend) = 1 ∧
      pool.attempts.countP EndedAttempt.isDelivered = 1 ∧ pool.unfinished.length = 1 ∧
      pool.attempts.countP (EndedAttempt.hasLabel .ok) = 1 := ⟨_, rfl, rfl, rfl, rfl, rfl⟩
  obtain ⟨inflight, durations, _, _, _, serialized, _, _⟩ :=
    metrics_account_for_every_attempt (Machine.run_reachable _ _ _ ran)
  rw [inSend] at inflight
  rw [delivered, unfinished] at serialized
  exact ⟨pool, ran, inflight, serialized, (durations .ok).trans ok⟩

end OpendataIngest.ClickHouse
