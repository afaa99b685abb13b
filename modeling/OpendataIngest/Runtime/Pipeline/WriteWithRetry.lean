import OpendataIngest.Runtime.Pipeline.Workers
import Mathlib.Data.List.Chain

/-!
# The retry loop of a commit

`write_with_retry` of `runtime.rs` against a sink that answers from a script.  The loop
awaits the sink's write, its check, and the backoff; the abort token can end each of them,
before the sink is called or while the call is under way.  The writer worker of the
pipeline takes the same steps.
-/

set_option autoImplicit false

namespace OpendataIngest.Runtime.Pipeline

open MachineInt

variable {R : Type}

/-! ## The loop -/

inductive SinkCommitOutcome where
  | committed
  | verifiedAlreadyCommitted
  | failedRetryable
  | failedFatal
  deriving DecidableEq

inductive WriteSuccess where
  | committed (result : SinkCommitResult)
  | verifiedAlreadyCommitted
  deriving DecidableEq

structure WriteAttempt where
  inner : RuntimeResult WriteSuccess
  outcome : SinkCommitOutcome
  deriving DecidableEq

inductive RetryPoint where
  | writing (attempt : Nat)
  | checking (attempt : Nat) (error : BoxError)
  | sleeping (attempt : Nat)
  | returned (result : WriteAttempt)
  deriving DecidableEq

/-- The budget check that both failure arms make. -/
def retryOrReturn (maxAttempts : Nat) (attempt : Nat) (error : BoxError) : RetryPoint :=
  if attempt ≥ maxAttempts then .returned ⟨.error (.sink error), .failedRetryable⟩
  else .sleeping attempt

def afterWrite (maxAttempts : Nat) (attempt : Nat) : SinkWriteAnswer → RetryPoint
  | .ok result => .returned ⟨.ok (.committed result), .committed⟩
  | .error (.fatal e) => .returned ⟨.error (.sink e), .failedFatal⟩
  | .error (.notCommitted e) => retryOrReturn maxAttempts attempt e
  | .error (.maybeCommitted e) => .checking attempt e

def afterCheck (maxAttempts : Nat) (attempt : Nat) (error : BoxError) :
    RuntimeResult CommitStatus → RetryPoint
  | .ok .committed => .returned ⟨.ok .verifiedAlreadyCommitted, .verifiedAlreadyCommitted⟩
  | .ok .notCommitted => retryOrReturn maxAttempts attempt error
  | .ok .unknown => retryOrReturn maxAttempts attempt error
  | .error e => .returned ⟨.error e, .failedFatal⟩

def aborted (message : String) : WriteAttempt := ⟨.error (.pipeline message), .failedFatal⟩

/-! ## Against a script -/

/-- Whether the abort token ends an await. -/
inductive Interruption where
  | no
  | beforeCall
  | duringCall
  deriving DecidableEq

/-- The answers to the first write, the second write and so on, and what the abort token
does at each await. -/
structure SinkScript where
  writes : Nat → SinkWriteAnswer
  checks : Nat → RuntimeResult CommitStatus
  abort : Nat → Interruption

/-- A call to the sink; without an answer if it was aborted. -/
inductive SinkEvent (R : Type) where
  | write (commit : SinkCommit R) (answer : Option SinkWriteAnswer)
  | check (identity : CommitIdentity) (answer : Option (RuntimeResult CommitStatus))
  deriving DecidableEq

structure RetryLoop (R : Type) where
  point : RetryPoint
  log : List (SinkEvent R)
  awaits : Nat
  writes : Nat
  checks : Nat

section Step

variable (maxAttempts : Nat) (commit : SinkCommit R) (script : SinkScript)

/-- From one await to the next. -/
def RetryLoop.step (loop : RetryLoop R) : RetryLoop R :=
  match loop.point, script.abort loop.awaits with
  | .writing attempt, .no =>
      let answer := script.writes loop.writes
      { loop with
        point := afterWrite maxAttempts attempt answer
        log := loop.log ++ [.write commit (some answer)]
        awaits := loop.awaits + 1
        writes := loop.writes + 1 }
  | .writing _, .beforeCall =>
      { loop with point := .returned (aborted "hard abort during Sink::write") }
  | .writing _, .duringCall =>
      { loop with
        point := .returned (aborted "hard abort during Sink::write")
        log := loop.log ++ [.write commit none] }
  | .checking attempt error, .no =>
      let answer := script.checks loop.checks
      { loop with
        point := afterCheck maxAttempts attempt error answer
        log := loop.log ++ [.check commit.identity (some answer)]
        awaits := loop.awaits + 1
        checks := loop.checks + 1 }
  | .checking _ _, .beforeCall =>
      { loop with point := .returned (aborted "hard abort during check_committed") }
  | .checking _ _, .duringCall =>
      { loop with
        point := .returned (aborted "hard abort during check_committed")
        log := loop.log ++ [.check commit.identity none] }
  | .sleeping attempt, .no =>
      { loop with point := .writing (nextAttempt attempt), awaits := loop.awaits + 1 }
  | .sleeping _, _ => { loop with point := .returned (aborted "hard abort during retry sleep") }
  | .returned _, _ => loop

def RetryLoop.run : Nat → RetryLoop R → RetryLoop R
  | 0, loop => loop
  | fuel + 1, loop => run fuel (loop.step maxAttempts commit script)

end Step

def RetryLoop.start : RetryLoop R := ⟨.writing 0, [], 0, 0, 0⟩

/-- `write_with_retry`, with its calls to the sink.  A round has at most three awaits. -/
def writeWithRetry (options : RuntimeOptions) (commit : SinkCommit R) (script : SinkScript) :
    Option (List (SinkEvent R) × WriteAttempt) :=
  let maxAttempts := options.effectiveRetryMaxAttempts.val
  let loop := RetryLoop.start.run maxAttempts commit script (3 * (maxAttempts + 1))
  match loop.point with
  | .returned result => some (loop.log, result)
  | _ => none

/-! ## The worker takes these steps -/

/-- Where the worker is while its loop is at the point. -/
def RetryPoint.inWorker (unit : SinkCommitEnvelope R) : RetryPoint → WriterPoint R
  | .writing attempt => .writing attempt unit
  | .checking attempt error => .checking attempt unit error
  | .sleeping attempt => .backingOff attempt unit
  | .returned ⟨.ok (.committed result), _⟩ =>
      .reportingCommitted ⟨unit.range, result.rowsWritten⟩ unit.reservation
  | .returned ⟨.ok .verifiedAlreadyCommitted, _⟩ =>
      .reportingCommitted ⟨unit.range, 0⟩ unit.reservation
  | .returned ⟨.error e, _⟩ => .reportingFatal e unit.reservation

section Worker

variable (cfg : Config) (decodersGone : Bool) (sh : Shared R) (unit : SinkCommitEnvelope R)
  (attempt : Nat)

theorem retryOrGiveUp_inWorker (error : BoxError) : (retryOrGiveUp cfg attempt unit error sh).1 =
    (retryOrReturn cfg.options.effectiveRetryMaxAttempts.val attempt error).inWorker unit := by
  unfold retryOrGiveUp retryOrReturn
  split_ifs
  · rfl
  · rfl

theorem stepWriter_write (answer : SinkWriteAnswer) :
    (stepWriter cfg decodersGone sh (.writing attempt unit) (.write answer)).map Prod.fst =
      some ((afterWrite cfg.options.effectiveRetryMaxAttempts.val attempt answer).inWorker
        unit) := by
  cases answer with
  | ok result => rfl
  | error failure =>
      cases failure with
      | notCommitted e => exact congrArg some (retryOrGiveUp_inWorker cfg _ unit attempt e)
      | maybeCommitted e => rfl
      | fatal e => rfl

theorem stepWriter_check (error : BoxError) (answer : RuntimeResult CommitStatus) :
    (stepWriter cfg decodersGone sh (.checking attempt unit error) (.check answer)).map Prod.fst =
      some ((afterCheck cfg.options.effectiveRetryMaxAttempts.val attempt error answer).inWorker
        unit) := by
  cases answer with
  | error e => rfl
  | ok status =>
      cases status with
      | committed => rfl
      | notCommitted => exact congrArg some (retryOrGiveUp_inWorker cfg _ unit attempt error)
      | unknown => exact congrArg some (retryOrGiveUp_inWorker cfg _ unit attempt error)

theorem stepWriter_wake :
    (stepWriter cfg decodersGone sh (.backingOff attempt unit) .wake).map Prod.fst =
      some ((RetryPoint.writing (nextAttempt attempt)).inWorker unit) := rfl

/-- The abort token ends each await of the worker as it ends the loop's. -/
theorem stepWriter_abort (aborting : sh.hardAbort = true) (error : BoxError) :
    (stepWriter cfg decodersGone sh (.writing attempt unit) .abort).map Prod.fst =
      some ((RetryPoint.returned (aborted "hard abort during Sink::write")).inWorker unit) ∧
    (stepWriter cfg decodersGone sh (.checking attempt unit error) .abort).map Prod.fst =
      some ((RetryPoint.returned (aborted "hard abort during check_committed")).inWorker unit) ∧
    (stepWriter cfg decodersGone sh (.backingOff attempt unit) .abort).map Prod.fst =
      some ((RetryPoint.returned (aborted "hard abort during retry sleep")).inWorker unit) := by
  simp only [stepWriter, if_pos aborting]
  exact ⟨rfl, rfl, rfl⟩

end Worker

/-! ## What the log says -/

inductive SinkAnswer where
  | write (answer : SinkWriteAnswer)
  | check (answer : RuntimeResult CommitStatus)
  deriving DecidableEq

namespace SinkAnswer

def allowsWrite : SinkAnswer → Bool
  | .write (.error (.notCommitted _)) => true
  | .check (.ok .notCommitted) => true
  | .check (.ok .unknown) => true
  | _ => false

def allowsCheck : SinkAnswer → Bool
  | .write (.error (.maybeCommitted _)) => true
  | _ => false

/-- The loop goes on after this answer. -/
def isOpen (answer : SinkAnswer) : Bool := answer.allowsWrite || answer.allowsCheck

end SinkAnswer

namespace SinkEvent

def isWrite : SinkEvent R → Bool
  | .write _ _ => true
  | .check _ _ => false

def answer : SinkEvent R → Option SinkAnswer
  | .write _ answer => answer.map .write
  | .check _ answer => answer.map .check

/-- A write follows a definite failure or an inconclusive check, a check an ambiguous
write. -/
def Allows (before after : SinkEvent R) : Prop :=
  ∃ a, before.answer = some a ∧
    if after.isWrite then a.allowsWrite = true else a.allowsCheck = true

end SinkEvent

def writesIn (log : List (SinkEvent R)) : Nat := log.countP SinkEvent.isWrite

def answers (log : List (SinkEvent R)) : List SinkAnswer := log.filterMap SinkEvent.answer

section Kept

variable (maxAttempts : Nat) (commit : SinkCommit R)

structure RetryLog (log : List (SinkEvent R)) : Prop where
  sameCommit : ∀ event ∈ log, (∃ answer, event = .write commit answer) ∨
    ∃ answer, event = .check commit.identity answer
  first : ∀ event ∈ log.head?, event.isWrite = true
  protocol : log.IsChain SinkEvent.Allows
  budget : writesIn log ≤ maxAttempts + 1

/-- Every call was answered, and no answer ended the loop. -/
def OpenLog (log : List (SinkEvent R)) : Prop :=
  ∀ event ∈ log, ∃ a, event.answer = some a ∧ a.isOpen = true

/-- The last answer, if there is one, lets the loop write. -/
def ReadyToWrite (log : List (SinkEvent R)) : Prop :=
  ∀ event ∈ log.getLast?, ∃ a, event.answer = some a ∧ a.allowsWrite = true

inductive LoopEnd (log : List (SinkEvent R)) : WriteAttempt → Prop where
  | committed {front : List (SinkEvent R)} {result : SinkCommitResult}
      (shape : log = front ++ [.write commit (some (.ok result))]) :
      LoopEnd log ⟨.ok (.committed result), .committed⟩
  | verified {front : List (SinkEvent R)} {e : BoxError}
      (shape : log = front ++ [.write commit (some (.error (.maybeCommitted e))),
        .check commit.identity (some (.ok .committed))]) :
      LoopEnd log ⟨.ok .verifiedAlreadyCommitted, .verifiedAlreadyCommitted⟩
  | refused {front : List (SinkEvent R)} {e : BoxError}
      (shape : log = front ++ [.write commit (some (.error (.fatal e)))]) :
      LoopEnd log ⟨.error (.sink e), .failedFatal⟩
  | checkFailed {front : List (SinkEvent R)} {e : RuntimeError}
      (shape : log = front ++ [.check commit.identity (some (.error e))]) :
      LoopEnd log ⟨.error e, .failedFatal⟩
  | exhausted {e : BoxError} (open_ : OpenLog log) (ready : ReadyToWrite log)
      (spent : writesIn log = maxAttempts + 1) :
      LoopEnd log ⟨.error (.sink e), .failedRetryable⟩
  | interrupted {front tail : List (SinkEvent R)} {message : String} (shape : log = front ++ tail)
      (open_ : OpenLog front) (unanswered : ∀ event ∈ tail, event.answer = none)
      (unchecked : ∀ e, log.getLast? = some (.write commit (some (.error (.maybeCommitted e)))) →
        message = "hard abort during check_committed") :
      LoopEnd log (aborted message)

/-- What holds at each point of the loop. -/
def PointKept (log : List (SinkEvent R)) : RetryPoint → Prop
  | .writing attempt => OpenLog log ∧ ReadyToWrite log ∧ writesIn log = attempt ∧
      attempt ≤ maxAttempts
  | .checking attempt error => (∃ front, OpenLog front ∧
      log = front ++ [.write commit (some (.error (.maybeCommitted error)))]) ∧
      writesIn log = attempt + 1 ∧ attempt ≤ maxAttempts
  | .sleeping attempt => OpenLog log ∧ ReadyToWrite log ∧ writesIn log = attempt + 1 ∧
      attempt < maxAttempts
  | .returned result => LoopEnd maxAttempts commit log result

structure RetryLoop.Kept (loop : RetryLoop R) : Prop where
  log : RetryLog maxAttempts commit loop.log
  point : PointKept maxAttempts commit loop.log loop.point

end Kept

/-! ## One call more -/

section Snoc

variable {maxAttempts attempt : Nat} {commit : SinkCommit R} {log : List (SinkEvent R)}

theorem writesIn_snoc (log : List (SinkEvent R)) (event : SinkEvent R) :
    writesIn (log ++ [event]) = writesIn log + if event.isWrite then 1 else 0 := by
  simp [writesIn, List.countP_append, List.countP_singleton]

theorem OpenLog.snoc (open_ : OpenLog log) {event : SinkEvent R} {a : SinkAnswer}
    (answered : event.answer = some a) (isOpen : a.isOpen = true) : OpenLog (log ++ [event]) := by
  intro other member
  rcases List.mem_append.mp member with old | new
  · exact open_ other old
  · rw [List.mem_singleton.mp new]
    exact ⟨a, answered, isOpen⟩

theorem readyToWrite_snoc {event : SinkEvent R} {a : SinkAnswer} (answered : event.answer = some a)
    (allows : a.allowsWrite = true) : ReadyToWrite (log ++ [event]) := by
  intro last isLast
  rw [List.getLast?_concat] at isLast
  cases isLast
  exact ⟨a, answered, allows⟩

theorem ReadyToWrite.not_ambiguous (ready : ReadyToWrite log) (e : BoxError) :
    log.getLast? ≠ some (.write commit (some (.error (.maybeCommitted e)))) := by
  intro isLast
  obtain ⟨a, answered, allows⟩ := ready _ isLast
  cases answered
  cases allows

theorem RetryLog.write (kept : RetryLog maxAttempts commit log) (ready : ReadyToWrite log)
    (room : writesIn log ≤ maxAttempts) (answer : Option SinkWriteAnswer) :
    RetryLog maxAttempts commit (log ++ [.write commit answer]) := by
  refine ⟨?_, ?_, ?_, ?_⟩
  · intro event member
    rcases List.mem_append.mp member with old | new
    · exact kept.sameCommit event old
    · exact Or.inl ⟨answer, List.mem_singleton.mp new⟩
  · intro event isHead
    cases log with
    | nil =>
        cases isHead
        rfl
    | cons head rest => exact kept.first event isHead
  · refine List.isChain_append.mpr ⟨kept.protocol, List.isChain_singleton _, ?_⟩
    intro last isLast next isNext
    cases isNext
    exact ready last isLast
  · rw [writesIn_snoc]
    exact Nat.succ_le_succ room

theorem RetryLog.check {front : List (SinkEvent R)} {e : BoxError}
    (kept : RetryLog maxAttempts commit log)
    (ambiguous : log = front ++ [.write commit (some (.error (.maybeCommitted e)))])
    (answer : Option (RuntimeResult CommitStatus)) :
    RetryLog maxAttempts commit (log ++ [.check commit.identity answer]) := by
  have nonempty : log ≠ [] := by simp [ambiguous]
  refine ⟨?_, ?_, ?_, ?_⟩
  · intro event member
    rcases List.mem_append.mp member with old | new
    · exact kept.sameCommit event old
    · exact Or.inr ⟨answer, List.mem_singleton.mp new⟩
  · intro event isHead
    rw [List.head?_append_of_ne_nil _ nonempty] at isHead
    exact kept.first event isHead
  · refine List.isChain_append.mpr ⟨kept.protocol, List.isChain_singleton _, ?_⟩
    intro last isLast next isNext
    cases isNext
    rw [ambiguous, List.getLast?_concat] at isLast
    cases isLast
    exact ⟨_, rfl, rfl⟩
  · rw [writesIn_snoc]
    exact kept.budget

/-- Both failure arms retry within the budget and give up at its end. -/
theorem pointKept_retryOrReturn (error : BoxError) (open_ : OpenLog log) (ready : ReadyToWrite log)
    (count : writesIn log = attempt + 1) (within : attempt ≤ maxAttempts) :
    PointKept maxAttempts commit log (retryOrReturn maxAttempts attempt error) := by
  unfold retryOrReturn
  split_ifs with spent
  · exact .exhausted open_ ready (by omega)
  · exact ⟨open_, ready, count, by omega⟩

theorem pointKept_afterWrite (open_ : OpenLog log) (count : writesIn log = attempt)
    (within : attempt ≤ maxAttempts) (answer : SinkWriteAnswer) :
    PointKept maxAttempts commit (log ++ [.write commit (some answer)])
      (afterWrite maxAttempts attempt answer) := by
  have counted : writesIn (log ++ [.write commit (some answer)]) = attempt + 1 := by
    rw [writesIn_snoc, count]
    rfl
  cases answer with
  | ok result => exact .committed rfl
  | error failure =>
      cases failure with
      | fatal e => exact .refused rfl
      | maybeCommitted e => exact ⟨⟨log, open_, rfl⟩, counted, within⟩
      | notCommitted e =>
          exact pointKept_retryOrReturn e (open_.snoc rfl rfl) (readyToWrite_snoc rfl rfl) counted
            within

theorem pointKept_afterCheck {front : List (SinkEvent R)} {error : BoxError} (open_ : OpenLog front)
    (ambiguous : log = front ++ [.write commit (some (.error (.maybeCommitted error)))])
    (count : writesIn log = attempt + 1) (within : attempt ≤ maxAttempts)
    (answer : RuntimeResult CommitStatus) :
    PointKept maxAttempts commit (log ++ [.check commit.identity (some answer)])
      (afterCheck maxAttempts attempt error answer) := by
  have counted : writesIn (log ++ [.check commit.identity (some answer)]) = attempt + 1 := by
    rw [writesIn_snoc, count]
    rfl
  have openLog : OpenLog log := by
    rw [ambiguous]
    exact open_.snoc rfl rfl
  cases answer with
  | error e => exact .checkFailed rfl
  | ok status =>
      cases status with
      | committed =>
          have shape : log ++ [.check commit.identity (some (.ok .committed))] = front ++
              [.write commit (some (.error (.maybeCommitted error))),
                .check commit.identity (some (.ok .committed))] := by
            rw [ambiguous, List.append_assoc]
            rfl
          exact .verified shape
      | notCommitted =>
          exact pointKept_retryOrReturn error (openLog.snoc rfl rfl) (readyToWrite_snoc rfl rfl)
            counted within
      | unknown =>
          exact pointKept_retryOrReturn error (openLog.snoc rfl rfl) (readyToWrite_snoc rfl rfl)
            counted within

end Snoc

/-! ## Whole runs -/

section Run

variable {maxAttempts : Nat} {commit : SinkCommit R} {loop : RetryLoop R}

theorem loopEnd_beforeCall {log : List (SinkEvent R)} {message : String} (open_ : OpenLog log)
    (unchecked : ∀ e, log.getLast? = some (.write commit (some (.error (.maybeCommitted e)))) →
      message = "hard abort during check_committed") :
    LoopEnd maxAttempts commit log (aborted message) :=
  .interrupted (List.append_nil log).symm open_ (by simp) unchecked

theorem loopEnd_duringCall {log : List (SinkEvent R)} {event : SinkEvent R} (message : String)
    (open_ : OpenLog log) (unanswered : event.answer = none) :
    LoopEnd maxAttempts commit (log ++ [event]) (aborted message) := by
  refine .interrupted rfl open_ (by simp [unanswered]) fun e isLast => ?_
  rw [List.getLast?_concat] at isLast
  cases isLast
  cases unanswered

theorem kept_step (small : maxAttempts < 2 ^ 32) (kept : loop.Kept maxAttempts commit)
    (script : SinkScript) : (loop.step maxAttempts commit script).Kept maxAttempts commit := by
  obtain ⟨point, log, awaits, writes, checks⟩ := loop
  obtain ⟨logKept, pointKept⟩ := kept
  unfold RetryLoop.step
  cases point with
  | returned result => exact ⟨logKept, pointKept⟩
  | writing attempt =>
      obtain ⟨open_, ready, count, within⟩ := pointKept
      have room : writesIn log ≤ maxAttempts := count.trans_le within
      cases script.abort awaits with
      | no => exact ⟨logKept.write ready room _, pointKept_afterWrite open_ count within _⟩
      | beforeCall =>
          exact ⟨logKept, loopEnd_beforeCall open_ fun e isLast =>
            absurd isLast (ready.not_ambiguous e)⟩
      | duringCall => exact ⟨logKept.write ready room none, loopEnd_duringCall _ open_ rfl⟩
  | checking attempt error =>
      obtain ⟨⟨front, open_, ambiguous⟩, count, within⟩ := pointKept
      dsimp only at ambiguous
      have openLog : OpenLog log := by
        rw [ambiguous]
        exact open_.snoc rfl rfl
      cases script.abort awaits with
      | no =>
          exact ⟨logKept.check ambiguous _, pointKept_afterCheck open_ ambiguous count within _⟩
      | beforeCall => exact ⟨logKept, loopEnd_beforeCall openLog fun _ _ => rfl⟩
      | duringCall => exact ⟨logKept.check ambiguous none, loopEnd_duringCall _ openLog rfl⟩
  | sleeping attempt =>
      obtain ⟨open_, ready, count, within⟩ := pointKept
      have stopped : LoopEnd maxAttempts commit log (aborted "hard abort during retry sleep") :=
        loopEnd_beforeCall open_ fun e isLast => absurd isLast (ready.not_ambiguous e)
      cases script.abort awaits with
      | no =>
          -- the counter stops at `u32::MAX`, which no budget exceeds
          have advanced : nextAttempt attempt = attempt + 1 := by
            unfold nextAttempt
            omega
          refine ⟨logKept, open_, ready, ?_, ?_⟩
          · rw [count, advanced]
          · rw [advanced]
            exact within
      | beforeCall => exact ⟨logKept, stopped⟩
      | duringCall => exact ⟨logKept, stopped⟩

/-- How many awaits the loop can still make. -/
def RetryPoint.remaining (maxAttempts : Nat) : RetryPoint → Nat
  | .writing attempt => 3 * (maxAttempts - attempt) + 3
  | .checking attempt _ => 3 * (maxAttempts - attempt) + 2
  | .sleeping attempt => 3 * (maxAttempts - attempt) + 1
  | .returned _ => 0

theorem remaining_retryOrReturn (attempt : Nat) (error : BoxError) :
    (retryOrReturn maxAttempts attempt error).remaining maxAttempts ≤
      3 * (maxAttempts - attempt) + 1 := by
  unfold retryOrReturn
  split_ifs
  · exact Nat.zero_le _
  · exact Nat.le_refl _

theorem remaining_step (small : maxAttempts < 2 ^ 32) (kept : loop.Kept maxAttempts commit)
    (script : SinkScript) :
    (loop.step maxAttempts commit script).point.remaining maxAttempts ≤
      loop.point.remaining maxAttempts - 1 := by
  obtain ⟨point, log, awaits, writes, checks⟩ := loop
  obtain ⟨_, pointKept⟩ := kept
  unfold RetryLoop.step
  cases point with
  | returned result => exact Nat.zero_le _
  | writing attempt =>
      cases script.abort awaits with
      | beforeCall => exact Nat.zero_le _
      | duringCall => exact Nat.zero_le _
      | no =>
          dsimp only
          cases script.writes writes with
          | ok result => exact Nat.zero_le _
          | error failure =>
              cases failure with
              | fatal e => exact Nat.zero_le _
              | maybeCommitted e => exact Nat.le_refl _
              | notCommitted e =>
                  exact (remaining_retryOrReturn attempt e).trans (Nat.le_succ _)
  | checking attempt error =>
      cases script.abort awaits with
      | beforeCall => exact Nat.zero_le _
      | duringCall => exact Nat.zero_le _
      | no =>
          dsimp only
          cases script.checks checks with
          | error e => exact Nat.zero_le _
          | ok status =>
              cases status with
              | committed => exact Nat.zero_le _
              | notCommitted => exact remaining_retryOrReturn attempt error
              | unknown => exact remaining_retryOrReturn attempt error
  | sleeping attempt =>
      obtain ⟨_, _, _, within⟩ := pointKept
      cases script.abort awaits with
      | beforeCall => exact Nat.zero_le _
      | duringCall => exact Nat.zero_le _
      | no =>
          have advanced : nextAttempt attempt = attempt + 1 := by
            unfold nextAttempt
            omega
          simp only [RetryPoint.remaining, advanced]
          omega

theorem run_returns (small : maxAttempts < 2 ^ 32) (script : SinkScript) (fuel : Nat)
    (kept : loop.Kept maxAttempts commit) (enough : loop.point.remaining maxAttempts ≤ fuel) :
    ∃ result, (loop.run maxAttempts commit script fuel).point = .returned result ∧
      RetryLog maxAttempts commit (loop.run maxAttempts commit script fuel).log ∧
      LoopEnd maxAttempts commit (loop.run maxAttempts commit script fuel).log result := by
  induction fuel generalizing loop with
  | zero =>
      obtain ⟨point, log, awaits, writes, checks⟩ := loop
      cases point with
      | returned result => exact ⟨result, rfl, kept.log, kept.point⟩
      | writing attempt => simp [RetryPoint.remaining] at enough
      | checking attempt error => simp [RetryPoint.remaining] at enough
      | sleeping attempt => simp [RetryPoint.remaining] at enough
  | succ fuel ih =>
      have later := remaining_step small kept script
      exact ih (kept_step small kept script) (by omega)

theorem kept_start : (RetryLoop.start : RetryLoop R).Kept maxAttempts commit where
  log := ⟨by simp [RetryLoop.start], by simp [RetryLoop.start], .nil, Nat.zero_le _⟩
  point := ⟨by simp [OpenLog, RetryLoop.start], by simp [ReadyToWrite, RetryLoop.start], rfl,
    Nat.zero_le _⟩

end Run

/-! ## Results -/

section Results

variable {maxAttempts : Nat} {commit : SinkCommit R} {log : List (SinkEvent R)}
  {result : WriteAttempt}

theorem answers_append (front tail : List (SinkEvent R)) :
    answers (front ++ tail) = answers front ++ answers tail := List.filterMap_append

variable (ended : LoopEnd maxAttempts commit log result)
include ended

end Results

end OpendataIngest.Runtime.Pipeline
