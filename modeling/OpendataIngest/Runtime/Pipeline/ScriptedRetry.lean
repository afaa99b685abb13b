import OpendataIngest.Runtime.Pipeline.WriteWithRetry

/-!
# The retry loop on its script

The calls of a log are answered by the script one after the other: the first write by its
first write, the first check by its first check.  The loop makes an await after the other,
so the log tells at which await the abort token was looked at last; every earlier await had
been let through.
-/

set_option autoImplicit false

namespace OpendataIngest.Runtime.Pipeline

variable {R : Type}

/-! ## The calls of a log -/

def writeEvents (log : List (SinkEvent R)) : List (SinkEvent R) := log.filter SinkEvent.isWrite

def checkEvents (log : List (SinkEvent R)) : List (SinkEvent R) :=
  log.filter fun event => !event.isWrite

theorem length_writeEvents (log : List (SinkEvent R)) : (writeEvents log).length = writesIn log :=
  List.countP_eq_length_filter.symm

theorem writeEvents_write (log : List (SinkEvent R)) (commit : SinkCommit R)
    (answer : Option SinkWriteAnswer) :
    writeEvents (log ++ [.write commit answer]) = writeEvents log ++ [.write commit answer] :=
  List.filter_append ..

theorem writeEvents_check (log : List (SinkEvent R)) (identity : CommitIdentity)
    (answer : Option (RuntimeResult CommitStatus)) :
    writeEvents (log ++ [.check identity answer]) = writeEvents log :=
  (List.filter_append ..).trans (List.append_nil _)

theorem checkEvents_write (log : List (SinkEvent R)) (commit : SinkCommit R)
    (answer : Option SinkWriteAnswer) :
    checkEvents (log ++ [.write commit answer]) = checkEvents log :=
  (List.filter_append ..).trans (List.append_nil _)

theorem checkEvents_check (log : List (SinkEvent R)) (identity : CommitIdentity)
    (answer : Option (RuntimeResult CommitStatus)) :
    checkEvents (log ++ [.check identity answer]) = checkEvents log ++ [.check identity answer] :=
  List.filter_append ..

/-- Every call but the last one was answered, and the answer let the loop go on. -/
theorem mem_dropLast_open {log : List (SinkEvent R)} (protocol : log.IsChain SinkEvent.Allows)
    {event : SinkEvent R} (member : event ∈ log.dropLast) :
    ∃ a, event.answer = some a ∧ a.isOpen = true := by
  induction protocol with
  | nil => simp at member
  | singleton last => simp at member
  | cons_cons allows protocol ih =>
      rw [List.dropLast_cons_cons, List.mem_cons] at member
      rcases member with rfl | later
      · obtain ⟨a, answered, allowed⟩ := allows
        refine ⟨a, answered, ?_⟩
        split_ifs at allowed
        · simp [SinkAnswer.isOpen, allowed]
        · simp [SinkAnswer.isOpen, allowed]
      · exact ih later

theorem mem_dropLast_of_writeEvents {log : List (SinkEvent R)} {event : SinkEvent R}
    (member : event ∈ (writeEvents log).dropLast) : event ∈ log.dropLast := by
  induction log using List.reverseRecOn with
  | nil => simp [writeEvents] at member
  | append_singleton front last ih =>
      rw [List.dropLast_concat]
      cases last with
      | write commit answer =>
          rw [writeEvents_write, List.dropLast_concat] at member
          exact List.mem_of_mem_filter member
      | check identity answer =>
          rw [writeEvents_check] at member
          exact List.mem_of_mem_filter (List.mem_of_mem_dropLast member)

/-- At least all calls but the last one have answers. -/
theorem length_le_answers {log : List (SinkEvent R)} (protocol : log.IsChain SinkEvent.Allows) :
    log.length ≤ (answers log).length + 1 := by
  rcases List.eq_nil_or_concat log with rfl | ⟨front, last, shape⟩
  · exact Nat.zero_le _
  · have answered : ∀ event ∈ front, event.answer.isSome = true := by
      intro event member
      rw [List.concat_eq_append] at shape
      have early : event ∈ log.dropLast := by rwa [shape, List.dropLast_concat]
      obtain ⟨a, isAnswer, _⟩ := mem_dropLast_open protocol early
      rw [isAnswer]
      rfl
    rw [shape, List.concat_eq_append, answers_append, List.length_append, List.length_append,
      answers, List.filterMap_length_eq_length.mpr answered, List.length_singleton]
    omega

theorem countP_of_turns {A : Type} {p : A → Bool} {items : List A}
    (turns : items.IsChain fun before after => p after = !p before) :
    ∀ first ∈ items.head?, items.countP p = (items.length + if p first then 1 else 0) / 2 := by
  induction turns with
  | nil => simp
  | singleton last =>
      rintro _ ⟨⟩
      cases flag : p last with
      | true => simp [flag]
      | false => simp [flag]
  | @cons_cons before after rest turn chain ih =>
      rintro _ ⟨⟩
      have later := ih after rfl
      rw [List.countP_cons, List.length_cons, later]
      cases flag : p before with
      | true =>
          rw [flag] at turn
          simp only [turn, List.length_cons, Bool.not_true, Bool.false_eq_true, if_false, if_true]
          omega
      | false =>
          rw [flag] at turn
          simp only [turn, List.length_cons, Bool.not_false, Bool.false_eq_true, if_false, if_true]
          omega

/-- Where no write fails for certain, writes and checks take turns. -/
theorem turns_of_settled {log : List (SinkEvent R)} (protocol : log.IsChain SinkEvent.Allows)
    (settled : ∀ event ∈ log, ∀ e, event.answer ≠ some (.write (.error (.notCommitted e)))) :
    log.IsChain fun before after => after.isWrite = !before.isWrite := by
  induction protocol with
  | nil => exact .nil
  | singleton last => exact .singleton last
  | @cons_cons before after rest allows protocol ih =>
      refine .cons_cons ?_ (ih fun event member => settled event (List.mem_cons_of_mem _ member))
      obtain ⟨a, answered, allowed⟩ := allows
      have here := settled before List.mem_cons_self
      cases before with
      | check identity answer =>
          -- a check never asks for a check
          obtain ⟨answer, rfl, rfl⟩ := Option.map_eq_some_iff.mp answered
          by_contra isCheck
          rw [if_neg (by simpa [SinkEvent.isWrite] using isCheck)] at allowed
          cases allowed
      | write commit answer =>
          obtain ⟨answer, rfl, rfl⟩ := Option.map_eq_some_iff.mp answered
          by_contra isWrite
          rw [if_pos (by simpa [SinkEvent.isWrite] using isWrite)] at allowed
          cases answer with
          | ok value => cases allowed
          | error failure =>
              cases failure with
              | fatal e => cases allowed
              | maybeCommitted e => cases allowed
              | notCommitted e => exact here e rfl

theorem writesIn_of_settled {log : List (SinkEvent R)} (protocol : log.IsChain SinkEvent.Allows)
    (first : ∀ event ∈ log.head?, event.isWrite = true)
    (settled : ∀ event ∈ log, ∀ e, event.answer ≠ some (.write (.error (.notCommitted e)))) :
    writesIn log = (log.length + 1) / 2 := by
  cases log with
  | nil => simp [writesIn]
  | cons head rest =>
      have counted := countP_of_turns (turns_of_settled protocol settled) head rfl
      rwa [first head rfl, if_pos rfl] at counted

/-! ## The script -/

/-- How many awaits had ended when the last call of the log was made: one for each answered
call, and one backoff before each write but the first. -/
def awaitsOf (log : List (SinkEvent R)) : Nat := (answers log).length + (writesIn log - 1)

section Scripted

variable (commit : SinkCommit R) (script : SinkScript) (log : List (SinkEvent R))

/-- The calls of a log have the answers of the script, one after the other, as long as the
token lets them. -/
structure LogScripted : Prop where
  written : ∀ (k : Nat) (event : SinkEvent R), (writeEvents log)[k]? = some event →
    event = .write commit (some (script.writes k)) ∨ event = .write commit none
  checked : ∀ (k : Nat) (event : SinkEvent R), (checkEvents log)[k]? = some event →
    event = .check commit.identity (some (script.checks k)) ∨ event = .check commit.identity none
  awaited : ∀ n < awaitsOf log, script.abort n = .no
  dropped : (∃ event ∈ log, event.answer = none) → script.abort (awaitsOf log) = .duringCall

/-- A fatal end is a fatal answer, or the token fired at the await after the log. -/
def FatalEnd (result : WriteAttempt) : Prop :=
  (∃ e, (answers log).getLast? = some (.write (.error (.fatal e))) ∧
    result.inner = .error (.sink e)) ∨
  (∃ e, (answers log).getLast? = some (.check (.error e)) ∧ result.inner = .error e) ∨
  (∃ message, result = aborted message) ∧
    ∃ n, (n = awaitsOf log ∨ n = (answers log).length + writesIn log) ∧ script.abort n ≠ .no

/-- The log of a loop that goes on: every call was answered, every await let through. -/
structure RunningLog (awaits writes checks : Nat) : Prop where
  written : writeEvents log =
    (List.range writes).map fun k => .write commit (some (script.writes k))
  checked : checkEvents log =
    (List.range checks).map fun k => .check commit.identity (some (script.checks k))
  answered : ∀ event ∈ log, event.answer ≠ none
  before : ∀ n < awaits, script.abort n = .no

end Scripted

/-- What the log says at each point of the loop. -/
def RetryLoop.Scripted (commit : SinkCommit R) (script : SinkScript) (loop : RetryLoop R) : Prop :=
  match loop.point with
  | .writing _ => RunningLog commit script loop.log loop.awaits loop.writes loop.checks ∧
      loop.awaits = (answers loop.log).length + writesIn loop.log
  | .checking _ _ => RunningLog commit script loop.log loop.awaits loop.writes loop.checks ∧
      loop.awaits = awaitsOf loop.log ∧ 0 < writesIn loop.log
  | .sleeping _ => RunningLog commit script loop.log loop.awaits loop.writes loop.checks ∧
      loop.awaits = awaitsOf loop.log ∧ 0 < writesIn loop.log
  | .returned result => LogScripted commit script loop.log ∧
      (result.outcome = .failedFatal → FatalEnd script loop.log result)

/-! ## One await more -/

section Running

variable {commit : SinkCommit R} {script : SinkScript} {log : List (SinkEvent R)}
  {awaits writes checks : Nat}

theorem length_answers_snoc (log : List (SinkEvent R)) (event : SinkEvent R) :
    (answers (log ++ [event])).length =
      (answers log).length + if event.answer.isSome then 1 else 0 := by
  rw [answers_append, List.length_append]
  cases answered : event.answer with
  | none => simp [answers, answered]
  | some a => simp [answers, answered]

theorem awaitsOf_write (log : List (SinkEvent R)) (commit : SinkCommit R)
    (answer : Option SinkWriteAnswer) : awaitsOf (log ++ [.write commit answer]) =
      (answers log).length + writesIn log + if answer.isSome then 1 else 0 := by
  rw [awaitsOf, length_answers_snoc, writesIn_snoc]
  simp only [SinkEvent.answer, SinkEvent.isWrite, Option.isSome_map, if_true]
  omega

theorem awaitsOf_check (log : List (SinkEvent R)) (identity : CommitIdentity)
    (answer : Option (RuntimeResult CommitStatus)) :
    awaitsOf (log ++ [.check identity answer]) =
      awaitsOf log + if answer.isSome then 1 else 0 := by
  rw [awaitsOf, awaitsOf, length_answers_snoc, writesIn_snoc]
  simp only [SinkEvent.answer, SinkEvent.isWrite, Option.isSome_map, Bool.false_eq_true, if_false]
  omega

theorem lt_succ_awaits (before : ∀ n < awaits, script.abort n = .no)
    (goes : script.abort awaits = .no) : ∀ n < awaits + 1, script.abort n = .no := by
  intro n less
  rcases Nat.lt_succ_iff_lt_or_eq.mp less with earlier | rfl
  · exact before n earlier
  · exact goes

theorem answered_snoc (answered : ∀ event ∈ log, event.answer ≠ none) {event : SinkEvent R}
    (new : event.answer ≠ none) : ∀ other ∈ log ++ [event], other.answer ≠ none := by
  intro other member
  rcases List.mem_append.mp member with old | isNew
  · exact answered other old
  · rw [List.mem_singleton.mp isNew]
    exact new

theorem RunningLog.write (running : RunningLog commit script log awaits writes checks)
    (goes : script.abort awaits = .no) :
    RunningLog commit script (log ++ [.write commit (some (script.writes writes))]) (awaits + 1)
      (writes + 1) checks where
  written := by
    rw [writeEvents_write, running.written, List.range_succ, List.map_append]
    rfl
  checked := by rw [checkEvents_write, running.checked]
  answered := answered_snoc running.answered (by simp [SinkEvent.answer])
  before := lt_succ_awaits running.before goes

theorem RunningLog.check (running : RunningLog commit script log awaits writes checks)
    (goes : script.abort awaits = .no) :
    RunningLog commit script (log ++ [.check commit.identity (some (script.checks checks))])
      (awaits + 1) writes (checks + 1) where
  written := by rw [writeEvents_check, running.written]
  checked := by
    rw [checkEvents_check, running.checked, List.range_succ, List.map_append]
    rfl
  answered := answered_snoc running.answered (by simp [SinkEvent.answer])
  before := lt_succ_awaits running.before goes

theorem RunningLog.written_at (running : RunningLog commit script log awaits writes checks)
    {k : Nat} {event : SinkEvent R} (present : (writeEvents log)[k]? = some event) :
    event = .write commit (some (script.writes k)) := by
  rw [running.written, List.getElem?_map] at present
  obtain ⟨i, isI, rfl⟩ := Option.map_eq_some_iff.mp present
  obtain ⟨inRange, rfl⟩ := List.getElem?_eq_some_iff.mp isI
  rw [List.getElem_range]

theorem RunningLog.checked_at (running : RunningLog commit script log awaits writes checks)
    {k : Nat} {event : SinkEvent R} (present : (checkEvents log)[k]? = some event) :
    event = .check commit.identity (some (script.checks k)) := by
  rw [running.checked, List.getElem?_map] at present
  obtain ⟨i, isI, rfl⟩ := Option.map_eq_some_iff.mp present
  obtain ⟨inRange, rfl⟩ := List.getElem?_eq_some_iff.mp isI
  rw [List.getElem_range]

/-- The loop ends between two calls. -/
theorem RunningLog.ends (running : RunningLog commit script log awaits writes checks)
    (reached : awaitsOf log ≤ awaits) : LogScripted commit script log where
  written _ _ present := Or.inl (running.written_at present)
  checked _ _ present := Or.inl (running.checked_at present)
  awaited n less := running.before n (less.trans_le reached)
  dropped := by
    rintro ⟨event, member, unanswered⟩
    exact absurd unanswered (running.answered event member)

/-- The token drops a write. -/
theorem RunningLog.drops_write (running : RunningLog commit script log awaits writes checks)
    (reached : awaits = (answers log).length + writesIn log)
    (fires : script.abort awaits = .duringCall) :
    LogScripted commit script (log ++ [.write commit none]) := by
  have count : awaitsOf (log ++ [.write commit none]) = awaits := by
    rw [awaitsOf_write, reached]
    rfl
  refine ⟨fun k event present => ?_, fun k event present => ?_, ?_, fun _ => ?_⟩
  · rw [writeEvents_write] at present
    rcases Nat.lt_or_ge k (writeEvents log).length with old | new
    · rw [List.getElem?_append_left old] at present
      exact Or.inl (running.written_at present)
    · rw [List.getElem?_append_right new] at present
      exact Or.inr (List.mem_singleton.mp (List.mem_of_getElem? present))
  · rw [checkEvents_write] at present
    exact Or.inl (running.checked_at present)
  · rw [count]
    exact running.before
  · rw [count]
    exact fires

/-- The token drops a check. -/
theorem RunningLog.drops_check (running : RunningLog commit script log awaits writes checks)
    (reached : awaits = awaitsOf log) (fires : script.abort awaits = .duringCall) :
    LogScripted commit script (log ++ [.check commit.identity none]) := by
  have count : awaitsOf (log ++ [.check commit.identity none]) = awaits := by
    rw [awaitsOf_check, reached]
    rfl
  refine ⟨fun k event present => ?_, fun k event present => ?_, ?_, fun _ => ?_⟩
  · rw [writeEvents_check] at present
    exact Or.inl (running.written_at present)
  · rw [checkEvents_check] at present
    rcases Nat.lt_or_ge k (checkEvents log).length with old | new
    · rw [List.getElem?_append_left old] at present
      exact Or.inl (running.checked_at present)
    · rw [List.getElem?_append_right new] at present
      exact Or.inr (List.mem_singleton.mp (List.mem_of_getElem? present))
  · rw [count]
    exact running.before
  · rw [count]
    exact fires

end Running

/-! ## Whole runs -/

section Run

variable {commit : SinkCommit R} {script : SinkScript} {maxAttempts : Nat} {loop : RetryLoop R}
  {log : List (SinkEvent R)} {awaits writes checks attempt : Nat}

/-- Both failure arms return or go to the backoff. -/
theorem scripted_retryOrReturn (running : RunningLog commit script log awaits writes checks)
    (reached : awaits = awaitsOf log) (called : 0 < writesIn log) (error : BoxError) :
    RetryLoop.Scripted commit script
      ⟨retryOrReturn maxAttempts attempt error, log, awaits, writes, checks⟩ := by
  unfold retryOrReturn
  split_ifs
  · exact ⟨running.ends reached.ge, nofun⟩
  · exact ⟨running, reached, called⟩

theorem scripted_afterWrite (running : RunningLog commit script log awaits writes checks)
    (reached : awaits = (answers log).length + writesIn log) (goes : script.abort awaits = .no) :
    RetryLoop.Scripted commit script
      ⟨afterWrite maxAttempts attempt (script.writes writes),
        log ++ [.write commit (some (script.writes writes))], awaits + 1, writes + 1, checks⟩ := by
  have next := running.write goes
  have count : awaits + 1 = awaitsOf (log ++ [.write commit (some (script.writes writes))]) := by
    rw [awaitsOf_write, reached]
    rfl
  have called : 0 < writesIn (log ++ [.write commit (some (script.writes writes))]) := by
    rw [writesIn_snoc]
    exact Nat.succ_pos _
  have ends := next.ends count.ge
  have last : (answers (log ++ [.write commit (some (script.writes writes))])).getLast? =
      some (.write (script.writes writes)) := by
    rw [answers_append]
    exact List.getLast?_concat
  cases answer : script.writes writes with
  | ok result =>
      rw [answer] at ends
      exact ⟨ends, nofun⟩
  | error failure =>
      rw [answer] at next count called ends last
      cases failure with
      | fatal e => exact ⟨ends, fun _ => Or.inl ⟨e, last, rfl⟩⟩
      | maybeCommitted e => exact ⟨next, count, called⟩
      | notCommitted e => exact scripted_retryOrReturn next count called e

theorem scripted_afterCheck (running : RunningLog commit script log awaits writes checks)
    (reached : awaits = awaitsOf log) (called : 0 < writesIn log)
    (goes : script.abort awaits = .no) (error : BoxError) :
    RetryLoop.Scripted commit script
      ⟨afterCheck maxAttempts attempt error (script.checks checks),
        log ++ [.check commit.identity (some (script.checks checks))], awaits + 1, writes,
        checks + 1⟩ := by
  have next := running.check goes
  have count : awaits + 1 =
      awaitsOf (log ++ [.check commit.identity (some (script.checks checks))]) := by
    rw [awaitsOf_check, reached]
    rfl
  have stillCalled :
      0 < writesIn (log ++ [.check commit.identity (some (script.checks checks))]) := by
    rw [writesIn_snoc]
    exact called
  have ends := next.ends count.ge
  have last : (answers (log ++ [.check commit.identity (some (script.checks checks))])).getLast? =
      some (.check (script.checks checks)) := by
    rw [answers_append]
    exact List.getLast?_concat
  cases answer : script.checks checks with
  | error e =>
      rw [answer] at ends last
      exact ⟨ends, fun _ => Or.inr (Or.inl ⟨e, last, rfl⟩)⟩
  | ok status =>
      rw [answer] at next count stillCalled ends
      cases status with
      | committed => exact ⟨ends, nofun⟩
      | notCommitted => exact scripted_retryOrReturn next count stillCalled error
      | unknown => exact scripted_retryOrReturn next count stillCalled error

/-- The token fired at the await the log stops at. -/
theorem fatalEnd_aborted (message : String)
    (stopped : awaits = awaitsOf log ∨ awaits = (answers log).length + writesIn log)
    (fires : script.abort awaits ≠ .no) : FatalEnd script log (aborted message) :=
  Or.inr (Or.inr ⟨⟨message, rfl⟩, awaits, stopped, fires⟩)

theorem scripted_step (scripted : loop.Scripted commit script) :
    (loop.step maxAttempts commit script).Scripted commit script := by
  obtain ⟨point, log, awaits, writes, checks⟩ := loop
  unfold RetryLoop.step
  cases point with
  | returned result => exact scripted
  | writing attempt =>
      obtain ⟨running, reached⟩ := scripted
      have count : awaitsOf log ≤ awaits := by
        dsimp only at reached
        rw [awaitsOf, reached]
        omega
      cases token : script.abort awaits with
      | no => exact scripted_afterWrite running reached token
      | beforeCall =>
          exact ⟨running.ends count, fun _ =>
            fatalEnd_aborted _ (Or.inr reached) (by simp [token])⟩
      | duringCall =>
          refine ⟨running.drops_write reached token, fun _ => ?_⟩
          exact fatalEnd_aborted _ (Or.inl (reached.trans (awaitsOf_write log commit none).symm))
            (by simp [token])
  | checking attempt error =>
      obtain ⟨running, reached, called⟩ := scripted
      cases token : script.abort awaits with
      | no => exact scripted_afterCheck running reached called token error
      | beforeCall =>
          exact ⟨running.ends reached.ge, fun _ =>
            fatalEnd_aborted _ (Or.inl reached) (by simp [token])⟩
      | duringCall =>
          refine ⟨running.drops_check reached token, fun _ => ?_⟩
          exact fatalEnd_aborted _
            (Or.inl (reached.trans (awaitsOf_check log commit.identity none).symm))
            (by simp [token])
  | sleeping attempt =>
      obtain ⟨running, reached, called⟩ := scripted
      have stops : script.abort awaits ≠ .no → RetryLoop.Scripted commit script
          ⟨.returned (aborted "hard abort during retry sleep"), log, awaits, writes, checks⟩ :=
        fun fires => ⟨running.ends reached.ge, fun _ => fatalEnd_aborted _ (Or.inl reached) fires⟩
      cases token : script.abort awaits with
      | no =>
          refine ⟨⟨running.written, running.checked, running.answered,
            lt_succ_awaits running.before token⟩, ?_⟩
          have slept : awaits + 1 = awaitsOf log + 1 := congrArg (· + 1) reached
          rw [slept, awaitsOf]
          dsimp only at called ⊢
          omega
      | beforeCall => exact stops (by simp [token])
      | duringCall => exact stops (by simp [token])

theorem scripted_run (fuel : Nat) (scripted : loop.Scripted commit script) :
    (loop.run maxAttempts commit script fuel).Scripted commit script := by
  induction fuel generalizing loop with
  | zero => exact scripted
  | succ fuel ih => exact ih (scripted_step scripted)

theorem scripted_start : (RetryLoop.start : RetryLoop R).Scripted commit script :=
  ⟨⟨rfl, rfl, nofun, nofun⟩, rfl⟩

/-- What a call of `write_with_retry` leaves behind. -/
theorem writeWithRetry_ends (options : RuntimeOptions) (commit : SinkCommit R)
    (script : SinkScript) :
    ∃ log result, writeWithRetry options commit script = some (log, result) ∧
      RetryLog options.effectiveRetryMaxAttempts.val commit log ∧
      LoopEnd options.effectiveRetryMaxAttempts.val commit log result ∧
      LogScripted commit script log ∧
      (result.outcome = .failedFatal → FatalEnd script log result) := by
  have enough : (RetryLoop.start : RetryLoop R).point.remaining
      options.effectiveRetryMaxAttempts.val ≤ 3 * (options.effectiveRetryMaxAttempts.val + 1) := by
    simp only [RetryLoop.start, RetryPoint.remaining]
    omega
  obtain ⟨result, returned, kept, ended⟩ := run_returns options.effectiveRetryMaxAttempts.isLt
    script _ kept_start enough
  have scripted : (RetryLoop.start.run options.effectiveRetryMaxAttempts.val commit script
      (3 * (options.effectiveRetryMaxAttempts.val + 1))).Scripted commit script :=
    scripted_run _ scripted_start
  unfold RetryLoop.Scripted at scripted
  rw [returned] at scripted
  refine ⟨_, result, ?_, kept, ended, scripted⟩
  unfold writeWithRetry
  simp only [returned]

end Run

/-! ## Writes and checks in turn -/

section Turns

variable {commit : SinkCommit R} {script : SinkScript} {maxAttempts : Nat}
  {log : List (SinkEvent R)}

/-- A sink that never fails for certain leaves no such answer in the log. -/
theorem LogScripted.settled (scripted : LogScripted commit script log)
    (never : ∀ k e, script.writes k ≠ .error (.notCommitted e)) :
    ∀ event ∈ log, ∀ e, event.answer ≠ some (.write (.error (.notCommitted e))) := by
  intro event member e answered
  cases event with
  | check identity answer =>
      obtain ⟨_, _, isCheck⟩ := Option.map_eq_some_iff.mp answered
      cases isCheck
  | write commit answer =>
      obtain ⟨k, present⟩ := List.mem_iff_getElem?.mp (List.mem_filter.mpr ⟨member, rfl⟩ :
        SinkEvent.write commit answer ∈ writeEvents log)
      rcases scripted.written k _ present with isWrite | isWrite
      · cases isWrite
        exact never k e (by simpa [SinkEvent.answer] using answered)
      · cases isWrite
        cases answered

theorem LogScripted.check_answer (scripted : LogScripted commit script log)
    {identity : CommitIdentity} {answer : RuntimeResult CommitStatus}
    (member : SinkEvent.check identity (some answer) ∈ log) : ∃ k, answer = script.checks k := by
  obtain ⟨k, present⟩ := List.mem_iff_getElem?.mp (List.mem_filter.mpr ⟨member, rfl⟩ :
    SinkEvent.check identity (some answer) ∈ checkEvents log)
  rcases scripted.checked k _ present with isCheck | isCheck
  · cases isCheck
    exact ⟨k, rfl⟩
  · cases isCheck

theorem length_answers_of_last (protocol : log.IsChain SinkEvent.Allows)
    (last : ∀ event ∈ log.getLast?, event.answer ≠ none) :
    (answers log).length = log.length := by
  refine List.filterMap_length_eq_length.mpr fun event member => ?_
  rcases List.eq_nil_or_concat log with rfl | ⟨front, final, shape⟩
  · cases member
  · rw [List.concat_eq_append] at shape
    subst shape
    rcases List.mem_append.mp member with early | isFinal
    · obtain ⟨a, answered, _⟩ := mem_dropLast_open protocol (by rwa [List.dropLast_concat])
      rw [answered]
      rfl
    · rw [List.mem_singleton.mp isFinal]
      exact Option.isSome_iff_ne_none.mpr (last final (by rw [List.getLast?_concat]; rfl))

variable (kept : RetryLog maxAttempts commit log)
  (settled : ∀ event ∈ log, ∀ e, event.answer ≠ some (.write (.error (.notCommitted e))))
include kept settled

/-- Each write of the log but the last had its check and its backoff. -/
theorem RetryLog.awaits_bounds : 3 * (writesIn log - 1) ≤ awaitsOf log ∧
    (answers log).length + writesIn log ≤ 3 * writesIn log := by
  have turns := writesIn_of_settled kept.protocol kept.first settled
  have most := length_le_answers kept.protocol
  have least : (answers log).length ≤ log.length := List.length_filterMap_le _ _
  rw [awaitsOf]
  omega

theorem RetryLog.awaits_answered (last : ∀ event ∈ log.getLast?, event.answer ≠ none) :
    3 * writesIn log - 2 ≤ awaitsOf log := by
  have turns := writesIn_of_settled kept.protocol kept.first settled
  have answered := length_answers_of_last kept.protocol last
  rw [awaitsOf]
  omega

/-- A write without an answer is the last call, at its own await. -/
theorem RetryLog.awaits_dropped {k : Nat} {commit' : SinkCommit R}
    (present : (writeEvents log)[k]? = some (.write commit' none)) :
    k + 1 = writesIn log ∧ awaitsOf log = 3 * k := by
  have member : SinkEvent.write commit' none ∈ log :=
    List.mem_of_mem_filter (List.mem_of_getElem? present)
  rcases List.eq_nil_or_concat log with rfl | ⟨front, last, shape⟩
  · cases member
  rw [List.concat_eq_append] at shape
  subst shape
  have early : ∀ event ∈ front, event.answer ≠ none := by
    intro event inFront unanswered
    obtain ⟨a, answered, _⟩ := mem_dropLast_open kept.protocol
      (by rwa [List.dropLast_concat] : event ∈ (front ++ [last]).dropLast)
    rw [unanswered] at answered
    cases answered
  have isLast : last = .write commit' none := by
    rcases List.mem_append.mp member with inFront | isLast
    · exact absurd rfl (early _ inFront)
    · exact (List.mem_singleton.mp isLast).symm
  subst isLast
  have atEnd : k = (writeEvents front).length := by
    rw [writeEvents_write] at present
    rcases Nat.lt_or_ge k (writeEvents front).length with less | outside
    · rw [List.getElem?_append_left less] at present
      exact absurd rfl (early _ (List.mem_of_mem_filter (List.mem_of_getElem? present)))
    · have inRange := (List.getElem?_eq_some_iff.mp present).1
      rw [List.length_append, List.length_singleton] at inRange
      omega
  have turns := writesIn_of_settled kept.protocol kept.first settled
  have frontTurns : writesIn front = (front.length + 1) / 2 := by
    refine writesIn_of_settled (List.isChain_append.mp kept.protocol).1 (fun event isHead => ?_)
      fun event inFront => settled event (List.mem_append_left _ inFront)
    refine kept.first event ?_
    rw [List.head?_append]
    simp [Option.mem_def.mp isHead]
  have answered : (answers front).length = front.length :=
    List.filterMap_length_eq_length.mpr fun event inFront =>
      Option.isSome_iff_ne_none.mpr (early event inFront)
  rw [length_writeEvents] at atEnd
  rw [writesIn_snoc, List.length_append, List.length_singleton] at turns
  simp only [SinkEvent.isWrite, if_true] at turns
  rw [atEnd]
  refine ⟨(writesIn_snoc front (.write commit' none)).symm, ?_⟩
  rw [awaitsOf_write, answered, Option.isSome_none, if_neg Bool.false_ne_true]
  omega

end Turns

/-! ## The protocol -/

end OpendataIngest.Runtime.Pipeline
