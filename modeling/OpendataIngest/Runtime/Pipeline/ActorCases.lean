import OpendataIngest.Runtime.Pipeline.Accounts

/-!
# What the actor does to its books

The actor's books are the coordinator, its `in_flight` counter, the source's ack state,
`last_ack_sent` and the flush counter.  Five kinds of steps touch them or the history; every
other step leaves them alone, also the ones that end the actor with an error.
-/

set_option autoImplicit false

namespace OpendataIngest.Runtime.Pipeline

open MachineInt Pool

variable {R : Type}

/-- The books and the history are as before. -/
structure SameBooks (a a' : Actor) (sh sh' : Shared R) : Prop where
  coordinator : a'.coordinator = a.coordinator
  inFlight : a'.inFlight = a.inFlight
  source : a'.source = a.source
  lastAckSent : a'.lastAckSent = a.lastAckSent
  groupsSinceFlush : a'.groupsSinceFlush = a.groupsSinceFlush
  history : sh'.history = sh.history

/-- Where a step that leaves the books alone can lead. -/
def ActorPoint.Plain : ActorPoint → Prop
  | .flushing _ _ => False
  | .finalFlush _ => False
  | .exited result => ∃ error, result = .error error
  | _ => True

inductive ActorCase (cfg : Config) (a : Actor) (sh : Shared R) (action : ActorAction) :
    Actor → Shared R → Prop where
  | quiet {a' : Actor} {sh' : Shared R} (same : SameBooks a a' sh sh') (before : a.point.Plain)
      (running : a.point.hasExited = false) (after : a'.point.Plain) :
      ActorCase cfg a sh action a' sh'
  | admits (gates : List Reservation) (descriptors : List SourceBatchDescriptor)
      (polling : a.point = .polling gates) (fits : descriptors.length ≤ gates.length) :
      ActorCase cfg a sh action (admission a sh gates descriptors).1
        (admission a sh gates descriptors).2
  | receives (permit : Bool) (report : CommittedReport) (rest : List WriteCompletion)
      (sh₁ : Shared R) (select : a.point = .select permit) (busy : 0 < a.inFlight)
      (queue : sh.completions = .committed report :: rest)
      (popped : sh₁ = { sh.cancelAdmission permit with completions := rest })
      (received : action = .receive) :
      ActorCase cfg a sh action (receiveCommitted cfg a sh₁ report).1
        (receiveCommitted cfg a sh₁ report).2
  | flushed (sequence frontier : Nat) (flushing : a.point = .flushing sequence frontier) :
      ActorCase cfg a sh action
        ({ a with groupsSinceFlush := 0, point := .select false }.acked frontier).publish
        (sh.record (.consumerAckReturned sequence (.ok ())))
  | flushFailed (sequence : Nat) (error : BoxError)
      (flushing : (∃ frontier, a.point = .flushing sequence frontier) ∨
        a.point = .finalFlush sequence) :
      ActorCase cfg a sh action
        { a with
          source := { a.source with pendingDurableAck := some sequence }
          point := .exited (.error (.source error)) }
        (exitActor a (sh.record (.consumerAckReturned sequence (.error error)))
          (.error (.source error))).2
  | flushedLast (sequence : Nat) (flushing : a.point = .finalFlush sequence) :
      ActorCase cfg a sh action
        (leaveCleanly a (sh.record (.consumerAckReturned sequence (.ok ())))).1
        (leaveCleanly a (sh.record (.consumerAckReturned sequence (.ok ())))).2
  | finishes (permit : Bool) (sequence : Nat) (select : a.point = .select permit)
      (closed : a.admissionOpen = false) (drained : a.inFlight = 0) (live : cfg.dryRun = false)
      (pending : a.source.pendingDurableAck = some sequence) :
      ActorCase cfg a sh action
        { a with
          source := { a.source with pendingDurableAck := none }
          point := .finalFlush sequence }
        ((sh.cancelAdmission permit).record (.consumerAckCalled sequence))
  | leaves (permit : Bool) (select : a.point = .select permit) (closed : a.admissionOpen = false)
      (drained : a.inFlight = 0)
      (settled : cfg.dryRun = false → a.source.pendingDurableAck = none) :
      ActorCase cfg a sh action (leaveCleanly a (sh.cancelAdmission permit)).1
        (leaveCleanly a (sh.cancelAdmission permit)).2

/-- `quiet`, for a point that is known. -/
theorem ActorCase.still {cfg : Config} {a a' : Actor} {sh sh' : Shared R}
    {action : ActorAction} {point : ActorPoint} (at_point : a.point = point)
    (before : point.Plain) (running : point.hasExited = false) (same : SameBooks a a' sh sh')
    (after : a'.point.Plain) : ActorCase cfg a sh action a' sh' := by
  rw [← at_point] at before running
  exact .quiet same before running after

theorem stepActor_cases {cfg : Config} {shutdown fetchersGone decodersGone writersGone : Bool}
    {a a' : Actor} {sh sh' : Shared R} {action : ActorAction}
    (taken : stepActor cfg shutdown fetchersGone decodersGone writersGone a sh action =
      some (a', sh')) : ActorCase cfg a sh action a' sh' := by
  cases actorStep_of_stepActor taken with
  | aborts permit error at_select | workersGone permit error at_select
  | receivesFatal permit error rest at_select =>
      rw [cancelAdmission_eq]
      exact .still at_select trivial rfl ⟨rfl, rfl, rfl, rfl, rfl, rfl⟩ ⟨_, rfl⟩
  | closes permit at_select =>
      rw [cancelAdmission_eq]
      exact .still at_select trivial rfl ⟨rfl, rfl, rfl, rfl, rfl, rfl⟩ trivial
  | receives permit report rest at_select queue busy =>
      exact .receives permit report rest _ at_select busy queue rfl rfl
  | pollFails answer gates error at_polling =>
      rw [dropGates_eq]
      exact .still at_polling trivial rfl ⟨rfl, rfl, rfl, rfl, rfl, rfl⟩ ⟨_, rfl⟩
  | admits answer gates descriptors at_polling answered fits =>
      exact .admits gates descriptors at_polling fits
  | sendFails unit rest error at_sending =>
      rw [dropGates_eq]
      exact .still at_sending trivial rfl ⟨rfl, rfl, rfl, rfl, rfl, rfl⟩ ⟨_, rfl⟩
  | acquires at_point | claims gate k at_point | measures gate roomUnits at_point
  | counts gate roomUnits at_point | enough gates at_point | takesPermit gates extras at_point
  | noPermit gates extras at_point | takesBytes raced gates extras extra k at_point
  | noBytes raced gates extras at_point | wakes at_point | sentAll at_point
  | sends unit rest at_point =>
      exact .still at_point trivial rfl ⟨rfl, rfl, rfl, rfl, rfl, rfl⟩ trivial
  | flushed sequence frontier at_flushing => exact .flushed sequence frontier at_flushing
  | flushFails sequence error at_flushing => exact .flushFailed sequence error at_flushing
  | flushedLast sequence at_flushing => exact .flushedLast sequence at_flushing
  | finishes permit sequence at_select closed drained live pending =>
      exact .finishes permit sequence at_select closed drained live pending
  | leaves permit at_select closed drained settled =>
      exact .leaves permit at_select closed drained settled

/-! ## The other components -/

/-- A step is the actor's, or leaves the actor alone and records only what the sink was
asked and answered. -/
inductive StepCase (cfg : Config) (s : State R) (action : Action R) (s' : State R) : Prop where
  | actor {actorAction : ActorAction}
      (shape : ActorCase cfg s.actor s.shared actorAction s'.actor s'.shared)
      (isActor : action = .actor actorAction)
  | other (sameActor : s'.actor = s.actor) (events : List Event)
      (history : s'.shared.history = events ++ s.shared.history)
      (fromSink : ∀ event ∈ events, event.fromSink = true)

theorem step_cases [TypedRecords R] {cfg : Config} {s s' : State R} {action : Action R}
    (accounts : Accounts cfg s) (taken : step cfg s action = some s') :
    StepCase cfg s action s' := by
  cases transition_of_step taken with
  | actor moved => exact .actor (stepActor_cases moved) rfl
  | fetch present moved =>
      obtain ⟨old, new, move⟩ := stepFetch_move (all_fetcher accounts.sound present) moved
      obtain ⟨events, extended, fromSink⟩ := move.frame.history
      exact .other rfl events extended fromSink
  | decode present moved =>
      obtain ⟨old, new, move⟩ := stepDecode_move (all_decoder accounts.sound present) moved
      obtain ⟨events, extended, fromSink⟩ := move.frame.history
      exact .other rfl events extended fromSink
  | writer present moved =>
      obtain ⟨old, new, move⟩ := stepWriter_move (all_writer accounts.sound present) moved
      obtain ⟨events, extended, fromSink⟩ := move.frame.history
      exact .other rfl events extended fromSink
  | _ => exact .other rfl [] rfl nofun

end OpendataIngest.Runtime.Pipeline
