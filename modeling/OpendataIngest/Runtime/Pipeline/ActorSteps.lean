import OpendataIngest.Runtime.Pipeline.Actor

/-!
# What the actor can do

The steps of the actor, one constructor for each way through its loop, with the tests that
lead there.  The two longest pieces of the loop body, the admission of an answer and the
receipt of a report, keep their own definitions.
-/

set_option autoImplicit false

namespace OpendataIngest.Runtime.Pipeline

open MachineInt

variable {R : Type}

section

variable (cfg : Config) (shutdown fetchersGone decodersGone writersGone : Bool) (a : Actor)
  (sh : Shared R)

inductive ActorStep : ActorAction → Actor → Shared R → Prop where
  | aborts (permit : Bool) (error : RuntimeError) (at_select : a.point = .select permit)
      (aborting : sh.hardAbort = true) (busy : a.admissionOpen = true ∨ 0 < a.inFlight)
      (text : error = .pipeline s!"hard abort on source {cfg.source}") :
      ActorStep .abort (exitActor a (sh.cancelAdmission permit) (.error error)).1
        (exitActor a (sh.cancelAdmission permit) (.error error)).2
  | closes (permit : Bool) (at_select : a.point = .select permit) (asked : shutdown = true)
      (isOpen : a.admissionOpen = true) :
      ActorStep .observeShutdown { a with admissionOpen := false, point := .select false }
        { sh.cancelAdmission permit with descriptorClosed := true }
  | receives (permit : Bool) (report : CommittedReport) (rest : List WriteCompletion)
      (at_select : a.point = .select permit) (queue : sh.completions = .committed report :: rest)
      (busy : 0 < a.inFlight) :
      ActorStep .receive
        (receiveCommitted cfg a { sh.cancelAdmission permit with completions := rest } report).1
        (receiveCommitted cfg a { sh.cancelAdmission permit with completions := rest } report).2
  | receivesFatal (permit : Bool) (error : RuntimeError) (rest : List WriteCompletion)
      (at_select : a.point = .select permit) (queue : sh.completions = .fatal error :: rest)
      (busy : 0 < a.inFlight) :
      ActorStep .receive
        (exitActor a { sh.cancelAdmission permit with completions := rest } (.error error)).1
        (exitActor a { sh.cancelAdmission permit with completions := rest } (.error error)).2
  | workersGone (permit : Bool) (error : RuntimeError) (at_select : a.point = .select permit)
      (queue : sh.completions = []) (busy : 0 < a.inFlight)
      (gone : fetchersGone = true ∧ decodersGone = true ∧ writersGone = true)
      (text : error = .pipeline (s!"internal worker exited with {a.inFlight} in-flight " ++
        s!"unit(s) on source {cfg.source}")) :
      ActorStep .receiveClosed (exitActor a (sh.cancelAdmission permit) (.error error)).1
        (exitActor a (sh.cancelAdmission permit) (.error error)).2
  | acquires (at_select : a.point = .select false) (isOpen : a.admissionOpen = true)
      (available : 0 < sh.freePermits) :
      ActorStep .acquirePermit { a with point := .select true }
        { sh with freePermits := sh.freePermits - 1 }
  | claims (gate : Reservation) (k : Counters Stage) (at_select : a.point = .select true)
      (isOpen : a.admissionOpen = true)
      (fits : cfg.estimate = 0 ∨ sh.counters.fitsSaturating cfg.capacity cfg.estimate = true)
      (claimed : (gate, k) = (sh.counters.reserve cfg.estimate).1.attachStage .source
        (sh.counters.reserve cfg.estimate).2) :
      ActorStep .reserveBytes { a with point := .measuring gate } { sh with counters := k }
  | measures (gate : Reservation) (roomUnits : Nat) (at_measuring : a.point = .measuring gate)
      (room : roomUnits =
        saturatingSub cfg.capacity sh.counters.inFlight / max cfg.estimate 1) :
      ActorStep .readRoom { a with point := .counting gate roomUnits } sh
  | counts (gate : Reservation) (roomUnits : Nat)
      (at_counting : a.point = .counting gate roomUnits) :
      ActorStep .readPermits
        { a with point := .extending [gate] (kTarget cfg roomUnits sh.freePermits - 1) } sh
  | enough (gates : List Reservation) (at_extending : a.point = .extending gates 0) :
      ActorStep .tryAcquire { a with point := .polling gates } sh
  | takesPermit (gates : List Reservation) (extras : Nat)
      (at_extending : a.point = .extending gates (extras + 1)) (available : 0 < sh.freePermits) :
      ActorStep .tryAcquire { a with point := .extendingBytes gates extras }
        { sh with freePermits := sh.freePermits - 1 }
  | noPermit (gates : List Reservation) (extras : Nat)
      (at_extending : a.point = .extending gates (extras + 1))
      (unavailable : ¬ 0 < sh.freePermits) :
      ActorStep .tryAcquire { a with point := .polling gates } sh
  | takesBytes (raced : Bool) (gates : List Reservation) (extras : Nat) (extra : Reservation)
      (k : Counters Stage) (at_extending : a.point = .extendingBytes gates extras)
      (unraced : ¬ (raced = true ∧ cfg.estimate ≠ 0))
      (reserved : sh.counters.tryReserve cfg.capacity cfg.estimate = some (extra, k)) :
      ActorStep (.tryReserve raced)
        { a with point := .extending (gates ++ [(extra.attachStage .source k).1]) extras }
        { sh with counters := (extra.attachStage .source k).2 }
  | noBytes (raced : Bool) (gates : List Reservation) (extras : Nat)
      (at_extending : a.point = .extendingBytes gates extras)
      (refused : (raced = true ∧ cfg.estimate ≠ 0) ∨
        sh.counters.tryReserve cfg.capacity cfg.estimate = none) :
      ActorStep (.tryReserve raced) { a with point := .polling gates }
        { sh with freePermits := sh.freePermits + 1 }
  | pollFails (answer : Except BoxError (List BatchDescriptor)) (gates : List Reservation)
      (error : RuntimeError) (at_polling : a.point = .polling gates)
      (failed : a.source.nextDescriptors answer = .error error) :
      ActorStep (.nextDescriptors answer) (exitActor a (sh.dropGates gates) (.error error)).1
        (exitActor a (sh.dropGates gates) (.error error)).2
  | admits (answer : Except BoxError (List BatchDescriptor)) (gates : List Reservation)
      (descriptors : List SourceBatchDescriptor) (at_polling : a.point = .polling gates)
      (answered : a.source.nextDescriptors answer = .ok descriptors)
      (fits : descriptors.length ≤ gates.length) :
      ActorStep (.nextDescriptors answer) (admission a sh gates descriptors).1
        (admission a sh gates descriptors).2
  | wakes (at_sleeping : a.point = .sleeping) :
      ActorStep .wake { a with point := .select false } sh
  | sentAll (at_sending : a.point = .sending []) :
      ActorStep .send { a with point := .select false } sh
  | sendFails (unit : AdmittedDescriptor) (rest : List AdmittedDescriptor) (error : RuntimeError)
      (at_sending : a.point = .sending (unit :: rest))
      (closed : sh.descriptorClosed = true ∨ fetchersGone = true)
      (text : error = .pipeline (s!"descriptor lost: source={cfg.source} " ++
        s!"seq={unit.descriptor.sequence.val} cause=worker-stage-closed")) :
      ActorStep .send
        (exitActor a (sh.dropGates ((unit :: rest).map AdmittedDescriptor.reservation))
          (.error error)).1
        (exitActor a (sh.dropGates ((unit :: rest).map AdmittedDescriptor.reservation))
          (.error error)).2
  | sends (unit : AdmittedDescriptor) (rest : List AdmittedDescriptor)
      (at_sending : a.point = .sending (unit :: rest))
      (isOpen : ¬ (sh.descriptorClosed = true ∨ fetchersGone = true))
      (room : sh.descriptors.length < cfg.depth) :
      ActorStep .send { a with point := .sending rest }
        { sh with descriptors := sh.descriptors ++ [unit] }
  | flushed (sequence frontier : Nat) (at_flushing : a.point = .flushing sequence frontier) :
      ActorStep (.flushed (.ok ()))
        ({ a with groupsSinceFlush := 0, point := .select false }.acked frontier).publish
        (sh.record (.consumerAckReturned sequence (.ok ())))
  | flushFails (sequence : Nat) (error : BoxError)
      (at_flushing : (∃ frontier, a.point = .flushing sequence frontier) ∨
        a.point = .finalFlush sequence) :
      ActorStep (.flushed (.error error))
        { a with
          source := { a.source with pendingDurableAck := some sequence }
          point := .exited (.error (.source error)) }
        (exitActor a (sh.record (.consumerAckReturned sequence (.error error)))
          (.error (.source error))).2
  | flushedLast (sequence : Nat) (at_flushing : a.point = .finalFlush sequence) :
      ActorStep (.flushed (.ok ()))
        (leaveCleanly a (sh.record (.consumerAckReturned sequence (.ok ())))).1
        (leaveCleanly a (sh.record (.consumerAckReturned sequence (.ok ())))).2
  | finishes (permit : Bool) (sequence : Nat) (at_select : a.point = .select permit)
      (closed : a.admissionOpen = false) (drained : a.inFlight = 0) (live : cfg.dryRun = false)
      (pending : a.source.pendingDurableAck = some sequence) :
      ActorStep .finish
        { a with
          source := { a.source with pendingDurableAck := none }
          point := .finalFlush sequence }
        ((sh.cancelAdmission permit).record (.consumerAckCalled sequence))
  | leaves (permit : Bool) (at_select : a.point = .select permit)
      (closed : a.admissionOpen = false) (drained : a.inFlight = 0)
      (settled : cfg.dryRun = false → a.source.pendingDurableAck = none) :
      ActorStep .finish (leaveCleanly a (sh.cancelAdmission permit)).1
        (leaveCleanly a (sh.cancelAdmission permit)).2

end

theorem actorStep_of_stepActor {cfg : Config}
    {shutdown fetchersGone decodersGone writersGone : Bool} {a a' : Actor} {sh sh' : Shared R}
    {action : ActorAction}
    (taken : stepActor cfg shutdown fetchersGone decodersGone writersGone a sh action =
      some (a', sh')) :
    ActorStep cfg shutdown fetchersGone decodersGone writersGone a sh action a' sh' := by
  cases action with
  | abort =>
      simp only [stepActor] at taken
      split at taken
      case h_1 permit at_select =>
        split_ifs at taken with aborting
        cases taken
        exact .aborts permit _ at_select aborting.1 aborting.2 rfl
      case h_2 => cases taken
  | observeShutdown =>
      simp only [stepActor] at taken
      split at taken
      case h_1 permit at_select =>
        split_ifs at taken with asked
        cases taken
        exact .closes permit at_select asked.1 asked.2
      case h_2 => cases taken
  | receive =>
      simp only [stepActor] at taken
      split at taken
      case h_1 permit message rest at_select queue =>
        split_ifs at taken with busy
        cases message with
        | committed report =>
            have received : ActorStep cfg shutdown fetchersGone decodersGone writersGone a sh
                .receive _ _ := .receives permit report rest at_select queue busy
            rw [Option.some.inj taken] at received
            exact received
        | fatal error =>
            cases taken
            exact .receivesFatal permit error rest at_select queue busy
      case h_2 => cases taken
  | receiveClosed =>
      simp only [stepActor] at taken
      split at taken
      case h_1 permit at_select queue =>
        split_ifs at taken with ended
        cases taken
        exact .workersGone permit _ at_select queue ended.1 ended.2 rfl
      case h_2 => cases taken
  | acquirePermit =>
      simp only [stepActor] at taken
      split at taken
      case h_1 at_select =>
        split_ifs at taken with available
        cases taken
        exact .acquires at_select available.1 available.2
      case h_2 => cases taken
  | reserveBytes =>
      simp only [stepActor] at taken
      split at taken
      case h_1 at_select =>
        split_ifs at taken with available
        cases taken
        exact .claims _ _ at_select available.1 available.2 rfl
      case h_2 => cases taken
  | readRoom =>
      simp only [stepActor] at taken
      split at taken
      case h_1 gate at_measuring =>
        cases taken
        exact .measures gate _ at_measuring rfl
      case h_2 => cases taken
  | readPermits =>
      simp only [stepActor] at taken
      split at taken
      case h_1 gate roomUnits at_counting =>
        cases taken
        exact .counts gate roomUnits at_counting
      case h_2 => cases taken
  | tryAcquire =>
      simp only [stepActor] at taken
      split at taken
      case h_1 gates at_extending =>
        cases taken
        exact .enough gates at_extending
      case h_2 gates extras at_extending =>
        split_ifs at taken with available
        · cases taken
          exact .takesPermit gates extras at_extending available
        · cases taken
          exact .noPermit gates extras at_extending available
      case h_3 => cases taken
  | tryReserve raced =>
      simp only [stepActor] at taken
      split at taken
      case h_1 gates extras at_extending =>
        split at taken
        case h_1 extra k attempt =>
          cases taken
          split_ifs at attempt with lost
          exact .takesBytes raced gates extras extra k at_extending lost attempt
        case h_2 attempt =>
          cases taken
          refine .noBytes raced gates extras at_extending ?_
          split_ifs at attempt with lost
          · exact Or.inl lost
          · exact Or.inr attempt
      case h_2 => cases taken
  | nextDescriptors answer =>
      simp only [stepActor] at taken
      split at taken
      case h_1 gates at_polling =>
        split at taken
        case h_1 error failed =>
          cases taken
          exact .pollFails answer gates error at_polling failed
        case h_2 descriptors answered =>
          split_ifs at taken with fits
          have admitted : ActorStep cfg shutdown fetchersGone decodersGone writersGone a sh
              (.nextDescriptors answer) _ _ :=
            .admits answer gates descriptors at_polling answered fits
          rw [Option.some.inj taken] at admitted
          exact admitted
      case h_2 => cases taken
  | wake =>
      simp only [stepActor] at taken
      split at taken
      case h_1 at_sleeping =>
        cases taken
        exact .wakes at_sleeping
      case h_2 => cases taken
  | send =>
      simp only [stepActor] at taken
      split at taken
      case h_1 at_sending =>
        cases taken
        exact .sentAll at_sending
      case h_2 unit rest at_sending =>
        split_ifs at taken with closed room
        · cases taken
          exact .sendFails unit rest _ at_sending closed rfl
        · cases taken
          exact .sends unit rest at_sending closed room
      case h_3 => cases taken
  | flushed answer =>
      simp only [stepActor] at taken
      split at taken
      case h_1 sequence frontier at_flushing =>
        cases answer with
        | ok _ =>
            cases taken
            exact .flushed sequence frontier at_flushing
        | error e =>
            cases taken
            exact .flushFails sequence e (Or.inl ⟨frontier, at_flushing⟩)
      case h_2 sequence at_flushing =>
        cases answer with
        | ok _ =>
            cases taken
            exact .flushedLast sequence at_flushing
        | error e =>
            cases taken
            exact .flushFails sequence e (Or.inr at_flushing)
      case h_3 => cases taken
  | finish =>
      simp only [stepActor] at taken
      split at taken
      case h_1 permit at_select =>
        split_ifs at taken with drained dry
        · cases taken
          refine .leaves permit at_select drained.1 drained.2 fun live => ?_
          rw [dry] at live
          cases live
        · have live : cfg.dryRun = false := by simpa using dry
          cases pending : a.source.pendingDurableAck with
          | some sequence =>
              simp only [BufferSource.flushCall, pending] at taken
              cases taken
              exact .finishes permit sequence at_select drained.1 drained.2 live pending
          | none =>
              have unchanged : { a.source with pendingDurableAck := none } = a.source := by
                rw [← pending]
              simp only [BufferSource.flushCall, pending, unchanged] at taken
              cases taken
              exact .leaves permit at_select drained.1 drained.2 fun _ => pending
      case h_2 => cases taken

theorem ActorStep.taken {cfg : Config} {shutdown fetchersGone decodersGone writersGone : Bool}
    {a a' : Actor} {sh sh' : Shared R} {action : ActorAction}
    (step : ActorStep cfg shutdown fetchersGone decodersGone writersGone a sh action a' sh') :
    stepActor cfg shutdown fetchersGone decodersGone writersGone a sh action =
      some (a', sh') := by
  cases step with
  | aborts permit error at_select aborting busy text =>
      simp only [stepActor, at_select, if_pos (And.intro aborting busy), text]
  | closes permit at_select asked isOpen =>
      simp only [stepActor, at_select, if_pos (And.intro asked isOpen)]
  | receives permit report rest at_select queue busy =>
      simp only [stepActor, at_select, queue, if_pos busy]
  | receivesFatal permit error rest at_select queue busy =>
      simp only [stepActor, at_select, queue, if_pos busy]
  | workersGone permit error at_select queue busy gone text =>
      simp only [stepActor, at_select, queue, if_pos (And.intro busy gone), text]
  | acquires at_select isOpen available =>
      simp only [stepActor, at_select, if_pos (And.intro isOpen available)]
  | claims gate k at_select isOpen fits claimed =>
      obtain ⟨rfl, rfl⟩ := Prod.ext_iff.mp claimed
      simp only [stepActor, at_select, if_pos (And.intro isOpen fits)]
  | measures gate roomUnits at_measuring room => simp only [stepActor, at_measuring, room]
  | counts gate roomUnits at_counting => simp only [stepActor, at_counting]
  | enough gates at_extending => simp only [stepActor, at_extending]
  | takesPermit gates extras at_extending available =>
      simp only [stepActor, at_extending, if_pos available]
  | noPermit gates extras at_extending unavailable =>
      simp only [stepActor, at_extending, if_neg unavailable]
  | takesBytes raced gates extras extra k at_extending unraced reserved =>
      simp only [stepActor, at_extending, if_neg unraced, reserved]
  | noBytes raced gates extras at_extending refused =>
      simp only [stepActor, at_extending]
      rcases refused with lost | full
      · simp only [if_pos lost]
      · simp only [full, ite_self]
  | pollFails answer gates error at_polling failed => simp only [stepActor, at_polling, failed]
  | admits answer gates descriptors at_polling answered fits =>
      simp only [stepActor, at_polling, answered, if_pos fits]
  | wakes at_sleeping => simp only [stepActor, at_sleeping]
  | sentAll at_sending => simp only [stepActor, at_sending]
  | sendFails unit rest error at_sending closed text =>
      simp only [stepActor, at_sending, if_pos closed, text]
  | sends unit rest at_sending isOpen room =>
      simp only [stepActor, at_sending, if_neg isOpen, if_pos room]
  | flushed sequence frontier at_flushing =>
      simp only [stepActor, at_flushing, BufferSource.flushReturn]
  | flushFails sequence error at_flushing =>
      rcases at_flushing with ⟨frontier, at_flushing⟩ | at_flushing
      · simp only [stepActor, at_flushing, BufferSource.flushReturn]
        rfl
      · simp only [stepActor, at_flushing, BufferSource.flushReturn]
        rfl
  | flushedLast sequence at_flushing =>
      simp only [stepActor, at_flushing, BufferSource.flushReturn]
      rfl
  | finishes permit sequence at_select closed drained live pending =>
      simp only [stepActor, at_select, if_pos (And.intro closed drained), live, Bool.false_eq_true,
        if_false, BufferSource.flushCall, pending]
  | leaves permit at_select closed drained settled =>
      simp only [stepActor, at_select, if_pos (And.intro closed drained)]
      cases dry : cfg.dryRun with
      | true => rfl
      | false =>
          have pending := settled dry
          have unchanged : { a.source with pendingDurableAck := none } = a.source := by
            rw [← pending]
          simp only [Bool.false_eq_true, if_false, BufferSource.flushCall, pending, unchanged]
          rfl

/-- The actor takes no step once it has returned. -/
theorem ActorStep.alive {cfg : Config} {shutdown fetchersGone decodersGone writersGone : Bool}
    {a a' : Actor} {sh sh' : Shared R} {action : ActorAction}
    (step : ActorStep cfg shutdown fetchersGone decodersGone writersGone a sh action a' sh') :
    a.point.hasExited = false := by
  cases step with
  | flushFails sequence error at_flushing =>
      rcases at_flushing with ⟨frontier, at_flushing⟩ | at_flushing
      · rw [at_flushing]
        rfl
      · rw [at_flushing]
        rfl
  | _ => simp only [*, ActorPoint.hasExited]

end OpendataIngest.Runtime.Pipeline
