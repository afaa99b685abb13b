import OpendataIngest.Runtime.Pipeline.Workers

/-!
# The per-source actor

`per_source_actor` with `admission_attempt`.  Any enabled arm of the `select!` may
fire, which covers the biased order.  The admission arm is cut at every point where
another task can change what it reads next: the room left in the budget, the free
permits, each extension attempt, and the buffer's answer.
-/

set_option autoImplicit false

namespace OpendataIngest.Runtime.Pipeline

open MachineInt

variable {R : Type}

inductive ActorAction where
  | abort
  | observeShutdown
  | receive
  | receiveClosed
  | acquirePermit
  | reserveBytes
  | readRoom
  | readPermits
  | tryAcquire
  | tryReserve (raced : Bool)
  | nextDescriptors (answer : Except BoxError (List BatchDescriptor))
  | wake
  | send
  | flushed (answer : Except BoxError Unit)
  | finish

/-! ## Pieces of the loop body -/

/-- Leaving `select!` through another arm drops the pending `admission_attempt`. -/
def Shared.cancelAdmission (sh : Shared R) (permit : Bool) : Shared R :=
  if permit then { sh with freePermits := sh.freePermits + 1 } else sh

def Shared.dropGates (sh : Shared R) (gates : List Reservation) : Shared R :=
  gates.foldl Shared.dropUnit sh

/-- Returning drops the descriptor sender and the completion receiver. -/
def exitActor (a : Actor) (sh : Shared R) (result : RuntimeResult Unit) : Actor × Shared R :=
  ({ a with point := .exited result },
    { sh with descriptorClosed := true, completionClosed := true, completions := [] })

def kTarget (cfg : Config) (roomUnits available : Nat) : Nat :=
  min (min (max cfg.options.maxDescriptorsPerPoll.val 1) (saturatingAdd 1 available))
    (saturatingAdd 1 roomUnits)

/-- The register-all pass: the coordinator it leaves, the sequences it registered, and
its result. -/
def registerAll (c : AckCoordinator) :
    List SourceBatchDescriptor → AckCoordinator × List Nat × RuntimeResult Unit
  | [] => (c, [], .ok ())
  | d :: rest =>
      match c.registerPending d.sequence.val d.sequence.val with
      | (c', .error e) => (c', [], .error e)
      | (c', .ok _) =>
          let tail := registerAll c' rest
          (tail.1, d.sequence.val :: tail.2.1, tail.2.2)

def Shared.recordRegistered (sh : Shared R) (sequences : List Nat) : Shared R :=
  sequences.foldl (fun sh sequence => sh.record (.registered sequence)) sh

/-- The admission arm from the buffer's answer to its send-all pass. -/
def admission (a : Actor) (sh : Shared R) (gates : List Reservation)
    (descriptors : List SourceBatchDescriptor) : Actor × Shared R :=
  let sh := sh.record (.handedOut (descriptors.map fun d => d.sequence.val))
  match descriptors with
  | [] => ({ a with point := .sleeping }, sh.dropGates gates)
  | _ :: _ =>
      let kept := gates.take descriptors.length
      let sh := sh.dropGates (gates.drop descriptors.length)
      let registered := registerAll a.coordinator descriptors
      let sh := sh.recordRegistered registered.2.1
      let a := { a with
        coordinator := registered.1
        inFlight := a.inFlight + registered.2.1.length }
      match registered.2.2 with
      | .error e => exitActor a (sh.dropGates kept) (.error e)
      | .ok _ => ({ a with point := .sending (descriptors.zipWith AdmittedDescriptor.mk kept) }, sh)

def shouldAck (lastAckSent : Option Nat) (frontier : Nat) : Bool :=
  match lastAckSent with
  | some previous => decide (frontier > previous)
  | none => true

/-- `groups_since_flush.saturating_add(1)` on a `u32`. -/
def nextGroups (groups : Nat) : Nat := min (groups + 1) (2 ^ 32 - 1)

def shouldFlush (policy : AckFlushPolicy) (groups : Nat) : Bool :=
  match policy with
  | .everyCommitGroup => true
  | .everyN n => decide (groups ≥ max n.val 1)

def Actor.countCompletion (a : Actor) (report : CommittedReport) : Actor :=
  { a with progress := { a.progress with
      batchesRead := saturatingAdd a.progress.batchesRead 1
      lastDecodedSequence := some report.range.2.val
      recordsWritten := saturatingAdd a.progress.recordsWritten report.rowsWritten
      sourceRangesCommitted := saturatingAdd a.progress.sourceRangesCommitted 1 } }

/-- The end of the completion arm. -/
def Actor.publish (a : Actor) : Actor :=
  let progress := { a.progress with pendingRangesTotal := a.coordinator.pendingCount }
  { a with progress := progress, published := progress }

def Actor.acked (a : Actor) (frontier : Nat) : Actor :=
  { a with progress := { a.progress with lastAckedSequence := some frontier } }

/-- The ack block of the completion arm, for a frontier above `last_ack_sent`. -/
def ackFrontier (cfg : Config) (a : Actor) (sh : Shared R) (frontier : Nat) :
    Actor × Shared R :=
  let sh := sh.record (.ackThrough frontier)
  let a := { a with
    source := a.source.ackThrough frontier
    lastAckSent := some frontier
    groupsSinceFlush := nextGroups a.groupsSinceFlush }
  if shouldFlush cfg.options.ackFlushPolicy a.groupsSinceFlush then
    match a.source.flushCall with
    | (source, some sequence) =>
        ({ a with source := source, point := .flushing sequence frontier },
          sh.record (.consumerAckCalled sequence))
    | (source, none) =>
        (({ a with source := source, groupsSinceFlush := 0, point := .select false }.acked
          frontier).publish, sh)
  else (({ a with point := .select false }.acked frontier).publish, sh)

/-- The completion arm once the coordinator has advanced. -/
def acknowledge (cfg : Config) (a : Actor) (sh : Shared R) : Actor × Shared R :=
  match if cfg.dryRun then none else a.coordinator.frontier with
  | none => ({ a with point := .select false }.publish, sh)
  | some frontier =>
      if shouldAck a.lastAckSent frontier then ackFrontier cfg a sh frontier
      else ({ a with point := .select false }.publish, sh)

/-- The completion arm on a `Committed` report. -/
def receiveCommitted (cfg : Config) (a : Actor) (sh : Shared R) (report : CommittedReport) :
    Actor × Shared R :=
  let low := report.range.1.val
  let high := report.range.2.val
  let sh := sh.record (.completionReceived low high)
  match a.coordinator.markCommitted low high with
  | (c, .error e) => exitActor { a with coordinator := c } sh (.error e)
  | (c, .ok _) =>
      let a := { a with coordinator := c.advanceFrontier, inFlight := a.inFlight - 1 }
      acknowledge cfg (a.countCompletion report) (sh.record (.markedCommitted low high))

/-- The code after the loop, once the last flush has returned. -/
def leaveCleanly (a : Actor) (sh : Shared R) : Actor × Shared R :=
  exitActor a.publish sh (.ok ())

/-! ## Steps -/

def stepActor (cfg : Config) (shutdown fetchersGone decodersGone writersGone : Bool)
    (a : Actor) (sh : Shared R) : ActorAction → Option (Actor × Shared R)
  | .abort =>
      match a.point with
      | .select permit =>
          if sh.hardAbort ∧ (a.admissionOpen ∨ 0 < a.inFlight) then
            some (exitActor a (sh.cancelAdmission permit)
              (.error (.pipeline s!"hard abort on source {cfg.source}")))
          else none
      | _ => none
  | .observeShutdown =>
      match a.point with
      | .select permit =>
          if shutdown ∧ a.admissionOpen then
            some ({ a with admissionOpen := false, point := .select false },
              { sh.cancelAdmission permit with descriptorClosed := true })
          else none
      | _ => none
  | .receive =>
      match a.point, sh.completions with
      | .select permit, message :: rest =>
          if 0 < a.inFlight then
            let sh := { sh.cancelAdmission permit with completions := rest }
            match message with
            | .committed report => some (receiveCommitted cfg a sh report)
            | .fatal e => some (exitActor a sh (.error e))
          else none
      | _, _ => none
  | .receiveClosed =>
      match a.point, sh.completions with
      | .select permit, [] =>
          if 0 < a.inFlight ∧ fetchersGone ∧ decodersGone ∧ writersGone then
            some (exitActor a (sh.cancelAdmission permit)
              (.error (.pipeline (s!"internal worker exited with {a.inFlight} in-flight " ++
                s!"unit(s) on source {cfg.source}"))))
          else none
      | _, _ => none
  | .acquirePermit =>
      match a.point with
      | .select false =>
          if a.admissionOpen ∧ 0 < sh.freePermits then
            some ({ a with point := .select true },
              { sh with freePermits := sh.freePermits - 1 })
          else none
      | _ => none
  | .reserveBytes =>
      match a.point with
      | .select true =>
          if a.admissionOpen ∧
              (cfg.estimate = 0 ∨ sh.counters.fitsSaturating cfg.capacity cfg.estimate) then
            let claimed := sh.counters.reserve cfg.estimate
            let attached := claimed.1.attachStage .source claimed.2
            some ({ a with point := .measuring attached.1 }, { sh with counters := attached.2 })
          else none
      | _ => none
  | .readRoom =>
      match a.point with
      | .measuring gate =>
          let estimated := max cfg.estimate 1
          let roomBytes := saturatingSub cfg.capacity sh.counters.inFlight
          some ({ a with point := .counting gate (roomBytes / estimated) }, sh)
      | _ => none
  | .readPermits =>
      match a.point with
      | .counting gate roomUnits =>
          let extras := kTarget cfg roomUnits sh.freePermits - 1
          some ({ a with point := .extending [gate] extras }, sh)
      | _ => none
  | .tryAcquire =>
      match a.point with
      | .extending gates 0 => some ({ a with point := .polling gates }, sh)
      | .extending gates (extras + 1) =>
          if 0 < sh.freePermits then
            some ({ a with point := .extendingBytes gates extras },
              { sh with freePermits := sh.freePermits - 1 })
          else some ({ a with point := .polling gates }, sh)
      | _ => none
  | .tryReserve raced =>
      match a.point with
      | .extendingBytes gates extras =>
          -- a lost compare-exchange is only possible for a non-empty reservation
          let attempt := if raced ∧ cfg.estimate ≠ 0 then none
            else sh.counters.tryReserve cfg.capacity cfg.estimate
          match attempt with
          | some (extra, k) =>
              let attached := extra.attachStage .source k
              some ({ a with point := .extending (gates ++ [attached.1]) extras },
                { sh with counters := attached.2 })
          | none =>
              some ({ a with point := .polling gates },
                { sh with freePermits := sh.freePermits + 1 })
      | _ => none
  | .nextDescriptors answer =>
      match a.point with
      | .polling gates =>
          match a.source.nextDescriptors answer with
          | .error e => some (exitActor a (sh.dropGates gates) (.error e))
          | .ok descriptors =>
              if descriptors.length ≤ gates.length then some (admission a sh gates descriptors)
              else none
      | _ => none
  | .wake =>
      match a.point with
      | .sleeping => some ({ a with point := .select false }, sh)
      | _ => none
  | .send =>
      match a.point with
      | .sending [] => some ({ a with point := .select false }, sh)
      | .sending (unit :: rest) =>
          if sh.descriptorClosed ∨ fetchersGone then
            some (exitActor a (sh.dropGates ((unit :: rest).map AdmittedDescriptor.reservation))
              (.error (.pipeline (s!"descriptor lost: source={cfg.source} " ++
                s!"seq={unit.descriptor.sequence.val} cause=worker-stage-closed"))))
          else if sh.descriptors.length < cfg.depth then
            some ({ a with point := .sending rest },
              { sh with descriptors := sh.descriptors ++ [unit] })
          else none
      | _ => none
  | .flushed answer =>
      match a.point with
      | .flushing sequence frontier =>
          let sh := sh.record (.consumerAckReturned sequence answer)
          match a.source.flushReturn sequence answer with
          | (source, .ok _) =>
              some (({ a with
                source := source, groupsSinceFlush := 0, point := .select false }.acked
                  frontier).publish, sh)
          | (source, .error e) => some (exitActor { a with source := source } sh (.error e))
      | .finalFlush sequence =>
          let sh := sh.record (.consumerAckReturned sequence answer)
          match a.source.flushReturn sequence answer with
          | (source, .ok _) => some (leaveCleanly { a with source := source } sh)
          | (source, .error e) => some (exitActor { a with source := source } sh (.error e))
      | _ => none
  | .finish =>
      match a.point with
      | .select permit =>
          if a.admissionOpen = false ∧ a.inFlight = 0 then
            let sh := sh.cancelAdmission permit
            if cfg.dryRun then some (leaveCleanly a sh)
            else match a.source.flushCall with
              | (source, some sequence) =>
                  some ({ a with source := source, point := .finalFlush sequence },
                    sh.record (.consumerAckCalled sequence))
              | (source, none) => some (leaveCleanly { a with source := source } sh)
          else none
      | _ => none

end OpendataIngest.Runtime.Pipeline
