import OpendataIngest.Runtime.Pipeline.Books
import OpendataIngest.Runtime.Pipeline.MemoryBound

/-!
# One admission cycle

A cycle begins when `admission_attempt` takes its batch permit, and ends when the actor is
back at its `select!`, sleeps after an empty poll or returns an error.  Between two of its
steps any other task may release, grow or take what it likes.  The semaphore and
`in_flight` are changed in place, so what a cycle took and gave back is the sum of the
changes its own steps made.
-/

set_option autoImplicit false

namespace OpendataIngest.Runtime.Pipeline

open MachineInt Pool

variable {R : Type}

/-! ## Cycles and their ledgers -/

/-- `permits` and `bytes` are what the cycle's steps took from the semaphore and added to
`in_flight`, less what they gave back; `call` is the number of descriptors it asked the
buffer for, next to the permits it then held; `sent` are the units on the channel. -/
structure Ledger where
  permits : Int
  bytes : Int
  call : Option (Nat × Int)
  answer : List SourceBatchDescriptor
  sent : List AdmittedDescriptor

def Ledger.empty : Ledger := ⟨0, 0, none, [], []⟩

/-- The ledger after a step of the actor from `s` to `s'`. -/
def Ledger.after (l : Ledger) (s s' : State R) (action : ActorAction) : Ledger where
  permits := l.permits + s.shared.freePermits - s'.shared.freePermits
  bytes := l.bytes + s'.shared.counters.inFlight - s.shared.counters.inFlight
  call := match s.actor.point with
    | .polling gates => some (gates.length, l.permits)
    | _ => l.call
  answer := match action with
    | .nextDescriptors answer => (s.actor.source.nextDescriptors answer).toOption.getD []
    | _ => l.answer
  sent := l.sent ++ s'.shared.descriptors.drop s.shared.descriptors.length

/-- The step is one of the arm's.  At the `select!` that is the reservation only: another arm
abandons the attempt. -/
def ActorPoint.goesOn : ActorPoint → ActorAction → Bool
  | .select true, .reserveBytes => true
  | .select _, _ => false
  | point, _ => point.isAdmitting

/-- The states and ledgers of a cycle that begins in `s₀`, up to and past its end. -/
inductive AdmissionCycle [TypedRecords R] (cfg : Config) (s₀ : State R) :
    State R → Ledger → Prop where
  | opens {s : State R} (idle : s₀.actor.point = .select false)
      (taken : step cfg s₀ (.actor .acquirePermit) = some s) :
      AdmissionCycle cfg s₀ s (Ledger.empty.after s₀ s .acquirePermit)
  | own {s s' : State R} {l : Ledger} (action : ActorAction) (before : AdmissionCycle cfg s₀ s l)
      (goesOn : s.actor.point.goesOn action = true)
      (taken : step cfg s (.actor action) = some s') :
      AdmissionCycle cfg s₀ s' (l.after s s' action)
  | other {s s' : State R} {l : Ledger} (action : Action R) (before : AdmissionCycle cfg s₀ s l)
      (notActor : ∀ own, action ≠ .actor own) (taken : step cfg s action = some s') :
      AdmissionCycle cfg s₀ s' l

/-- The most descriptors one cycle may ask for. -/
def Config.pollLimit (cfg : Config) : Nat := max 1 cfg.options.maxDescriptorsPerPoll.val

/-- What the cycle took and did not give back is one permit and one estimate for each unit
it sent. -/
structure Ledger.Settled (cfg : Config) (l : Ledger) : Prop where
  permits : l.permits = l.sent.length
  bytes : l.bytes % 2 ^ 64 = (l.sent.length * cfg.estimate) % 2 ^ 64

/-- The coordinator has gained exactly the sequences, in order, and so has `in_flight`. -/
structure Gained (a₀ a : Actor) (descriptors : List SourceBatchDescriptor) : Prop where
  pending : a.coordinator.pending.entries = a₀.coordinator.pending.entries ++
    descriptors.map fun d => (d.sequence.val, ⟨d.sequence.val, d.sequence.val, false⟩)
  inFlight : a.inFlight = a₀.inFlight + descriptors.length

/-- The net effect of a cycle, in whatever state it is. -/
structure NetEffect (cfg : Config) (s₀ s : State R) (l : Ledger) : Prop where
  requested : ∀ count permits, l.call = some (count, permits) →
    1 ≤ count ∧ count ≤ cfg.pollLimit ∧ (count : Int) ≤ permits
  paired : l.sent.map AdmittedDescriptor.descriptor <+: l.answer ∧
    ∀ unit ∈ l.sent, unit.reservation.held = cfg.estimate
  registeredFirst : l.sent ≠ [] → Gained s₀.actor s.actor l.answer
  succeeded : s.actor.point = .select false ∨ s.actor.point = .sleeping →
    l.call.isSome = true ∧ l.sent.map AdmittedDescriptor.descriptor = l.answer ∧
      l.Settled cfg ∧ Gained s₀.actor s.actor l.answer
  failed : ∀ result, s.actor.point = .exited result → l.Settled cfg

/-! ## The steps of the arm -/

/-- A step of the arm, with the units it sends. -/
inductive ArmStep (cfg : Config) (a : Actor) :
    ActorAction → Actor → List AdmittedDescriptor → Prop where
  | claims (gate : Reservation) (at_select : a.point = .select true) :
      ArmStep cfg a .reserveBytes { a with point := .measuring gate } []
  | measures (gate : Reservation) (roomUnits : Nat) (at_measuring : a.point = .measuring gate) :
      ArmStep cfg a .readRoom { a with point := .counting gate roomUnits } []
  | counts (gate : Reservation) (roomUnits extras : Nat)
      (at_counting : a.point = .counting gate roomUnits)
      (within : 1 + extras ≤ cfg.pollLimit) :
      ArmStep cfg a .readPermits { a with point := .extending [gate] extras } []
  | takesPermit (gates : List Reservation) (extras : Nat)
      (at_extending : a.point = .extending gates (extras + 1)) :
      ArmStep cfg a .tryAcquire { a with point := .extendingBytes gates extras } []
  | takesBytes (gates : List Reservation) (gate : Reservation) (extras : Nat) (raced : Bool)
      (at_extending : a.point = .extendingBytes gates extras) :
      ArmStep cfg a (.tryReserve raced) { a with point := .extending (gates ++ [gate]) extras } []
  | gathered (gates : List Reservation) (extras : Nat) {action : ActorAction}
      (notPoll : ∀ answer, action ≠ .nextDescriptors answer)
      (at_extending : a.point = .extending gates extras ∨ a.point = .extendingBytes gates extras) :
      ArmStep cfg a action { a with point := .polling gates } []
  | pollFails (gates : List Reservation) {answer : Except BoxError (List BatchDescriptor)}
      {error : RuntimeError} (at_polling : a.point = .polling gates)
      (failed : a.source.nextDescriptors answer = .error error) :
      ArmStep cfg a (.nextDescriptors answer) { a with point := .exited (.error error) } []
  | empty (gates : List Reservation) {answer : Except BoxError (List BatchDescriptor)}
      (at_polling : a.point = .polling gates)
      (answered : a.source.nextDescriptors answer = .ok []) :
      ArmStep cfg a (.nextDescriptors answer) { a with point := .sleeping } []
  | rejected (gates : List Reservation) {answer : Except BoxError (List BatchDescriptor)}
      {descriptors : List SourceBatchDescriptor} (c : AckCoordinator) (inFlight : Nat)
      {error : RuntimeError} (at_polling : a.point = .polling gates)
      (answered : a.source.nextDescriptors answer = .ok descriptors) :
      ArmStep cfg a (.nextDescriptors answer)
        { a with coordinator := c, inFlight := inFlight, point := .exited (.error error) } []
  | registers (gates : List Reservation) {answer : Except BoxError (List BatchDescriptor)}
      {descriptors : List SourceBatchDescriptor} (c : AckCoordinator)
      (at_polling : a.point = .polling gates) (fits : descriptors.length ≤ gates.length)
      (answered : a.source.nextDescriptors answer = .ok descriptors)
      (pass : Registers a.coordinator descriptors c
        (descriptors.map fun d => d.sequence.val) (.ok ())) :
      ArmStep cfg a (.nextDescriptors answer)
        { a with
          coordinator := c
          inFlight := a.inFlight + descriptors.length
          point := .sending (descriptors.zipWith AdmittedDescriptor.mk
            (gates.take descriptors.length)) } []
  | sends (unit : AdmittedDescriptor) (rest : List AdmittedDescriptor)
      (at_sending : a.point = .sending (unit :: rest)) :
      ArmStep cfg a .send { a with point := .sending rest } [unit]
  | sendFails (rest : List AdmittedDescriptor) (error : RuntimeError)
      (at_sending : a.point = .sending rest) :
      ArmStep cfg a .send { a with point := .exited (.error error) } []
  | done (at_sending : a.point = .sending []) :
      ArmStep cfg a .send { a with point := .select false } []

/-- What a step of the arm does to the channels. -/
structure Sends (sh sh' : Shared R) (units : List AdmittedDescriptor) : Prop where
  descriptors : sh'.descriptors = sh.descriptors ++ units
  fetched : sh'.fetched = sh.fetched
  sinkCommits : sh'.sinkCommits = sh.sinkCommits
  completions : sh'.completions = sh.completions ∨ sh'.completions = []

theorem Sends.nothing {sh sh' : Shared R} (descriptors : sh'.descriptors = sh.descriptors)
    (fetched : sh'.fetched = sh.fetched) (sinkCommits : sh'.sinkCommits = sh.sinkCommits)
    (completions : sh'.completions = sh.completions ∨ sh'.completions = []) : Sends sh sh' [] :=
  ⟨by rw [descriptors, List.append_nil], fetched, sinkCommits, completions⟩

theorem kTarget_bounds (cfg : Config) (roomUnits available : Nat) :
    1 + (kTarget cfg roomUnits available - 1) ≤ cfg.pollLimit := by
  unfold kTarget Config.pollLimit
  omega

/-- The poll of a cycle, from the buffer's answer on. -/
theorem admission_arm {cfg : Config} {a : Actor} {sh : Shared R} {gates : List Reservation}
    {answer : Except BoxError (List BatchDescriptor)} {descriptors : List SourceBatchDescriptor}
    (at_polling : a.point = .polling gates) (fits : descriptors.length ≤ gates.length)
    (answered : a.source.nextDescriptors answer = .ok descriptors) :
    ArmStep cfg a (.nextDescriptors answer) (admission a sh gates descriptors).1 [] ∧
      Sends sh (admission a sh gates descriptors).2 [] := by
  cases descriptors with
  | nil =>
      simp only [admission, dropGates_eq]
      exact ⟨.empty gates at_polling answered, .nothing rfl rfl rfl (Or.inl rfl)⟩
  | cons first rest =>
      have pass := registers_registerAll a.coordinator (first :: rest)
      simp only [admission, dropGates_eq, recordRegistered_eq]
      split
      case h_1 error failed =>
        exact ⟨.rejected gates _ _ at_polling answered, .nothing rfl rfl rfl (Or.inr rfl)⟩
      case h_2 succeeded =>
        have all := pass.all succeeded
        rw [succeeded, all] at pass
        rw [all, List.length_map]
        exact ⟨.registers gates _ at_polling fits answered pass, .nothing rfl rfl rfl (Or.inl rfl)⟩

theorem ActorPoint.goesOn_running {point : ActorPoint} {action : ActorAction}
    (goesOn : point.goesOn action = true) : point.isAdmitting = true := by
  unfold ActorPoint.goesOn at goesOn
  split at goesOn
  · rfl
  · cases goesOn
  · exact goesOn

theorem ActorPoint.goesOn_select {permit : Bool} {action : ActorAction}
    (goesOn : (ActorPoint.select permit).goesOn action = true) : action = .reserveBytes := by
  cases permit with
  | false => cases goesOn
  | true =>
      cases action with
      | reserveBytes => rfl
      | _ => cases goesOn

/-- Every step of the actor within a cycle is one of the arm's. -/
theorem stepActor_arm {cfg : Config} {shutdown fetchersGone decodersGone writersGone : Bool}
    {a a' : Actor} {sh sh' : Shared R} {action : ActorAction}
    (goesOn : a.point.goesOn action = true)
    (taken : stepActor cfg shutdown fetchersGone decodersGone writersGone a sh action =
      some (a', sh')) : ∃ units, ArmStep cfg a action a' units ∧ Sends sh sh' units := by
  have running := ActorPoint.goesOn_running goesOn
  have nothing : ∀ base : Shared R, base.descriptors = sh.descriptors →
      base.fetched = sh.fetched → base.sinkCommits = sh.sinkCommits →
      base.completions = sh.completions → Sends sh base [] :=
    fun _ descriptors fetched sinkCommits completions =>
      .nothing descriptors fetched sinkCommits (Or.inl completions)
  have holds : ∀ permit, a.point = .select permit → action = .reserveBytes := by
    intro permit at_select
    rw [at_select] at goesOn
    exact ActorPoint.goesOn_select goesOn
  cases actorStep_of_stepActor taken with
  | claims gate k at_select =>
      exact ⟨[], .claims gate at_select, nothing _ rfl rfl rfl rfl⟩
  | measures gate roomUnits at_measuring =>
      exact ⟨[], .measures gate roomUnits at_measuring, nothing _ rfl rfl rfl rfl⟩
  | counts gate roomUnits at_counting =>
      exact ⟨[], .counts gate roomUnits _ at_counting (kTarget_bounds cfg _ _),
        nothing _ rfl rfl rfl rfl⟩
  | enough gates at_extending =>
      exact ⟨[], .gathered gates 0 nofun (Or.inl at_extending), nothing _ rfl rfl rfl rfl⟩
  | takesPermit gates extras at_extending =>
      exact ⟨[], .takesPermit gates extras at_extending, nothing _ rfl rfl rfl rfl⟩
  | noPermit gates extras at_extending =>
      exact ⟨[], .gathered gates _ nofun (Or.inl at_extending), nothing _ rfl rfl rfl rfl⟩
  | takesBytes raced gates extras extra k at_extending =>
      exact ⟨[], .takesBytes gates _ extras raced at_extending, nothing _ rfl rfl rfl rfl⟩
  | noBytes raced gates extras at_extending =>
      exact ⟨[], .gathered gates extras nofun (Or.inr at_extending), nothing _ rfl rfl rfl rfl⟩
  | pollFails answer gates error at_polling failed =>
      rw [dropGates_eq]
      exact ⟨[], .pollFails gates at_polling failed, .nothing rfl rfl rfl (Or.inr rfl)⟩
  | admits answer gates descriptors at_polling answered fits =>
      exact ⟨[], admission_arm at_polling fits answered⟩
  | sentAll at_sending => exact ⟨[], .done at_sending, nothing _ rfl rfl rfl rfl⟩
  | sendFails unit rest error at_sending =>
      rw [dropGates_eq]
      exact ⟨[], .sendFails _ _ at_sending, .nothing rfl rfl rfl (Or.inr rfl)⟩
  | sends unit rest at_sending =>
      exact ⟨[unit], .sends unit rest at_sending, rfl, rfl, rfl, Or.inl rfl⟩
  -- the other arms of the `select!`, which abandon the cycle
  | aborts permit error at_select | closes permit at_select
  | receives permit report rest at_select | receivesFatal permit error rest at_select
  | workersGone permit error at_select | finishes permit sequence at_select
  | leaves permit at_select => cases holds permit at_select
  | acquires at_select => cases holds false at_select
  | wakes at_sleeping =>
      rw [at_sleeping] at running
      cases running
  | flushed sequence frontier at_flushing | flushedLast sequence at_flushing =>
      rw [at_flushing] at running
      cases running
  | flushFails sequence error at_flushing =>
      rcases at_flushing with ⟨frontier, at_flushing⟩ | at_flushing
      · rw [at_flushing] at running
        cases running
      · rw [at_flushing] at running
        cases running

/-! ## What a step of the arm takes -/

theorem Sends.weighs {sh sh' : Shared R} {units : List AdmittedDescriptor}
    (sends : Sends sh sh' units) (weight : Holding → Nat)
    (reports : ∀ message, total weight (WriteCompletion.holdings message) = 0) :
    total weight sh'.holdings =
      total weight sh.holdings + total (fun unit => weight unit.holding) units := by
  have weightless : ∀ messages : List WriteCompletion,
      total (fun message => total weight message.holdings) messages = 0 :=
    fun messages => total_eq_zero _ _ fun message _ => reports message
  simp only [Shared.total_holdings, sends.descriptors, sends.fetched, sends.sinkCommits,
    total_append, weightless]
  omega

/-- A step of the arm pays for what the actor holds after it and for the units it sent. -/
structure Pays (sh sh' : Shared R) (point point' : ActorPoint)
    (units : List AdmittedDescriptor) : Prop where
  permits : sh'.freePermits + units.length + total Holding.permits point'.holdings =
    sh.freePermits + total Holding.permits point.holdings
  bytes : (sh'.counters.inFlight + total Holding.held point.holdings) % 2 ^ 64 =
    (sh.counters.inFlight + total (fun unit => unit.reservation.held) units +
      total Holding.held point'.holdings) % 2 ^ 64

theorem Sends.pays {cfg : Config} {sh sh' : Shared R} {point point' : ActorPoint}
    {units : List AdmittedDescriptor} {old new : List Holding} (sends : Sends sh sh' units)
    (settles : StepSettles cfg sh sh' (sh.holdings ++ point.holdings)
      (sh'.holdings ++ point'.holdings) old new) : Pays sh sh' point point' units := by
  have count : total (fun unit => Holding.permits (AdmittedDescriptor.holding unit)) units =
      units.length := by
    simp [total, AdmittedDescriptor.holding]
  have heldOf : total (fun unit => Holding.held (AdmittedDescriptor.holding unit)) units =
      total (fun unit => unit.reservation.held) units := rfl
  have permits := sends.weighs Holding.permits fun message => by cases message <;> rfl
  have held := sends.weighs Holding.held fun message => by cases message <;> rfl
  have movedPermits := settles.exchange Holding.permits
  have movedHeld := settles.exchange Holding.held
  have freed := settles.permits
  have bytes := settles.bytes
  rw [count] at permits
  rw [heldOf] at held
  simp only [total_append] at movedPermits movedHeld
  constructor
  · omega
  · omega

/-! ## The pass of registrations -/

theorem Keeps.pending_register {cfg : Config} {c c' : AckCoordinator} {history : List Event}
    (keeps : Keeps cfg c history) {sequence : Nat} (bound : sequence ≤ u64Max)
    (registered : c.registerPending sequence sequence = (c', .ok ())) :
    c'.pending.entries = c.pending.entries ++ [(sequence, ⟨sequence, sequence, false⟩)] := by
  obtain ⟨popped, rest, _, tracks, _⟩ := keeps
  obtain ⟨accepted, rfl⟩ := registerPending_ok registered
  have unmarked := tracks.not_committed_of_accepted sequence sequence bound accepted
  have after := tracks.register sequence sequence bound accepted
  rw [after.pending_eq, tracks.pending_eq, List.map_append, List.map_singleton,
    AckCoordinator.pendingEntry, unmarked]

theorem Registers.pending {cfg : Config} {c last : AckCoordinator}
    {descriptors : List SourceBatchDescriptor} {sequences : List Nat}
    {answer : RuntimeResult Unit} (pass : Registers c descriptors last sequences answer)
    (succeeded : answer = .ok ()) {history : List Event} (keeps : Keeps cfg c history) :
    last.pending.entries = c.pending.entries ++
      descriptors.map fun d => (d.sequence.val, ⟨d.sequence.val, d.sequence.val, false⟩) := by
  induction pass generalizing history with
  | done c => rw [List.map_nil, List.append_nil]
  | stops rejected => cases succeeded
  | @goesOn c c' last descriptor rest sequences answer accepted later ih =>
      have bound := val_le_u64Max descriptor.sequence
      rw [ih succeeded (keeps.register bound accepted).1, keeps.pending_register bound accepted,
        List.map_cons, List.append_assoc, List.singleton_append]

/-! ## The stages of a cycle -/

/-- The points before the call to the buffer, with the gates held and still to come. -/
def ActorPoint.Gathers (limit : Nat) : ActorPoint → Prop
  | .select permit => permit = true
  | .measuring _ => True
  | .counting _ _ => True
  | .extending gates extras => 1 ≤ gates.length ∧ gates.length + extras ≤ limit
  | .extendingBytes gates extras => 1 ≤ gates.length ∧ gates.length + 1 + extras ≤ limit
  | .polling gates => 1 ≤ gates.length ∧ gates.length ≤ limit
  | _ => False

theorem ActorPoint.Gathers.admitting {limit : Nat} {point : ActorPoint}
    (gathers : point.Gathers limit) : point.isAdmitting = true := by
  cases point with
  | select permit => exact gathers
  | measuring | counting | extending | extendingBytes | polling | sending => rfl
  | _ => exact gathers.elim

/-- Where a cycle that did not fail ends, the actor holds nothing. -/
theorem ActorPoint.over_holdings {point : ActorPoint}
    (isOver : point = .select false ∨ point = .sleeping) : point.holdings = [] := by
  rcases isOver with at_select | at_sleeping
  · rw [at_select]
    rfl
  · rw [at_sleeping]
    rfl

theorem ActorPoint.over_not_admitting {point : ActorPoint}
    (isOver : point = .select false ∨ point = .sleeping) : ¬ point.isAdmitting = true := by
  rcases isOver with at_select | at_sleeping
  · rw [at_select]
    nofun
  · rw [at_sleeping]
    nofun

/-- Nothing has crossed to the buffer, the coordinator or the workers. -/
structure Untouched (a₀ a : Actor) (l : Ledger) : Prop where
  call : l.call = none
  answer : l.answer = []
  sent : l.sent = []
  coordinator : a.coordinator = a₀.coordinator
  inFlight : a.inFlight = a₀.inFlight

def Ledger.Asked (cfg : Config) (l : Ledger) : Prop :=
  ∃ count permits, l.call = some (count, permits) ∧ 1 ≤ count ∧ count ≤ cfg.pollLimit ∧
    (count : Int) ≤ permits

inductive CycleStage (cfg : Config) (a₀ a : Actor) (l : Ledger) : Prop where
  | gathering (gathers : a.point.Gathers cfg.pollLimit) (untouched : Untouched a₀ a l)
  | handing (rest : List AdmittedDescriptor) (at_sending : a.point = .sending rest)
      (asked : l.Asked cfg) (gained : Gained a₀ a l.answer)
      (answered : l.answer = (l.sent ++ rest).map AdmittedDescriptor.descriptor)
  | ended (isOver : a.point = .select false ∨ a.point = .sleeping) (asked : l.Asked cfg)
      (gained : Gained a₀ a l.answer)
      (answered : l.answer = l.sent.map AdmittedDescriptor.descriptor)
  | failed (result : RuntimeResult Unit) (exited : a.point = .exited result)
      (asked : l.Asked cfg) (answered : l.sent.map AdmittedDescriptor.descriptor <+: l.answer)
      (registered : l.sent ≠ [] → Gained a₀ a l.answer)

/-- The ledger accounts for what the actor holds and what it sent. -/
structure CycleHolds (cfg : Config) (s₀ s : State R) (l : Ledger) : Prop where
  permits : l.permits = l.sent.length + total Holding.permits s.actor.point.holdings
  bytes : l.bytes % 2 ^ 64 = ((total (fun unit => unit.reservation.held) l.sent +
    total Holding.held s.actor.point.holdings : Nat) : Int) % 2 ^ 64
  estimated : ∀ unit ∈ l.sent, unit.reservation.held = cfg.estimate
  stage : CycleStage cfg s₀.actor s.actor l

section Stage

variable {cfg : Config} {a₀ : Actor} {s s' : State R} {l : Ledger} {action : ActorAction}

theorem CycleStage.before_poll (stage : CycleStage cfg a₀ s.actor l)
    (running : s.actor.point.isAdmitting = true)
    (notSending : ∀ rest, s.actor.point ≠ .sending rest) :
    s.actor.point.Gathers cfg.pollLimit ∧ Untouched a₀ s.actor l := by
  cases stage with
  | gathering gathers untouched => exact ⟨gathers, untouched⟩
  | handing rest at_sending => exact absurd at_sending (notSending rest)
  | ended isOver => exact absurd running (ActorPoint.over_not_admitting isOver)
  | failed result exited =>
      rw [exited] at running
      cases running

theorem CycleStage.while_sending (stage : CycleStage cfg a₀ s.actor l)
    {rest : List AdmittedDescriptor} (at_sending : s.actor.point = .sending rest) :
    l.Asked cfg ∧ Gained a₀ s.actor l.answer ∧
      l.answer = (l.sent ++ rest).map AdmittedDescriptor.descriptor := by
  cases stage with
  | gathering gathers =>
      rw [at_sending] at gathers
      exact gathers.elim
  | handing rest' at_sending' asked gained answered =>
      rw [at_sending] at at_sending'
      cases at_sending'
      exact ⟨asked, gained, answered⟩
  | ended isOver =>
      rw [at_sending] at isOver
      exact absurd rfl (ActorPoint.over_not_admitting isOver)
  | failed result exited =>
      rw [at_sending] at exited
      cases exited

/-- The call is in the ledger once it is made. -/
theorem Ledger.asked_after {gates : List Reservation} (at_polling : s.actor.point = .polling gates)
    (gathers : s.actor.point.Gathers cfg.pollLimit) (permits : l.permits = gates.length) :
    (l.after s s' action).Asked cfg := by
  rw [at_polling] at gathers
  refine ⟨gates.length, l.permits, ?_, gathers.1, gathers.2, le_of_eq permits.symm⟩
  simp only [Ledger.after, at_polling]

theorem Ledger.after_call (notPolling : ∀ gates, s.actor.point ≠ .polling gates) :
    (l.after s s' action).call = l.call := by
  cases at_point : s.actor.point with
  | polling gates => exact absurd at_point (notPolling gates)
  | _ => simp only [Ledger.after, at_point]

theorem Ledger.after_answer (notPoll : ∀ answer, action ≠ .nextDescriptors answer) :
    (l.after s s' action).answer = l.answer := by
  cases action with
  | nextDescriptors answer => exact absurd rfl (notPoll answer)
  | _ => rfl

theorem Ledger.after_answered {answer : Except BoxError (List BatchDescriptor)}
    {descriptors : List SourceBatchDescriptor}
    (answered : s.actor.source.nextDescriptors answer = .ok descriptors) :
    (l.after s s' (.nextDescriptors answer)).answer = descriptors := by
  simp only [Ledger.after, answered]
  rfl

theorem Ledger.after_sent {units : List AdmittedDescriptor}
    (sends : Sends s.shared s'.shared units) : (l.after s s' action).sent = l.sent ++ units := by
  simp only [Ledger.after, sends.descriptors, List.drop_left]

theorem Ledger.Asked.bounds (asked : l.Asked cfg) (count : Nat) (permits : Int)
    (called : l.call = some (count, permits)) :
    1 ≤ count ∧ count ≤ cfg.pollLimit ∧ (count : Int) ≤ permits := by
  obtain ⟨count', permits', called', bounds⟩ := asked
  rw [called] at called'
  cases called'
  exact bounds

theorem Ledger.Asked.isSome (asked : l.Asked cfg) : l.call.isSome = true := by
  obtain ⟨count, permits, called, _⟩ := asked
  rw [called]
  rfl

theorem Ledger.Asked.after (asked : l.Asked cfg)
    (notPolling : ∀ gates, s.actor.point ≠ .polling gates) : (l.after s s' action).Asked cfg := by
  rw [Ledger.Asked, Ledger.after_call notPolling]
  exact asked

theorem map_descriptor_zipWith (descriptors : List SourceBatchDescriptor)
    (gates : List Reservation) (fits : descriptors.length ≤ gates.length) :
    (descriptors.zipWith AdmittedDescriptor.mk gates).map AdmittedDescriptor.descriptor =
      descriptors := by
  rw [← List.map_uncurry_zip_eq_zipWith, List.map_map]
  exact List.map_fst_zip fits

/-- A step that only gathers. -/
theorem CycleStage.gathers {a' : Actor} {sh' : Shared R} {point : ActorPoint}
    (stage : CycleStage cfg a₀ s.actor l) (running : s.actor.point.isAdmitting = true)
    (at_point : s.actor.point = point) (notSending : ∀ rest, point ≠ .sending rest)
    (notPolling : ∀ gates, point ≠ .polling gates)
    (notPoll : ∀ answer, action ≠ .nextDescriptors answer) (sends : Sends s.shared sh' [])
    (coordinator : a'.coordinator = s.actor.coordinator) (inFlight : a'.inFlight = s.actor.inFlight)
    (next : point.Gathers cfg.pollLimit → a'.point.Gathers cfg.pollLimit) :
    CycleStage cfg a₀ a' (l.after s { s with actor := a', shared := sh' } action) := by
  subst at_point
  obtain ⟨gathers, untouched⟩ := stage.before_poll running notSending
  refine .gathering (next gathers) ⟨?_, ?_, ?_, ?_, ?_⟩
  · rw [Ledger.after_call notPolling, untouched.call]
  · rw [Ledger.after_answer notPoll, untouched.answer]
  · rw [Ledger.after_sent sends, List.append_nil, untouched.sent]
  · rw [coordinator, untouched.coordinator]
  · rw [inFlight, untouched.inFlight]

/-- The call to the buffer. -/
theorem CycleStage.polls {gates : List Reservation} (stage : CycleStage cfg a₀ s.actor l)
    (permits : l.permits = l.sent.length + total Holding.permits s.actor.point.holdings)
    (at_polling : s.actor.point = .polling gates) :
    (l.after s s' action).Asked cfg ∧ Untouched a₀ s.actor l := by
  have running : s.actor.point.isAdmitting = true := by rw [at_polling]; rfl
  obtain ⟨gathers, untouched⟩ := stage.before_poll running (by rw [at_polling]; nofun)
  refine ⟨Ledger.asked_after at_polling gathers ?_, untouched⟩
  rw [permits, untouched.sent, at_polling]
  simp [ActorPoint.holdings, gates_permits]

/-- The call to the buffer, or what it answers, ends the actor. -/
theorem CycleStage.poll_fails {a' : Actor} {sh' : Shared R} {gates : List Reservation}
    {result : RuntimeResult Unit} (stage : CycleStage cfg a₀ s.actor l)
    (permits : l.permits = l.sent.length + total Holding.permits s.actor.point.holdings)
    (at_polling : s.actor.point = .polling gates) (sends : Sends s.shared sh' [])
    (exited : a'.point = .exited result) :
    CycleStage cfg a₀ a' (l.after s { s with actor := a', shared := sh' } action) := by
  obtain ⟨asked, untouched⟩ := stage.polls permits at_polling
  have unsent : (l.after s { s with actor := a', shared := sh' } action).sent = [] := by
    rw [Ledger.after_sent sends, List.append_nil, untouched.sent]
  refine .failed result exited asked ?_ fun some_sent => absurd unsent some_sent
  rw [unsent]
  exact List.nil_prefix

/-- What a step of the arm makes of the stage. -/
theorem CycleStage.step {a' : Actor} {sh' : Shared R} {units : List AdmittedDescriptor}
    (stage : CycleStage cfg a₀ s.actor l) (running : s.actor.point.isAdmitting = true)
    (permits : l.permits = l.sent.length + total Holding.permits s.actor.point.holdings)
    (keeps : Keeps cfg s.actor.coordinator s.shared.history)
    (arm : ArmStep cfg s.actor action a' units) (sends : Sends s.shared sh' units) :
    CycleStage cfg a₀ a' (l.after s { s with actor := a', shared := sh' } action) := by
  have sent : (l.after s { s with actor := a', shared := sh' } action).sent = l.sent ++ units :=
    Ledger.after_sent sends
  cases arm with
  | claims gate at_select =>
      exact stage.gathers running at_select nofun nofun nofun sends rfl rfl fun _ => trivial
  | measures gate roomUnits at_measuring =>
      exact stage.gathers running at_measuring nofun nofun nofun sends rfl rfl fun _ => trivial
  | counts gate roomUnits extras at_counting within =>
      exact stage.gathers running at_counting nofun nofun nofun sends rfl rfl fun _ =>
        ⟨Nat.le_refl 1, within⟩
  | takesPermit gates extras at_extending =>
      refine stage.gathers running at_extending nofun nofun nofun sends rfl rfl fun bounds => ?_
      exact ⟨bounds.1, by have := bounds.2; omega⟩
  | takesBytes gates gate extras raced at_extending =>
      refine stage.gathers running at_extending nofun nofun nofun sends rfl rfl fun bounds => ?_
      have size : (gates ++ [gate]).length = gates.length + 1 := List.length_append
      exact ⟨by omega, by rw [size]; exact bounds.2⟩
  | gathered gates extras notPoll at_extending =>
      rcases at_extending with at_extending | at_extending
      · refine stage.gathers running at_extending nofun nofun notPoll sends rfl rfl fun bounds => ?_
        exact ⟨bounds.1, by have := bounds.2; omega⟩
      · refine stage.gathers running at_extending nofun nofun notPoll sends rfl rfl fun bounds => ?_
        exact ⟨bounds.1, by have := bounds.2; omega⟩
  | pollFails gates at_polling failed => exact stage.poll_fails permits at_polling sends rfl
  | empty gates at_polling answered =>
      obtain ⟨asked, untouched⟩ := stage.polls permits at_polling
      rw [untouched.sent, List.append_nil] at sent
      refine .ended (Or.inr rfl) asked ?_ ?_
      · rw [Ledger.after_answered answered]
        refine ⟨?_, ?_⟩
        · rw [List.map_nil, List.append_nil, untouched.coordinator]
        · exact untouched.inFlight
      · rw [Ledger.after_answered answered, sent]
        rfl
  | rejected gates c inFlight at_polling answered =>
      exact stage.poll_fails permits at_polling sends rfl
  | registers gates c at_polling fits answered pass =>
      obtain ⟨asked, untouched⟩ := stage.polls permits at_polling
      rw [untouched.sent, List.append_nil] at sent
      refine .handing _ rfl asked ?_ ?_
      · rw [Ledger.after_answered answered]
        refine ⟨?_, ?_⟩
        · rw [← untouched.coordinator]
          exact pass.pending rfl keeps
        · rw [← untouched.inFlight]
      · rw [Ledger.after_answered answered, sent, List.nil_append, map_descriptor_zipWith]
        rw [List.length_take]
        exact Nat.le_min.mpr ⟨Nat.le_refl _, fits⟩
  | sends unit rest at_sending =>
      obtain ⟨asked, gained, answered⟩ := stage.while_sending at_sending
      refine .handing rest rfl (asked.after (by rw [at_sending]; nofun))
        ⟨gained.pending, gained.inFlight⟩ ?_
      rw [sent, List.append_assoc, List.singleton_append]
      exact answered
  | sendFails rest error at_sending =>
      obtain ⟨asked, gained, answered⟩ := stage.while_sending at_sending
      rw [List.append_nil] at sent
      refine .failed _ rfl (asked.after (by rw [at_sending]; nofun)) ?_
        fun _ => ⟨gained.pending, gained.inFlight⟩
      rw [sent]
      change l.sent.map AdmittedDescriptor.descriptor <+: l.answer
      rw [answered, List.map_append]
      exact List.prefix_append _ _
  | done at_sending =>
      obtain ⟨asked, gained, answered⟩ := stage.while_sending at_sending
      rw [List.append_nil] at sent answered
      refine .ended (Or.inl rfl) (asked.after (by rw [at_sending]; nofun))
        ⟨gained.pending, gained.inFlight⟩ ?_
      rw [sent]
      exact answered

end Stage

theorem ArmStep.sent_estimated {cfg : Config} {a a' : Actor} {action : ActorAction}
    {units : List AdmittedDescriptor} {history : List Event} (arm : ArmStep cfg a action a' units)
    (sound : ∀ h ∈ a.point.holdings, Sound cfg history h) :
    ∀ unit ∈ units, unit.reservation.held = cfg.estimate := by
  intro unit member
  cases arm with
  | sends first rest at_sending =>
      rw [List.mem_singleton.mp member]
      have held : first.holding ∈ a.point.holdings := by
        rw [at_sending]
        exact List.mem_map_of_mem List.mem_cons_self
      exact ((sound _ held).fresh_held rfl).1
  | _ => cases member

/-! ## Runs of a cycle -/

theorem total_estimated (units : List AdmittedDescriptor) (bytes : Nat)
    (estimated : ∀ unit ∈ units, unit.reservation.held = bytes) :
    total (fun unit => unit.reservation.held) units = units.length * bytes := by
  rw [total_congr _ (fun _ => bytes) units estimated]
  simp [total]

/-- A cycle that holds nothing has settled its ledger. -/
theorem CycleHolds.settled {cfg : Config} {s₀ s : State R} {l : Ledger}
    (holds : CycleHolds cfg s₀ s l) (idle : s.actor.point.holdings = []) : l.Settled cfg := by
  obtain ⟨permits, bytes, estimated, _⟩ := holds
  rw [idle, total_nil] at permits bytes
  rw [total_estimated l.sent cfg.estimate estimated] at bytes
  exact ⟨by omega, by push_cast at bytes; simpa using bytes⟩

section Cycle

variable [TypedRecords R] {cfg : Config} {s₀ s s' : State R} {l : Ledger}

theorem cycleHolds_opens (idle : s₀.actor.point = .select false)
    (taken : step cfg s₀ (.actor .acquirePermit) = some s) :
    CycleHolds cfg s₀ s (Ledger.empty.after s₀ s .acquirePermit) := by
  cases transition_of_step taken with
  | actor moved =>
      simp only [stepActor, idle] at moved
      split_ifs at moved with available
      cases moved
      have unsent : (Ledger.empty.after s₀ { s₀ with
          actor := { s₀.actor with point := .select true },
          shared := { s₀.shared with freePermits := s₀.shared.freePermits - 1 } }
          .acquirePermit).sent = [] :=
        Ledger.after_sent (.nothing rfl rfl rfl (Or.inl rfl))
      refine ⟨?_, ?_, ?_, .gathering rfl ⟨?_, rfl, unsent, rfl, rfl⟩⟩
      · rw [unsent]
        simp only [Ledger.after, Ledger.empty, ActorPoint.holdings, List.length_nil, total_cons,
          total_nil, permitHolding]
        omega
      · rw [unsent]
        simp only [Ledger.after, Ledger.empty, ActorPoint.holdings, total_cons, total_nil,
          permitHolding]
        omega
      · rw [unsent]
        intro unit member
        cases member
      · refine Ledger.after_call ?_
        rw [idle]
        intro gates polls
        cases polls

theorem CycleHolds.own {action : ActorAction} (holds : CycleHolds cfg s₀ s l)
    (accounts : Accounts cfg s) (keeps : Keeps cfg s.actor.coordinator s.shared.history)
    (goesOn : s.actor.point.goesOn action = true)
    (taken : step cfg s (.actor action) = some s') :
    CycleHolds cfg s₀ s' (l.after s s' action) := by
  cases transition_of_step taken with
  | @actor _ a' sh' moved =>
      have sound := all_actor accounts.sound
      obtain ⟨units, arm, sends⟩ := stepActor_arm goesOn moved
      obtain ⟨old, new, settles⟩ := stepActor_settles sound moved
      have pays := sends.pays settles
      have paidPermits := pays.permits
      have paidBytes := pays.bytes
      have permits := holds.permits
      have bytes := holds.bytes
      have sent : (l.after s { s with actor := a', shared := sh' } action).sent = l.sent ++ units :=
        Ledger.after_sent sends
      have running := ActorPoint.goesOn_running goesOn
      refine ⟨?_, ?_, ?_, holds.stage.step running permits keeps arm sends⟩
      · rw [sent, List.length_append]
        simp only [Ledger.after]
        omega
      · rw [sent, total_append]
        simp only [Ledger.after]
        omega
      · rw [sent]
        intro unit member
        rcases List.mem_append.mp member with earlier | new
        · exact holds.estimated unit earlier
        · exact arm.sent_estimated (fun h isHeld => Sound.member sound isHeld) unit new

theorem AdmissionCycle.reachable (reachable : (machine R cfg).Reachable s₀)
    (cycle : AdmissionCycle cfg s₀ s l) : (machine R cfg).Reachable s := by
  induction cycle with
  | opens idle taken => exact .step (.actor .acquirePermit) reachable taken
  | own action before goesOn taken ih => exact .step (.actor action) ih taken
  | other action before notActor taken ih => exact .step action ih taken

theorem AdmissionCycle.holds (reachable : (machine R cfg).Reachable s₀)
    (cycle : AdmissionCycle cfg s₀ s l) : CycleHolds cfg s₀ s l := by
  induction cycle with
  | opens idle taken => exact cycleHolds_opens idle taken
  | own action before goesOn taken ih =>
      have reached := before.reachable reachable
      exact ih.own (accounts_of_reachable reached) (books_of_reachable reached).keeps goesOn
        taken
  | other action before notActor taken ih =>
      have reached := before.reachable reachable
      cases step_cases (accounts_of_reachable reached) taken with
      | actor shape isActor => exact absurd isActor (notActor _)
      | other sameActor =>
          obtain ⟨permits, bytes, estimated, stage⟩ := ih
          rw [← sameActor] at permits bytes stage
          exact ⟨permits, bytes, estimated, stage⟩

/-- However other tasks interfere, a cycle asks for no more descriptors than it holds
permits, hands over one permit and one estimate with each descriptor it gets, all of which
it has registered before, and gives back everything else, also when it fails. -/
theorem admission_cycle_net_effect (cfg : Config) (s₀ s : State R) (l : Ledger)
    (reachable : (machine R cfg).Reachable s₀) (cycle : AdmissionCycle cfg s₀ s l) :
    NetEffect cfg s₀ s l := by
  have holds := cycle.holds reachable
  cases holds.stage with
  | gathering gathers untouched =>
      refine ⟨?_, ?_, ?_, ?_, ?_⟩
      · intro count permits called
        rw [untouched.call] at called
        cases called
      · rw [untouched.sent]
        exact ⟨List.nil_prefix, nofun⟩
      · exact fun some_sent => absurd untouched.sent some_sent
      · exact fun isOver => absurd gathers.admitting (ActorPoint.over_not_admitting isOver)
      · intro result exited
        rw [exited] at gathers
        exact gathers.elim
  | handing rest at_sending asked gained answered =>
      refine ⟨asked.bounds, ⟨?_, holds.estimated⟩, fun _ => gained, ?_, ?_⟩
      · rw [answered, List.map_append]
        exact List.prefix_append _ _
      · rw [at_sending]
        exact fun isOver => absurd rfl (ActorPoint.over_not_admitting isOver)
      · rw [at_sending]
        nofun
  | ended isOver asked gained answered =>
      have settled : l.Settled cfg := holds.settled (ActorPoint.over_holdings isOver)
      refine ⟨asked.bounds, ⟨?_, holds.estimated⟩, fun _ => gained,
        fun _ => ⟨asked.isSome, answered.symm, settled, gained⟩, fun _ _ => settled⟩
      rw [answered]
  | failed result exited asked answered registered =>
      have idle : s.actor.point.holdings = [] := by
        rw [exited]
        rfl
      refine ⟨asked.bounds, ⟨answered, holds.estimated⟩, registered, ?_,
        fun _ _ => holds.settled idle⟩
      rw [exited]
      rintro (at_select | at_sleeping)
      · cases at_select
      · cases at_sleeping

end Cycle

/-! ## Undisturbed cycles -/

/-- The given steps of the arm, with no other task between them. -/
def ownSteps [TypedRecords R] (cfg : Config) :
    State R → Ledger → List ActorAction → Option (State R × Ledger)
  | s, l, [] => some (s, l)
  | s, l, action :: rest =>
      if s.actor.point.goesOn action then
        (step cfg s (.actor action)).bind fun s' => ownSteps cfg s' (l.after s s' action) rest
      else none

theorem AdmissionCycle.ownSteps [TypedRecords R] {cfg : Config} {s₀ s s' : State R}
    {l l' : Ledger} (before : AdmissionCycle cfg s₀ s l) (actions : List ActorAction)
    (ran : ownSteps cfg s l actions = some (s', l')) : AdmissionCycle cfg s₀ s' l' := by
  induction actions generalizing s l with
  | nil =>
      cases ran
      exact before
  | cons action rest ih =>
      simp only [Pipeline.ownSteps] at ran
      split_ifs at ran with goesOn
      obtain ⟨next, taken, later⟩ := Option.bind_eq_some_iff.mp ran
      exact ih (before.own action goesOn taken) later

/-- With room for two descriptors the buffer has one. -/
theorem admission_cycle_net_effect_with_spare_gate :
    ∃ (s : State SizedRecords) (l : Ledger),
      AdmissionCycle narrowConfig (State.start narrowConfig) s l ∧ l.call = some (2, 2) ∧
        l.sent.length = 1 ∧ l.Settled narrowConfig := by
  let s₀ : State SizedRecords := State.start narrowConfig
  let opened : State SizedRecords := { s₀ with
    actor := { s₀.actor with point := .select true }
    shared := { s₀.shared with freePermits := 1 } }
  have ran : (ownSteps narrowConfig opened (Ledger.empty.after s₀ opened .acquirePermit)
      [.reserveBytes, .readRoom, .readPermits, .tryAcquire, .tryReserve false, .tryAcquire,
        .nextDescriptors (.ok [⟨0, "a", []⟩]), .send, .send]).map
      (fun x => (x.1.actor.point, x.2.call, x.2.sent.length)) =
        some (.select false, some (2, 2), 1) := by
    decide
  obtain ⟨⟨s, l⟩, reached, values⟩ := Option.map_eq_some_iff.mp ran
  simp only [Prod.mk.injEq] at values
  obtain ⟨back, called, sent⟩ := values
  have cycle := (AdmissionCycle.opens rfl rfl : AdmissionCycle narrowConfig s₀ opened _).ownSteps
    _ reached
  have effect := admission_cycle_net_effect narrowConfig s₀ s l .start cycle
  exact ⟨s, l, cycle, called, sent, (effect.succeeded (Or.inl back)).2.2.1⟩

end OpendataIngest.Runtime.Pipeline
