import OpendataIngest.Runtime.Pipeline.ActorSteps
import OpendataIngest.Runtime.Pipeline.WorkerMoves

/-!
# What an actor step does to the accounts

The actor takes permits and bytes from the budget, turns gates into admitted units,
removes reports from the completion channel, and drops whatever it still holds when it
returns.  In every case permits and bytes settle.  Only a successful reservation raises
what the holdings may come to weigh, and it leaves `in_flight` within the capacity.
-/

set_option autoImplicit false

namespace OpendataIngest.Runtime.Pipeline

open MachineInt Pool

variable {R : Type}

/-! ## Dropping gates -/

def releaseAll (gates : List Reservation) (k : Counters Stage) : Counters Stage :=
  gates.foldl (fun k gate => gate.release k) k

theorem dropGates_eq (sh : Shared R) (gates : List Reservation) :
    sh.dropGates gates = { sh with
      counters := releaseAll gates sh.counters
      freePermits := sh.freePermits + gates.length } := by
  induction gates generalizing sh with
  | nil => rfl
  | cons gate rest ih =>
      have tail := ih (sh.dropUnit gate)
      simp only [Shared.dropGates, List.foldl_cons] at tail ⊢
      rw [tail]
      simp only [Shared.dropUnit, releaseAll, List.foldl_cons, List.length_cons, Shared.mk.injEq,
        true_and, and_true]
      omega

theorem releaseAll_inFlight (gates : List Reservation) (k : Counters Stage)
    (small : ∀ gate ∈ gates, gate.held ≤ u64Max) :
    ((releaseAll gates k).inFlight + total ByteReservation.held gates) % 2 ^ 64 =
      k.inFlight % 2 ^ 64 := by
  induction gates generalizing k with
  | nil => rfl
  | cons gate rest ih =>
      have tail := ih (gate.release k) fun other member =>
        small other (List.mem_cons_of_mem gate member)
      have head := gate.release_inFlight k (small gate List.mem_cons_self)
      simp only [releaseAll, List.foldl_cons, total_cons] at tail ⊢
      omega

theorem releaseAll_width (gates : List Reservation) (k : Counters Stage)
    (width : k.inFlight < 2 ^ 64) : (releaseAll gates k).inFlight < 2 ^ 64 := by
  induction gates generalizing k with
  | nil => exact width
  | cons gate rest ih => exact ih (gate.release k) (gate.release_width k width)

theorem cancelAdmission_eq (sh : Shared R) (permit : Bool) :
    sh.cancelAdmission permit = { sh with
      freePermits := sh.freePermits +
        total Holding.permits (ActorPoint.select permit).holdings } := by
  cases permit
  all_goals rfl

theorem recordRegistered_eq (sh : Shared R) (sequences : List Nat) :
    sh.recordRegistered sequences = { sh with
      history := (sequences.map Event.registered).reverse ++ sh.history } := by
  induction sequences generalizing sh with
  | nil => rfl
  | cons sequence rest ih =>
      have tail := ih (sh.record (.registered sequence))
      simp only [Shared.recordRegistered, List.foldl_cons] at tail ⊢
      rw [tail]
      simp [Shared.record]

/-! ## Holdings of gates and of the units made from them -/

theorem select_held (permit : Bool) :
    total Holding.held (ActorPoint.select permit).holdings = 0 := by
  cases permit
  all_goals rfl

theorem gates_held (gates : List Reservation) :
    total Holding.held (gates.map gateHolding) = total ByteReservation.held gates := by
  rw [total_map]
  rfl

theorem gates_permits (gates : List Reservation) :
    total Holding.permits (gates.map gateHolding) = gates.length := by
  rw [total_map]
  simp [total, gateHolding]

/-- Weights that do not look at custody see the same in a gate and in the unit it
becomes. -/
theorem units_total (weight : Holding → Nat)
    (blind : ∀ descriptor reservation,
      weight (AdmittedDescriptor.holding ⟨descriptor, reservation⟩) =
        weight (gateHolding reservation))
    (descriptors : List SourceBatchDescriptor) (gates : List Reservation)
    (sameLength : descriptors.length = gates.length) :
    total weight ((descriptors.zipWith AdmittedDescriptor.mk gates).map
      AdmittedDescriptor.holding) = total weight (gates.map gateHolding) := by
  induction descriptors generalizing gates with
  | nil =>
      have empty : gates = [] := List.length_eq_zero_iff.mp sameLength.symm
      rw [empty]
      rfl
  | cons descriptor rest ih =>
      cases gates with
      | nil => cases sameLength
      | cons gate others =>
          have tail := ih others (Nat.succ.inj sameLength)
          simp only [List.zipWith_cons_cons, List.map_cons, total_cons, blind, tail]

theorem units_sound {cfg : Config} {history : List Event}
    (descriptors : List SourceBatchDescriptor) (gates : List Reservation)
    (sound : ∀ gate ∈ gates, Sound cfg history (gateHolding gate)) (newer : List Event) :
    ∀ h ∈ (descriptors.zipWith AdmittedDescriptor.mk gates).map AdmittedDescriptor.holding,
      Sound cfg newer h := by
  intro h member
  obtain ⟨unit, inZip, rfl⟩ := List.mem_map.mp member
  have own : unit.reservation ∈ gates := by
    rw [← List.map_uncurry_zip_eq_zipWith, List.mem_map] at inZip
    obtain ⟨pair, inPairs, rfl⟩ := inZip
    exact (List.of_mem_zip inPairs).2
  have gate := sound unit.reservation own
  exact ⟨Nat.le_refl 1, gate.held_le, gate.fresh_held, rfl, fun _ reported => by cases reported⟩

theorem units_custody (range : Range) (descriptors : List SourceBatchDescriptor)
    (gates : List Reservation) (sameLength : descriptors.length = gates.length) :
    total (custodyOf range) ((descriptors.zipWith AdmittedDescriptor.mk gates).map
      AdmittedDescriptor.holding) =
      total (Event.registers range)
        ((descriptors.map fun d => d.sequence.val).map Event.registered) := by
  induction descriptors generalizing gates with
  | nil => rfl
  | cons descriptor rest ih =>
      cases gates with
      | nil => cases sameLength
      | cons gate others =>
          have tail := ih others (Nat.succ.inj sameLength)
          simp only [List.zipWith_cons_cons, List.map_cons, total_cons, tail]
          simp [custodyOf, AdmittedDescriptor.holding, Event.registers]

theorem gates_custody (range : Range) (gates : List Reservation) :
    total (custodyOf range) (gates.map gateHolding) = 0 := by
  rw [total_map]
  exact total_eq_zero _ _ fun _ _ => rfl

theorem select_custody (range : Range) (permit : Bool) :
    total (custodyOf range) (ActorPoint.select permit).holdings = 0 := by
  cases permit
  all_goals rfl

theorem SameMarks.grown {older newer : List Event} (books : SameMarks older newer) :
    ∀ range, marks range newer = marks range older ∧
      registrations range older ≤ registrations range newer :=
  fun range => ⟨(books range).1, (books range).2.ge⟩

/-! ## Kinds of actor steps -/

section Kinds

variable {cfg : Config} {sh sh' : Shared R} {before after : List Holding}

theorem StepSettles.moved (exchange : Exchange before after [] [])
    (samePermits : sh'.freePermits = sh.freePermits)
    (sameBytes : sh'.counters.inFlight = sh.counters.inFlight)
    (history : ∃ events, sh'.history = events ++ sh.history)
    (books : SameMarks sh.history sh'.history) :
    StepSettles cfg sh sh' before after [] [] where
  toSettles := Settles.move exchange samePermits sameBytes
  sound := by simp
  history := history
  claim := Or.inl fun _ _ => Nat.le_refl _
  custody := .neutral books fun _ => rfl

/-- Returning drops the local holdings and what is left in the completion channel. -/
theorem StepSettles.exits (a : Actor) (base : Shared R) (held : List Holding)
    (result : RuntimeResult Unit) (descriptors : base.descriptors = sh.descriptors)
    (fetched : base.fetched = sh.fetched) (sinkCommits : base.sinkCommits = sh.sinkCommits)
    (permits : base.freePermits = sh.freePermits + total Holding.permits held)
    (bytes : (base.counters.inFlight + total Holding.held held) % 2 ^ 64 =
      sh.counters.inFlight % 2 ^ 64)
    (width : sh.counters.inFlight < 2 ^ 64 → base.counters.inFlight < 2 ^ 64)
    (history : ∃ events, base.history = events ++ sh.history)
    (books : ∀ range, marks range base.history = marks range sh.history ∧
      registrations range sh.history ≤ registrations range base.history) :
    StepSettles cfg sh (exitActor a base result).2 (sh.holdings ++ held)
      ((exitActor a base result).2.holdings ++ (exitActor a base result).1.point.holdings)
      (held ++ sh.completions.flatMap WriteCompletion.holdings) [] where
  exchange := by
    intro weight
    simp only [exitActor, ActorPoint.holdings, Shared.total_holdings, descriptors, fetched,
      sinkCommits, total_append, total_nil, total_flatMap]
    omega
  permits := by
    have none : total Holding.permits (sh.completions.flatMap WriteCompletion.holdings) = 0 := by
      rw [total_flatMap]
      refine total_eq_zero _ _ fun message _ => ?_
      cases message
      all_goals rfl
    simp only [exitActor, total_append, total_nil, none, permits]
    omega
  bytes := by
    have none : total Holding.held (sh.completions.flatMap WriteCompletion.holdings) = 0 := by
      rw [total_flatMap]
      refine total_eq_zero _ _ fun message _ => ?_
      cases message
      all_goals rfl
    simp only [exitActor, total_append, total_nil, none]
    omega
  width := width
  sound := by simp
  history := history
  claim := Or.inl fun _ _ => Nat.zero_le _
  custody := by
    refine ⟨?_, fun intact => ?_⟩
    · intro range
      have kept := books range
      simp only [exitActor, total_nil]
      omega
    · have closed := intact.completionClosed
      simp [exitActor] at closed

end Kinds

/-! ## The completion arm -/

/-- The three ways through the ack block: nothing to send, an ack that stays in memory,
an ack that is flushed at once. -/
inductive AckCase (cfg : Config) (a : Actor) (sh : Shared R) : Actor → Shared R → Prop where
  | silent (idle : cfg.dryRun = true ∨ ∀ frontier, a.coordinator.frontier = some frontier →
      shouldAck a.lastAckSent frontier = false) :
      AckCase cfg a sh ({ a with point := .select false }.publish) sh
  | deferred (frontier : Nat) (live : cfg.dryRun = false)
      (reached : a.coordinator.frontier = some frontier)
      (ahead : shouldAck a.lastAckSent frontier = true)
      (waits : shouldFlush cfg.options.ackFlushPolicy (nextGroups a.groupsSinceFlush) = false) :
      AckCase cfg a sh
        (({ a with
          source := a.source.ackThrough frontier
          lastAckSent := some frontier
          groupsSinceFlush := nextGroups a.groupsSinceFlush
          point := .select false }.acked frontier).publish)
        (sh.record (.ackThrough frontier))
  | flushes (frontier : Nat) (live : cfg.dryRun = false)
      (reached : a.coordinator.frontier = some frontier)
      (ahead : shouldAck a.lastAckSent frontier = true)
      (due : shouldFlush cfg.options.ackFlushPolicy (nextGroups a.groupsSinceFlush) = true) :
      AckCase cfg a sh
        { a with
          source := (a.source.ackThrough frontier).flushCall.1
          lastAckSent := some frontier
          groupsSinceFlush := nextGroups a.groupsSinceFlush
          point := .flushing frontier frontier }
        ((sh.record (.ackThrough frontier)).record (.consumerAckCalled frontier))

theorem acknowledge_cases (cfg : Config) (a : Actor) (sh : Shared R) :
    AckCase cfg a sh (acknowledge cfg a sh).1 (acknowledge cfg a sh).2 := by
  unfold acknowledge
  cases dry : cfg.dryRun with
  | true => exact .silent (Or.inl dry)
  | false =>
      cases reached : a.coordinator.frontier with
      | none =>
          refine .silent (Or.inr fun frontier isFrontier => ?_)
          rw [reached] at isFrontier
          cases isFrontier
      | some frontier =>
          simp only [Bool.false_eq_true, if_false]
          split
          case isTrue ahead =>
            simp only [ackFrontier]
            split
            case isTrue due => exact .flushes frontier dry reached ahead due
            case isFalse waits =>
              exact .deferred frontier dry reached ahead (by simpa using waits)
          case isFalse behind =>
            refine .silent (Or.inr fun other isFrontier => ?_)
            rw [reached] at isFrontier
            cases isFrontier
            simpa using behind

theorem AckCase.shared {cfg : Config} {a a' : Actor} {sh sh' : Shared R}
    (shape : AckCase cfg a sh a' sh') :
    ∃ events, Neutral events ∧ sh' = { sh with history := events ++ sh.history } ∧
      a'.point.holdings = [] := by
  cases shape with
  | silent => exact ⟨[], fun _ => ⟨rfl, rfl⟩, rfl, rfl⟩
  | deferred frontier => exact ⟨[.ackThrough frontier], fun _ => ⟨rfl, rfl⟩, rfl, rfl⟩
  | flushes frontier =>
      exact ⟨[.consumerAckCalled frontier, .ackThrough frontier], fun _ => ⟨rfl, rfl⟩, rfl, rfl⟩

/-- The actor with the coordinator advanced over a newly marked range. -/
def Actor.marked (a : Actor) (c : AckCoordinator) (report : CommittedReport) : Actor :=
  Actor.countCompletion
    { a with coordinator := c.advanceFrontier, inFlight := a.inFlight - 1 } report

/-- The completion arm returns the error of `mark_committed`, or goes on to the ack
block. -/
inductive ReceiveCase (cfg : Config) (a : Actor) (sh : Shared R) (report : CommittedReport) :
    Actor → Shared R → Prop where
  | rejected (c : AckCoordinator) (error : RuntimeError)
      (rejects : a.coordinator.markCommitted report.range.1.val report.range.2.val =
        (c, .error error)) :
      ReceiveCase cfg a sh report
        (exitActor { a with coordinator := c }
          (sh.record (.completionReceived report.range.1.val report.range.2.val))
          (.error error)).1
        (exitActor { a with coordinator := c }
          (sh.record (.completionReceived report.range.1.val report.range.2.val))
          (.error error)).2
  | marked (c : AckCoordinator)
      (marks : a.coordinator.markCommitted report.range.1.val report.range.2.val = (c, .ok ()))
      {a' : Actor} {sh' : Shared R}
      (acks : AckCase cfg (a.marked c report)
        ((sh.record (.completionReceived report.range.1.val report.range.2.val)).record
          (.markedCommitted report.range.1.val report.range.2.val)) a' sh') :
      ReceiveCase cfg a sh report a' sh'

theorem receiveCommitted_cases (cfg : Config) (a : Actor) (sh : Shared R)
    (report : CommittedReport) : ReceiveCase cfg a sh report
      (receiveCommitted cfg a sh report).1 (receiveCommitted cfg a sh report).2 := by
  unfold receiveCommitted
  simp only
  cases marks : a.coordinator.markCommitted report.range.1.val report.range.2.val with
  | mk c answer =>
      cases answer with
      | error e => exact .rejected c e marks
      | ok _ => exact .marked c marks (acknowledge_cases cfg (a.marked c report) _)

theorem receiveCommitted_shared (cfg : Config) (a : Actor) (sh : Shared R)
    (report : CommittedReport) :
    (∃ a' error, receiveCommitted cfg a sh report =
      exitActor a' (sh.record
        (.completionReceived report.range.1.val report.range.2.val)) (.error error)) ∨
    ∃ acks, Neutral acks ∧ (receiveCommitted cfg a sh report).2 = { sh with
        history := acks ++ (.markedCommitted report.range.1.val report.range.2.val ::
          .completionReceived report.range.1.val report.range.2.val :: sh.history) } ∧
      (receiveCommitted cfg a sh report).1.point.holdings = [] := by
  have shape := receiveCommitted_cases cfg a sh report
  generalize receiveCommitted cfg a sh report = moved at shape ⊢
  obtain ⟨a', sh'⟩ := moved
  cases shape with
  | rejected c error => exact Or.inl ⟨_, error, rfl⟩
  | marked c marks acks => exact Or.inr acks.shared

/-! ## The admission arm -/

theorem gates_small {cfg : Config} {history : List Event} {gates : List Reservation}
    (sound : ∀ gate ∈ gates, Sound cfg history (gateHolding gate)) :
    ∀ gate ∈ gates, gate.held ≤ u64Max :=
  fun gate member => (sound gate member).held_small

theorem total_take_drop (weight : Holding → Nat) (gates : List Reservation) (n : Nat) :
    total weight ((gates.take n).map gateHolding) + total weight ((gates.drop n).map gateHolding) =
      total weight (gates.map gateHolding) := by
  rw [← total_append, ← List.map_append, List.take_append_drop]

theorem admission_empty_settles {cfg : Config} {a : Actor} {sh : Shared R}
    {gates : List Reservation} (sound : ∀ gate ∈ gates, Sound cfg sh.history (gateHolding gate)) :
    StepSettles cfg sh (admission a sh gates []).2 (sh.holdings ++ gates.map gateHolding)
      ((admission a sh gates []).2.holdings ++ (admission a sh gates []).1.point.holdings)
      (gates.map gateHolding) [] := by
  have released := releaseAll_inFlight gates sh.counters (gates_small sound)
  simp only [admission, dropGates_eq]
  refine ⟨⟨?_, ?_, ?_, releaseAll_width gates sh.counters⟩, by simp, ⟨[.handedOut []], rfl⟩,
    Or.inl fun _ _ => Nat.zero_le _, .neutral ?_ ?_⟩
  · intro weight
    simp only [Shared.total_holdings, Shared.record, ActorPoint.holdings, total_append, total_nil]
    omega
  · simp [Shared.record, gates_permits]
  · simp only [Shared.record, gates_held, total_nil]
    exact released
  · exact Neutral.sameMarks [.handedOut []] (fun _ => ⟨rfl, rfl⟩) sh.history
  · intro range
    rw [gates_custody]
    rfl

/-- The register-all pass: it stops at the first range that `register_pending` rejects. -/
inductive Registers : AckCoordinator → List SourceBatchDescriptor → AckCoordinator → List Nat →
    RuntimeResult Unit → Prop where
  | done (c : AckCoordinator) : Registers c [] c [] (.ok ())
  | stops {c c' : AckCoordinator} {descriptor : SourceBatchDescriptor}
      {rest : List SourceBatchDescriptor} {error : RuntimeError}
      (rejected : c.registerPending descriptor.sequence.val descriptor.sequence.val =
        (c', .error error)) : Registers c (descriptor :: rest) c' [] (.error error)
  | goesOn {c c' last : AckCoordinator} {descriptor : SourceBatchDescriptor}
      {rest : List SourceBatchDescriptor} {sequences : List Nat} {answer : RuntimeResult Unit}
      (accepted : c.registerPending descriptor.sequence.val descriptor.sequence.val =
        (c', .ok ())) (later : Registers c' rest last sequences answer) :
      Registers c (descriptor :: rest) last (descriptor.sequence.val :: sequences) answer

theorem registers_registerAll (c : AckCoordinator) (descriptors : List SourceBatchDescriptor) :
    Registers c descriptors (registerAll c descriptors).1 (registerAll c descriptors).2.1
      (registerAll c descriptors).2.2 := by
  induction descriptors generalizing c with
  | nil => exact .done c
  | cons descriptor rest ih =>
      simp only [registerAll]
      cases outcome : c.registerPending descriptor.sequence.val descriptor.sequence.val with
      | mk c' answer =>
          cases answer with
          | error e => exact .stops outcome
          | ok _ => exact .goesOn outcome (ih c')

theorem Registers.all {c last : AckCoordinator} {descriptors : List SourceBatchDescriptor}
    {sequences : List Nat} {answer : RuntimeResult Unit}
    (pass : Registers c descriptors last sequences answer) (succeeded : answer = .ok ()) :
    sequences = descriptors.map fun d => d.sequence.val := by
  induction pass with
  | done c => rfl
  | stops rejected => cases succeeded
  | goesOn accepted later ih => rw [ih succeeded, List.map_cons]

theorem registered_neutral_marks (range : Range) (sequences : List Nat) :
    total (Event.marks range) (sequences.map Event.registered) = 0 := by
  rw [total_map]
  exact total_eq_zero _ _ fun _ _ => rfl

theorem total_reverse (weight : Event → Nat) (events : List Event) :
    total weight events.reverse = total weight events := by
  simp [total, List.sum_reverse]

/-- The shared state a non-empty answer leaves before the send-all pass. -/
theorem admission_shared (a : Actor) (sh : Shared R) (gates : List Reservation)
    (first : SourceBatchDescriptor) (rest : List SourceBatchDescriptor) :
    ∃ sequences a', (sequences = (first :: rest).map (fun d => d.sequence.val) ∧
      admission a sh gates (first :: rest) =
        ({ a' with point := .sending ((first :: rest).zipWith AdmittedDescriptor.mk
            (gates.take (first :: rest).length)) },
          { sh with
            counters := releaseAll (gates.drop (first :: rest).length) sh.counters
            freePermits := sh.freePermits + (gates.drop (first :: rest).length).length
            history := (sequences.map Event.registered).reverse ++
              .handedOut ((first :: rest).map fun d => d.sequence.val) :: sh.history })) ∨
      ∃ error, admission a sh gates (first :: rest) =
        exitActor a' { sh with
          counters := releaseAll (gates.take (first :: rest).length)
            (releaseAll (gates.drop (first :: rest).length) sh.counters)
          freePermits := sh.freePermits + (gates.drop (first :: rest).length).length +
            (gates.take (first :: rest).length).length
          history := (sequences.map Event.registered).reverse ++
            .handedOut ((first :: rest).map fun d => d.sequence.val) :: sh.history }
          (.error error) := by
  let registered := registerAll a.coordinator (first :: rest)
  refine ⟨registered.2.1,
    { a with coordinator := registered.1, inFlight := a.inFlight + registered.2.1.length }, ?_⟩
  cases outcome : (registerAll a.coordinator (first :: rest)).2.2 with
  | ok _ =>
      left
      refine ⟨(registers_registerAll _ _).all outcome, ?_⟩
      simp only [admission, outcome, dropGates_eq, recordRegistered_eq, Shared.record, registered]
  | error e =>
      right
      refine ⟨e, ?_⟩
      simp only [admission, outcome, dropGates_eq, recordRegistered_eq, Shared.record, registered]

/-- What the registration events weigh. -/
theorem registered_books (range : Range) (sequences : List Nat) (handed : List Nat)
    (older : List Event) :
    marks range ((sequences.map Event.registered).reverse ++ .handedOut handed :: older) =
        marks range older ∧
      registrations range ((sequences.map Event.registered).reverse ++ .handedOut handed :: older) =
        total (Event.registers range) (sequences.map Event.registered) +
          registrations range older := by
  constructor
  · simp only [marks, total_append, total_reverse, registered_neutral_marks, total_cons]
    simp [Event.marks]
  · simp only [registrations, total_append, total_reverse, total_cons]
    simp [Event.registers]

theorem admission_settles {cfg : Config} {a : Actor} {sh : Shared R} {gates : List Reservation}
    {descriptors : List SourceBatchDescriptor}
    (sound : ∀ gate ∈ gates, Sound cfg sh.history (gateHolding gate))
    (fits : descriptors.length ≤ gates.length) :
    ∃ old new, StepSettles cfg sh (admission a sh gates descriptors).2
      (sh.holdings ++ gates.map gateHolding)
      ((admission a sh gates descriptors).2.holdings ++
        (admission a sh gates descriptors).1.point.holdings) old new := by
  cases descriptors with
  | nil => exact ⟨_, _, admission_empty_settles sound⟩
  | cons first rest =>
      generalize size : (first :: rest).length = n at fits
      have small := gates_small sound
      have releasedDropped := releaseAll_inFlight (gates.drop n) sh.counters
        fun gate member => small gate (List.mem_of_mem_drop member)
      have releasedKept := releaseAll_inFlight (gates.take n)
        (releaseAll (gates.drop n) sh.counters)
        fun gate member => small gate (List.mem_of_mem_take member)
      have cutHeld := total_take_drop Holding.held gates n
      rw [gates_held, gates_held, gates_held] at cutHeld
      have keptLength : (first :: rest).length = (gates.take n).length := by
        rw [List.length_take, size]
        omega
      have cutLength : (gates.take n).length + (gates.drop n).length = gates.length := by
        rw [← List.length_append, List.take_append_drop]
      obtain ⟨sequences, a', ⟨registered, admitted⟩ | ⟨error, failed⟩⟩ :=
        admission_shared a sh gates first rest
      · rw [size] at admitted
        rw [admitted]
        refine ⟨gates.map gateHolding, ((first :: rest).zipWith AdmittedDescriptor.mk
          (gates.take n)).map AdmittedDescriptor.holding,
          ⟨?_, ?_, ?_, releaseAll_width _ sh.counters⟩, ?_, ⟨_, List.append_cons _ _ _⟩, ?_, ?_⟩
        · intro weight
          simp only [Shared.total_holdings, ActorPoint.holdings, total_append]
          omega
        · rw [units_total _ (fun _ _ => rfl) _ _ keptLength, gates_permits, gates_permits]
          simp only
          omega
        · rw [units_total _ (fun _ _ => rfl) _ _ keptLength, gates_held, gates_held]
          simp only
          omega
        · exact units_sound _ _ (fun gate member => sound gate (List.mem_of_mem_take member)) _
        · left
          intro limit _
          have cutCeiling := total_take_drop (ceiling limit) gates n
          rw [units_total _ (fun _ _ => rfl) _ _ keptLength]
          omega
        · refine ⟨fun range => ?_, fun _ range => ?_⟩
          all_goals
            obtain ⟨sameMarks, added⟩ := registered_books range sequences
              ((first :: rest).map fun d => d.sequence.val) sh.history
            have units := units_custody range (first :: rest) (gates.take n) keptLength
            rw [gates_custody, units, sameMarks, added, registered]
            omega
      · rw [size] at failed
        rw [failed]
        refine ⟨_, _, StepSettles.exits a' _ _ _ rfl rfl rfl ?_ ?_
          (fun width => releaseAll_width _ _ (releaseAll_width _ _ width))
          ⟨_, List.append_cons _ _ _⟩ fun range => ?_⟩
        · rw [gates_permits]
          simp only
          omega
        · rw [gates_held]
          simp only
          omega
        · obtain ⟨sameMarks, added⟩ := registered_books range sequences
            ((first :: rest).map fun d => d.sequence.val) sh.history
          simp only [sameMarks, added, true_and]
          omega

/-! ## Claiming bytes -/

theorem sound_gate (cfg : Config) (history : List Event) (gate : Reservation)
    (held : gate.held = cfg.estimate) : Sound cfg history (gateHolding gate) where
  permits_le := Nat.le_refl 1
  held_le := by
    have below : cfg.estimate ≤ cfg.peak := Nat.le_max_left _ _
    simp only [gateHolding, held]
    omega
  fresh_held _ := ⟨held, rfl⟩
  aligned := rfl
  evidence _ reported := by cases reported

theorem peak_of_empty_estimate (cfg : Config) (empty : cfg.estimate = 0) : cfg.peak = 0 := by
  have noBytes : cfg.bp.estimatedMaxBatchBytes.val = 0 := empty
  simp [Config.peak, SourceBackpressureOptions.faultLimit, saturatingMul, empty, noBytes]

/-- A permit becomes a gate. -/
theorem StepSettles.claims {cfg : Config} {sh sh' : Shared R} {before after : List Holding}
    (gate : Reservation) (held : gate.held = cfg.estimate)
    (exchange : Exchange before after [permitHolding] [gateHolding gate])
    (samePermits : sh'.freePermits = sh.freePermits)
    (bytes : sh'.counters.inFlight % 2 ^ 64 = (sh.counters.inFlight + cfg.estimate) % 2 ^ 64)
    (width : sh.counters.inFlight < 2 ^ 64 → sh'.counters.inFlight < 2 ^ 64)
    (history : sh'.history = sh.history)
    (within : cfg.estimate ≠ 0 → cfg.capacity < u64Max →
      sh.counters.inFlight + cfg.estimate ≤ cfg.capacity) :
    StepSettles cfg sh sh' before after [permitHolding] [gateHolding gate] where
  exchange := exchange
  permits := by simp [samePermits, permitHolding, gateHolding]
  bytes := by simpa [permitHolding, gateHolding, held] using bytes
  width := width
  sound := by simpa using sound_gate cfg _ gate held
  history := ⟨[], history⟩
  claim := by
    by_cases empty : cfg.estimate = 0
    · left
      intro limit atMost
      have nothing : limit = 0 := Nat.le_zero.mp (peak_of_empty_estimate cfg empty ▸ atMost)
      simp [ceiling, gateHolding, nothing]
    · exact Or.inr ⟨by simp [gateHolding, permitHolding, held], within empty⟩
  custody := by
    refine .neutral ?_ fun _ => rfl
    rw [history]
    exact fun _ => ⟨rfl, rfl⟩

/-! ## Leaving the `select!` -/

section Select

variable {cfg : Config} {sh sh' : Shared R}

/-- Another arm fires: the pending admission gives its permit back. -/
theorem StepSettles.cancels (permit : Bool) (sameQueues : sh'.holdings = sh.holdings)
    (permits : sh'.freePermits = (sh.cancelAdmission permit).freePermits)
    (counters : sh'.counters = sh.counters) (history : ∃ events, sh'.history = events ++ sh.history)
    (books : SameMarks sh.history sh'.history) :
    StepSettles cfg sh sh' (sh.holdings ++ (ActorPoint.select permit).holdings)
      (sh'.holdings ++ []) (ActorPoint.select permit).holdings [] where
  exchange := by
    intro weight
    simp only [sameQueues, total_append, total_nil]
    omega
  permits := by
    rw [permits, cancelAdmission_eq]
    rfl
  bytes := by
    rw [counters, select_held]
    rfl
  width := by
    rw [counters]
    exact id
  sound := by simp
  history := history
  claim := Or.inl fun _ _ => Nat.zero_le _
  custody := .neutral books fun range => by rw [select_custody]; rfl

/-- The actor returns from the `select!`. -/
theorem StepSettles.returns (a : Actor) (permit : Bool) (rest : List WriteCompletion)
    (result : RuntimeResult Unit) :
    ∃ old new, StepSettles cfg sh
      (exitActor a { sh.cancelAdmission permit with completions := rest } result).2
      (sh.holdings ++ (ActorPoint.select permit).holdings)
      ((exitActor a { sh.cancelAdmission permit with completions := rest } result).2.holdings ++ [])
      old new := by
  rw [cancelAdmission_eq]
  refine ⟨_, _, StepSettles.exits a _ _ result rfl rfl rfl rfl ?_ id ⟨[], rfl⟩
    fun _ => ⟨rfl, Nat.le_refl _⟩⟩
  rw [select_held, Nat.add_zero]

theorem StepSettles.takesPermit (held : List Holding) (available : 0 < sh.freePermits) :
    StepSettles cfg sh { sh with freePermits := sh.freePermits - 1 } (sh.holdings ++ held)
      (Shared.holdings { sh with freePermits := sh.freePermits - 1 } ++ permitHolding :: held) []
      [permitHolding] where
  exchange := by
    intro weight
    simp only [Shared.total_holdings, total_append, total_cons, total_nil]
    omega
  permits := by
    simp only [total_cons, total_nil, permitHolding]
    omega
  bytes := rfl
  width := id
  sound := by simpa using sound_permitHolding cfg _
  history := ⟨[], rfl⟩
  claim := Or.inl fun _ _ => Nat.zero_le _
  custody := .neutral (.refl _) fun _ => rfl

/-- A report is received: the custody of its range ends with the mark in the history. -/
theorem receiveCommitted_settles (a : Actor) (permit : Bool) (report : CommittedReport)
    (rest : List WriteCompletion) (queue : sh.completions = .committed report :: rest) :
    ∃ old new, StepSettles cfg sh
      (receiveCommitted cfg a { sh.cancelAdmission permit with completions := rest } report).2
      (sh.holdings ++ (ActorPoint.select permit).holdings)
      ((receiveCommitted cfg a
          { sh.cancelAdmission permit with completions := rest } report).2.holdings ++
        (receiveCommitted cfg a
          { sh.cancelAdmission permit with completions := rest } report).1.point.holdings)
      old new := by
  rw [cancelAdmission_eq]
  rcases receiveCommitted_shared cfg a _ report with
    ⟨a', error, failed⟩ | ⟨acks, neutral, shared, point⟩
  · rw [failed]
    refine ⟨_, _, StepSettles.exits a' _ _ _ rfl rfl rfl rfl ?_ id ⟨[_], rfl⟩
      (SameMarks.grown (Neutral.sameMarks [_] (fun _ => ⟨rfl, rfl⟩) _))⟩
    simp only [Shared.record]
    rw [select_held, Nat.add_zero]
  · rw [shared, point]
    refine ⟨(ActorPoint.select permit).holdings ++ [report.holding], [], ⟨?_, ?_, ?_, id⟩, by simp,
      ⟨acks ++ [.markedCommitted report.range.1.val report.range.2.val,
        .completionReceived report.range.1.val report.range.2.val], by simp⟩,
      Or.inl fun _ _ => Nat.zero_le _, ?_⟩
    · intro weight
      simp only [Shared.total_holdings, total_append, total_nil, queue, total_cons,
        WriteCompletion.holdings]
      omega
    · simp [CommittedReport.holding]
    · simp [CommittedReport.holding, select_held]
    · refine ⟨fun range => ?_, fun _ range => ?_⟩
      all_goals
        have quiet := neutral range
        simp only [marks, registrations, total_append, total_cons, total_nil, quiet.1, quiet.2,
          select_custody, Event.marks, Event.registers, custodyOf, CommittedReport.holding, rangeOf,
          Option.some.injEq]
        omega

end Select

/-! ## Every step -/

theorem stepActor_settles {cfg : Config} {shutdown fetchersGone decodersGone writersGone : Bool}
    {a a' : Actor} {sh sh' : Shared R} {action : ActorAction}
    (sound : ∀ h ∈ sh.holdings ++ a.point.holdings, Sound cfg sh.history h)
    (taken : stepActor cfg shutdown fetchersGone decodersGone writersGone a sh action =
      some (a', sh')) :
    ∃ old new, StepSettles cfg sh sh' (sh.holdings ++ a.point.holdings)
      (sh'.holdings ++ a'.point.holdings) old new := by
  cases actorStep_of_stepActor taken with
  | aborts permit error at_select =>
      rw [at_select]
      exact StepSettles.returns a permit sh.completions (.error error)
  | closes permit at_select =>
      rw [at_select]
      refine ⟨_, _, StepSettles.cancels permit ?_ rfl ?_ ⟨[], ?_⟩ ?_⟩
      all_goals rw [cancelAdmission_eq]
      · rfl
      · rfl
      · exact .refl _
  | receives permit report rest at_select queue =>
      rw [at_select]
      exact receiveCommitted_settles a permit report rest queue
  | receivesFatal permit error rest at_select queue =>
      rw [at_select]
      exact StepSettles.returns a permit rest (.error error)
  | workersGone permit error at_select =>
      rw [at_select]
      exact StepSettles.returns a permit sh.completions (.error error)
  | acquires at_select isOpen available =>
      rw [at_select]
      exact ⟨_, _, StepSettles.takesPermit [] available⟩
  | claims gate k at_select isOpen fits claimed =>
      rw [at_select]
      obtain ⟨rfl, rfl⟩ := Prod.ext_iff.mp claimed
      refine ⟨_, _, StepSettles.claims ((sh.counters.reserve cfg.estimate).1.attachStage .source
        (sh.counters.reserve cfg.estimate).2).1 (sh.counters.reserve_held cfg.estimate) ?_ rfl ?_ ?_
        rfl ?_⟩
      · intro weight
        simp only [Shared.total_holdings, ActorPoint.holdings, total_append, total_cons, total_nil]
        omega
      · simpa using sh.counters.reserve_inFlight cfg.estimate
      · simpa using sh.counters.reserve_width cfg.estimate
      · intro nonempty below
        rcases fits with empty | enough
        · exact absurd empty nonempty
        · exact Counters.fits_exact _ _ _ enough below
  | measures gate roomUnits at_point | counts gate roomUnits at_point | enough gates at_point
  | noPermit gates extras at_point | wakes at_point | sentAll at_point =>
      rw [at_point]
      exact ⟨[], [], StepSettles.moved (.refl _) rfl rfl ⟨[], rfl⟩ fun _ => ⟨rfl, rfl⟩⟩
  | takesPermit gates extras at_extending available =>
      rw [at_extending]
      exact ⟨_, _, StepSettles.takesPermit (gates.map gateHolding) available⟩
  | takesBytes raced gates extras extra k at_extending unraced reserved =>
      rw [at_extending]
      obtain ⟨held, moved, within⟩ := Counters.tryReserve_some _ _ _ _ _ reserved
      refine ⟨_, _, StepSettles.claims (extra.attachStage .source k).1 held ?_ rfl ?_ ?_ rfl ?_⟩
      · intro weight
        simp only [Shared.total_holdings, ActorPoint.holdings, total_append, total_cons, total_nil,
          List.map_append, List.map_cons, List.map_nil]
        omega
      · simp [moved]
      · intro width
        have capacity : cfg.capacity < 2 ^ 64 := cfg.bp.maxInflightBytes.isLt
        by_cases empty : cfg.estimate = 0
        · simpa [moved, empty] using width
        · have fits := within empty
          simp only [ByteReservation.attachStage_inFlight]
          omega
      · intro nonempty _
        exact moved ▸ within nonempty
  | noBytes raced gates extras at_extending =>
      rw [at_extending]
      refine ⟨[permitHolding], [], ⟨?_, rfl, rfl, id⟩, by simp, ⟨[], rfl⟩,
        Or.inl fun _ _ => Nat.zero_le _, .neutral (.refl _) fun _ => rfl⟩
      intro weight
      simp only [Shared.total_holdings, ActorPoint.holdings, total_append, total_cons, total_nil]
      omega
  | pollFails answer gates error at_polling =>
      rw [at_polling] at sound ⊢
      rw [dropGates_eq]
      refine ⟨_, _, StepSettles.exits a _ _ _ rfl rfl rfl ?_ ?_
        (releaseAll_width _ sh.counters) ⟨[], rfl⟩ fun _ => ⟨rfl, Nat.le_refl _⟩⟩
      · simp [ActorPoint.holdings, gates_permits]
      · simp only [ActorPoint.holdings, gates_held]
        exact releaseAll_inFlight gates sh.counters (gates_small fun gate member =>
          Sound.member sound (List.mem_map_of_mem member))
  | admits answer gates descriptors at_polling answered fits =>
      rw [at_polling] at sound ⊢
      exact admission_settles
        (fun gate member => Sound.member sound (List.mem_map_of_mem member)) fits
  | sendFails unit rest error at_sending =>
      rw [at_sending] at sound ⊢
      rw [dropGates_eq]
      have small : ∀ gate ∈ (unit :: rest).map AdmittedDescriptor.reservation,
          gate.held ≤ u64Max := by
        intro gate member
        obtain ⟨other, isUnit, rfl⟩ := List.mem_map.mp member
        exact (Sound.member sound (List.mem_map_of_mem isUnit)).held_small
      have released := releaseAll_inFlight _ sh.counters small
      refine ⟨_, _, StepSettles.exits a _ _ _ rfl rfl rfl ?_ ?_
        (releaseAll_width _ sh.counters) ⟨[], rfl⟩ fun _ => ⟨rfl, Nat.le_refl _⟩⟩
      · simp [ActorPoint.holdings, total, AdmittedDescriptor.holding, Function.comp_def,
          Nat.add_comm]
      · simpa [ActorPoint.holdings, total, AdmittedDescriptor.holding, Function.comp_def]
          using released
  | sends unit rest at_sending =>
      rw [at_sending]
      refine ⟨[], [], StepSettles.moved ?_ rfl rfl ⟨[], rfl⟩ fun _ => ⟨rfl, rfl⟩⟩
      intro weight
      simp only [Shared.total_holdings, ActorPoint.holdings, total_append, total_cons, total_nil,
        List.map_cons, total_map]
      omega
  | flushed sequence frontier at_flushing =>
      rw [at_flushing]
      exact ⟨[], [], StepSettles.moved (.refl _) rfl rfl
        ⟨[.consumerAckReturned sequence (.ok ())], rfl⟩
        (Neutral.sameMarks [_] (fun _ => ⟨rfl, rfl⟩) sh.history)⟩
  | flushFails sequence error at_flushing =>
      have nothing : a.point.holdings = [] := by
        rcases at_flushing with ⟨frontier, at_flushing⟩ | at_flushing
        · rw [at_flushing]
          rfl
        · rw [at_flushing]
          rfl
      rw [nothing]
      exact ⟨_, _, StepSettles.exits a _ [] _ rfl rfl rfl rfl rfl id
        ⟨[.consumerAckReturned sequence (.error error)], rfl⟩
        (SameMarks.grown (Neutral.sameMarks [_] (fun _ => ⟨rfl, rfl⟩) sh.history))⟩
  | flushedLast sequence at_flushing =>
      rw [at_flushing]
      exact ⟨_, _, StepSettles.exits _ _ [] _ rfl rfl rfl rfl rfl id
        ⟨[.consumerAckReturned sequence (.ok ())], rfl⟩
        (SameMarks.grown (Neutral.sameMarks [_] (fun _ => ⟨rfl, rfl⟩) sh.history))⟩
  | finishes permit sequence at_select =>
      rw [at_select]
      refine ⟨_, _, StepSettles.cancels permit ?_ rfl ?_ ⟨[.consumerAckCalled sequence], ?_⟩ ?_⟩
      all_goals rw [cancelAdmission_eq]
      · rfl
      · rfl
      · rfl
      · exact Neutral.sameMarks [_] (fun _ => ⟨rfl, rfl⟩) sh.history
  | leaves permit at_select =>
      rw [at_select]
      exact StepSettles.returns a.publish permit sh.completions (.ok ())

end OpendataIngest.Runtime.Pipeline
