import OpendataIngest.Runtime.Pipeline.AckSafety

/-!
# Who writes what into the history

The sink's answers enter the history only with the writer's steps that receive them, and
registrations only with the buffer's answer.  While the actor runs, it has registered
whatever the buffer handed out.
-/

set_option autoImplicit false

namespace OpendataIngest.Runtime.Pipeline

open MachineInt AckCoordinator

variable {R : Type}

/-- What the actor records outside of an admission. -/
def Event.isBookkeeping : Event → Bool
  | .completionReceived _ _ => true
  | .markedCommitted _ _ => true
  | .ackThrough _ => true
  | .consumerAckCalled _ => true
  | .consumerAckReturned _ _ => true
  | _ => false

/-- What an actor step that is no admission adds. -/
structure Bookkeeping (a' : Actor) (sh sh' : Shared R) : Prop where
  recorded : ∃ events, sh'.history = events ++ sh.history ∧
    (∀ event ∈ events, event.isBookkeeping = true) ∧
    ∀ f, .consumerAckCalled f ∈ events → a'.point.hasExited = false

theorem Bookkeeping.silent {a' : Actor} {sh sh' : Shared R} (same : sh'.history = sh.history) :
    Bookkeeping a' sh sh' where
  recorded := ⟨[], same, nofun, nofun⟩

theorem Bookkeeping.single {a' : Actor} {sh sh' : Shared R} (event : Event)
    (added : sh'.history = event :: sh.history) (isBookkeeping : event.isBookkeeping = true)
    (running : ∀ f, event = .consumerAckCalled f → a'.point.hasExited = false) :
    Bookkeeping a' sh sh' where
  recorded := by
    refine ⟨[event], added, ?_, ?_⟩
    · intro other member
      rw [List.mem_singleton.mp member]
      exact isBookkeeping
    · intro f member
      exact running f (List.mem_singleton.mp member).symm

theorem receiveCommitted_bookkeeping (cfg : Config) (a : Actor) (sh : Shared R)
    (report : CommittedReport) :
    Bookkeeping (receiveCommitted cfg a sh report).1 sh (receiveCommitted cfg a sh report).2 := by
  have shape := receiveCommitted_cases cfg a sh report
  generalize receiveCommitted cfg a sh report = moved at shape ⊢
  obtain ⟨a', sh'⟩ := moved
  cases shape with
  | rejected c error => exact .single _ rfl rfl nofun
  | marked c marks acks =>
      cases acks with
      | silent =>
          refine ⟨[_, _], rfl, ?_, ?_⟩
          all_goals simp [Event.isBookkeeping]
      | deferred frontier =>
          refine ⟨[_, _, _], rfl, ?_, ?_⟩
          all_goals simp [Event.isBookkeeping]
      | flushes frontier =>
          refine ⟨[_, _, _, _], rfl, ?_, ?_⟩
          · simp [Event.isBookkeeping]
          · exact fun _ _ => rfl

/-- An actor step is an admission, or it only keeps books. -/
theorem ActorCase.journal {cfg : Config} {a a' : Actor} {sh sh' : Shared R}
    {action : ActorAction} (shape : ActorCase cfg a sh action a' sh') :
    Bookkeeping a' sh sh' ∨ ∃ gates, a.point = .polling gates := by
  cases shape with
  | quiet same => exact Or.inl (.silent same.history)
  | admits gates descriptors polling => exact Or.inr ⟨gates, polling⟩
  | receives permit report rest sh₁ select busy queue popped =>
      have sameHistory : sh₁.history = sh.history := by
        rw [popped, cancelAdmission_eq]
      obtain ⟨events, added, kind, running⟩ :=
        (receiveCommitted_bookkeeping cfg a sh₁ report).recorded
      exact Or.inl ⟨events, sameHistory ▸ added, kind, running⟩
  | flushed sequence => exact Or.inl (.single _ rfl rfl nofun)
  | flushFailed sequence error => exact Or.inl (.single _ rfl rfl nofun)
  | flushedLast sequence => exact Or.inl (.single _ rfl rfl nofun)
  | finishes permit sequence =>
      refine Or.inl (.single (.consumerAckCalled sequence) ?_ rfl fun _ _ => rfl)
      rw [cancelAdmission_eq]
      rfl
  | leaves permit =>
      refine Or.inl (.silent ?_)
      rw [cancelAdmission_eq]
      rfl

/-- An actor that polls waits for the buffer. -/
theorem stepActor_polling {cfg : Config} {shutdown fetchersGone decodersGone writersGone : Bool}
    {a a' : Actor} {sh sh' : Shared R} {action : ActorAction} {gates : List Reservation}
    (polling : a.point = .polling gates)
    (taken : stepActor cfg shutdown fetchersGone decodersGone writersGone a sh action =
      some (a', sh')) :
    ∃ answer, action = .nextDescriptors answer := by
  cases actorStep_of_stepActor taken with
  | pollFails answer => exact ⟨answer, rfl⟩
  | admits answer => exact ⟨answer, rfl⟩
  | flushFails sequence error at_flushing => simp [polling] at at_flushing
  | _ => simp_all only [reduceCtorEq]

/-- The buffer's answer leads to an exit or to an admission. -/
theorem stepActor_answered {cfg : Config} {shutdown fetchersGone decodersGone writersGone : Bool}
    {a a' : Actor} {sh sh' : Shared R} {answer : Except BoxError (List BatchDescriptor)}
    (taken : stepActor cfg shutdown fetchersGone decodersGone writersGone a sh
      (.nextDescriptors answer) = some (a', sh')) :
    (a'.point.hasExited = true ∧ sh'.history = sh.history) ∨
      ∃ raw gates, answer = .ok raw ∧ (a', sh') = admission a sh gates
        (raw.map fun d => ⟨a.source.id, d.sequence, d.location, d.metadata⟩) := by
  cases actorStep_of_stepActor taken with
  | pollFails _ gates =>
      rw [dropGates_eq]
      exact Or.inl ⟨rfl, rfl⟩
  | admits _ gates descriptors at_polling answered =>
      cases answer with
      | error e => cases answered
      | ok raw =>
          cases answered
          exact Or.inr ⟨raw, gates, rfl, rfl⟩

/-! ## Registrations -/

theorem Registers.members {c last : AckCoordinator} {descriptors : List SourceBatchDescriptor}
    {sequences : List Nat} {answer : RuntimeResult Unit}
    (pass : Registers c descriptors last sequences answer) :
    ∀ q ∈ sequences, ∃ d ∈ descriptors, d.sequence.val = q := by
  induction pass with
  | done c => exact nofun
  | stops rejected => exact nofun
  | @goesOn c c' last descriptor rest sequences answer accepted later ih =>
      intro q member
      rcases List.mem_cons.mp member with rfl | later
      · exact ⟨descriptor, List.mem_cons_self, rfl⟩
      · obtain ⟨d, inRest, isSequence⟩ := ih q later
        exact ⟨d, List.mem_cons_of_mem descriptor inRest, isSequence⟩

/-- An admission registers all it was handed, unless the actor gives up. -/
theorem admission_registers (a : Actor) (sh : Shared R) (gates : List Reservation)
    (descriptors : List SourceBatchDescriptor)
    (running : (admission a sh gates descriptors).1.point.hasExited = false) :
    ∀ d ∈ descriptors,
      .registered d.sequence.val ∈ (admission a sh gates descriptors).2.history := by
  intro d member
  have succeeded : (registerAll a.coordinator descriptors).2.2 = .ok () := by
    cases descriptors with
    | nil => cases member
    | cons first rest =>
        cases outcome : (registerAll a.coordinator (first :: rest)).2.2 with
        | ok _ => rfl
        | error e =>
            simp only [admission, outcome] at running
            cases running
  rw [admission_history, (registers_registerAll a.coordinator descriptors).all succeeded]
  refine List.mem_append_left _ (List.mem_reverse.mpr (List.mem_map.mpr ?_))
  exact ⟨_, List.mem_map.mpr ⟨d, member, rfl⟩, rfl⟩

/-! ## Steps -/

/-- How an event of a step came about. -/
def Event.Caused (s s' : State R) (action : Action R) : Event → Prop
  | .sinkWriteReturned identity answer => ∃ i attempt unit, action = .writer i (.write answer) ∧
      s.writers[i]? = some (.writing attempt unit) ∧ identity = unit.commit.identity
  | .checkCommittedReturned _ answer => ∃ i, action = .writer i (.check answer)
  | .registered q => ∃ raw, action = .actor (.nextDescriptors (.ok raw)) ∧
      ∃ d ∈ raw, d.sequence.val = q
  | .consumerAckCalled _ => s'.actor.point.hasExited = false
  | _ => True

theorem Event.caused_of_isBookkeeping {s s' : State R} {action : Action R} {event : Event}
    (isBookkeeping : event.isBookkeeping = true)
    (running : ∀ f, event = .consumerAckCalled f → s'.actor.point.hasExited = false) :
    event.Caused s s' action := by
  cases event with
  | consumerAckCalled f => exact running f rfl
  | completionReceived low high => trivial
  | markedCommitted low high => trivial
  | ackThrough f => trivial
  | consumerAckReturned f answer => trivial
  | _ => cases isBookkeeping

theorem stepDecode_history [TypedRecords R] {cfg : Config} {fetchersGone writersGone : Bool}
    {sh sh' : Shared R} {p p' : DecodePoint R} {action : DecodeAction R}
    (taken : stepDecode cfg fetchersGone writersGone sh p action = some (p', sh')) :
    sh'.history = sh.history := by
  cases decodeStep_of_stepDecode taken with
  | panics _ message alive =>
      obtain ⟨k, free, dropped⟩ := dropHeld_eq sh.fail p.reservation?
      rw [dropped]
      rfl
  | _ => rfl

/-- A writer records the sink's answers where it receives them, and nothing else but its
calls. -/
theorem stepWriter_journal {cfg : Config} {decodersGone : Bool} {sh sh' : Shared R}
    {p p' : WriterPoint R} {action : WriterAction}
    (taken : stepWriter cfg decodersGone sh p action = some (p', sh')) :
    sh'.history = sh.history ∨
      (∃ identity, sh'.history = .sinkWriteCalled identity :: sh.history) ∨
      (∃ attempt unit answer, action = .write answer ∧ p = .writing attempt unit ∧
        sh'.history = .sinkWriteReturned unit.commit.identity answer :: sh.history) ∨
      ∃ identity answer, action = .check answer ∧
        sh'.history = .checkCommittedReturned identity answer :: sh.history := by
  cases writerStep_of_stepWriter taken with
  | takes | wakes => exact Or.inr (Or.inl ⟨_, rfl⟩)
  | writes attempt unit | writeFails attempt unit | writeUnclear attempt unit =>
      exact Or.inr (Or.inr (Or.inl ⟨attempt, unit, _, rfl, rfl, rfl⟩))
  | finds attempt unit | checkFails attempt unit =>
      exact Or.inr (Or.inr (Or.inr ⟨unit.commit.identity, _, rfl, rfl⟩))
  | retries _ _ attempt unit error event answered left =>
      cases answered with
      | write => exact Or.inr (Or.inr (Or.inl ⟨attempt, unit, _, rfl, rfl, rfl⟩))
      | check => exact Or.inr (Or.inr (Or.inr ⟨unit.commit.identity, _, rfl, rfl⟩))
  | givesUp _ _ attempt unit error event answered spent =>
      cases answered with
      | write => exact Or.inr (Or.inr (Or.inl ⟨attempt, unit, _, rfl, rfl, rfl⟩))
      | check => exact Or.inr (Or.inr (Or.inr ⟨unit.commit.identity, _, rfl, rfl⟩))
  | panics _ message alive =>
      obtain ⟨k, free, dropped⟩ := dropHeld_eq sh.fail p.reservation?
      rw [dropped]
      exact Or.inl rfl
  | _ => exact Or.inl rfl

theorem stepActor_caused {cfg : Config} {s : State R} {action : ActorAction} {a' : Actor}
    {sh' : Shared R} (taken : stepActor cfg s.shutdown s.fetchersGone s.decodersGone s.writersGone
      s.actor s.shared action = some (a', sh')) :
    ∃ events, sh'.history = events ++ s.shared.history ∧
      ∀ event ∈ events, event.Caused s { s with actor := a', shared := sh' } (.actor action) := by
  rcases (stepActor_cases taken).journal with books | ⟨gates, polling⟩
  · obtain ⟨events, added, kind, running⟩ := books.recorded
    refine ⟨events, added, fun event member => ?_⟩
    refine Event.caused_of_isBookkeeping (kind event member) ?_
    rintro f rfl
    exact running f member
  · obtain ⟨answer, rfl⟩ := stepActor_polling polling taken
    rcases stepActor_answered taken with ⟨_, same⟩ | ⟨raw, gates', rfl, admitted⟩
    · exact ⟨[], same, nofun⟩
    · have history : sh'.history = _ := congrArg (fun moved => moved.2.history) admitted
      rw [admission_history, List.append_cons] at history
      refine ⟨_, history, fun event member => ?_⟩
      rcases admission_events member with ⟨q, isNew, rfl⟩ | rfl
      · obtain ⟨d, inDescriptors, isSequence⟩ := (registers_registerAll _ _).members q isNew
        obtain ⟨d', inRaw, rfl⟩ := List.mem_map.mp inDescriptors
        exact ⟨raw, rfl, d', inRaw, isSequence⟩
      · trivial

theorem step_caused [TypedRecords R] {cfg : Config} {s s' : State R} {action : Action R}
    (taken : step cfg s action = some s') : ∃ events,
      s'.shared.history = events ++ s.shared.history ∧
        ∀ event ∈ events, event.Caused s s' action := by
  cases transition_of_step taken with
  | actor moved => exact stepActor_caused moved
  | fetch _ moved => exact ⟨[], stepFetch_history moved, nofun⟩
  | decode _ moved => exact ⟨[], stepDecode_history moved, nofun⟩
  | @writer i _ _ _ _ present moved =>
      rcases stepWriter_journal moved with same | ⟨identity, called⟩ |
        ⟨attempt, unit, answer, rfl, rfl, returned⟩ | ⟨identity, answer, rfl, returned⟩
      · exact ⟨[], same, nofun⟩
      · refine ⟨[_], called, fun event member => ?_⟩
        cases List.mem_singleton.mp member
        trivial
      · refine ⟨[_], returned, fun event member => ?_⟩
        cases List.mem_singleton.mp member
        exact ⟨i, attempt, unit, rfl, present, rfl⟩
      · refine ⟨[_], returned, fun event member => ?_⟩
        cases List.mem_singleton.mp member
        exact ⟨i, rfl⟩
  | _ => exact ⟨[], rfl, nofun⟩

theorem running_before [TypedRecords R] {cfg : Config} {s s' : State R} {action : Action R}
    (taken : step cfg s action = some s') (running : s'.actor.point.hasExited = false) :
    s.actor.point.hasExited = false := by
  cases transition_of_step taken with
  | actor moved => exact (stepActor_flow moved).alive
  | _ => exact running

/-- Only a writer's own steps move it. -/
theorem step_writers [TypedRecords R] {cfg : Config} {s s' : State R} {action : Action R}
    (taken : step cfg s action = some s') {i : Nat}
    (other : ∀ write, action ≠ .writer i write) : s'.writers[i]? = s.writers[i]? := by
  cases transition_of_step taken with
  | @writer j action _ _ _ _ _ =>
      have differs : j ≠ i := by
        rintro rfl
        exact other action rfl
      exact List.getElem?_set_ne differs
  | _ => rfl

/-- An actor that goes on after the buffer's answer has registered all of it. -/
theorem step_registers [TypedRecords R] {cfg : Config} {s s' : State R}
    {raw : List BatchDescriptor}
    (taken : step cfg s (.actor (.nextDescriptors (.ok raw))) = some s')
    (running : s'.actor.point.hasExited = false) :
    ∀ d ∈ raw, .registered d.sequence.val ∈ s'.shared.history := by
  obtain ⟨⟨a', sh'⟩, moved, rfl⟩ := Option.map_eq_some_iff.mp taken
  rcases stepActor_answered moved with ⟨exited, _⟩ | ⟨raw', gates, same, admitted⟩
  · rw [exited] at running
    cases running
  · cases same
    intro d member
    have both := (Prod.ext_iff.mp admitted)
    simp only at both running ⊢
    rw [both.1] at running
    rw [both.2]
    exact admission_registers _ _ _ _ running _ (List.mem_map.mpr ⟨d, member, rfl⟩)

end OpendataIngest.Runtime.Pipeline
