import OpendataIngest.Runtime.Pipeline.AckSafety

/-!
# A clean exit

When `Runtime::run` returns `Ok(())` everything the buffer handed out is committed and
durably acked.  The actor leaves its loop when `in_flight` is zero, so nothing is
unprocessed; a worker that fails leaves a unit unprocessed for good, or returns an error.
-/

set_option autoImplicit false

namespace OpendataIngest.Runtime.Pipeline

open MachineInt Pool AckCoordinator

variable {R : Type}

/-! ## Leaving the loop -/

def ActorPoint.hasFailed : ActorPoint → Bool
  | .exited (.error _) => true
  | _ => false

/-- Where the actor leaves its loop there is nothing in flight, and where it returns
`Ok` there is nothing left to flush. -/
structure Drained (cfg : Config) (a : Actor) (history : List Event) : Prop where
  flushing : ∀ sequence, a.point = .finalFlush sequence → a.inFlight = 0
  left : a.point = .exited (.ok ()) → a.inFlight = 0 ∧
    (cfg.dryRun = false → a.source.pendingDurableAck = none)
  handedOut : a.point.hasFailed = false → ∀ sequences, .handedOut sequences ∈ history →
    ∀ q ∈ sequences, .registered q ∈ history

theorem drained_start (cfg : Config) : Drained cfg (Actor.start cfg) [] where
  flushing := nofun
  left := nofun
  handedOut _ := nofun

theorem hasFailed_of_running {point : ActorPoint} (running : point.hasExited = false) :
    point.hasFailed = false := by
  cases point with
  | exited result => cases running
  | _ => rfl

/-- The history grew by events that hand nothing out. -/
theorem Drained.handed_append {cfg : Config} {a : Actor} {history : List Event}
    (drained : Drained cfg a history) (events : List Event) (alive : a.point.hasFailed = false)
    (none : ∀ sequences, .handedOut sequences ∉ events) :
    ∀ sequences, .handedOut sequences ∈ events ++ history → ∀ q ∈ sequences,
      .registered q ∈ events ++ history := by
  intro sequences member q inList
  have early := (List.mem_append.mp member).resolve_left (none sequences)
  exact List.mem_append_right events (drained.handedOut alive sequences early q inList)

theorem admission_drained {cfg : Config} {a : Actor} {sh : Shared R} (gates : List Reservation)
    (descriptors : List SourceBatchDescriptor) (drained : Drained cfg a sh.history)
    (alive : a.point.hasFailed = false) :
    Drained cfg (admission a sh gates descriptors).1
      (admission a sh gates descriptors).2.history := by
  have points : (∀ sequence, (admission a sh gates descriptors).1.point ≠ .finalFlush sequence) ∧
      (admission a sh gates descriptors).1.point ≠ .exited (.ok ()) ∧
      ((admission a sh gates descriptors).1.point.hasFailed = false →
        (registerAll a.coordinator descriptors).2.1 = descriptors.map fun d => d.sequence.val) := by
    cases descriptors with
    | nil =>
        refine ⟨fun sequence flushing => ?_, fun left => ?_, fun _ => rfl⟩
        · cases flushing
        · cases left
    | cons first rest =>
        simp only [admission]
        split
        · refine ⟨fun sequence flushing => ?_, fun left => ?_, fun running => ?_⟩
          · cases flushing
          · cases left
          · cases running
        case h_2 registered =>
          refine ⟨fun sequence flushing => ?_, fun left => ?_, fun _ => ?_⟩
          · cases flushing
          · cases left
          · exact (registers_registerAll _ _).all registered
  refine ⟨fun sequence isFlush => absurd isFlush (points.1 sequence),
    fun left => absurd left points.2.1, fun succeeded sequences member q inList => ?_⟩
  rw [admission_history, List.append_cons] at member ⊢
  rcases List.mem_append.mp member with late | early
  · rcases admission_events late with ⟨_, _, isRegistered⟩ | isHanded
    · cases isRegistered
    · cases isHanded
      rw [points.2.2 succeeded]
      simp only [List.mem_append, List.mem_reverse]
      exact Or.inl (Or.inl (List.mem_map_of_mem inList))
  · exact List.mem_append_right _ (drained.handedOut alive sequences early q inList)

theorem receiveCommitted_drained {cfg : Config} {a : Actor} {sh : Shared R}
    (report : CommittedReport) (drained : Drained cfg a sh.history)
    (alive : a.point.hasFailed = false) :
    Drained cfg (receiveCommitted cfg a sh report).1
      (receiveCommitted cfg a sh report).2.history := by
  have shape := receiveCommitted_cases cfg a sh report
  generalize receiveCommitted cfg a sh report = moved at shape ⊢
  obtain ⟨a', sh'⟩ := moved
  cases shape with
  | rejected c error => exact ⟨nofun, nofun, nofun⟩
  | marked c marks acks =>
      cases acks with
      | silent =>
          exact ⟨nofun, nofun, fun _ => drained.handed_append
            [.markedCommitted _ _, .completionReceived _ _] alive (by simp)⟩
      | deferred frontier =>
          exact ⟨nofun, nofun, fun _ => drained.handed_append
            [.ackThrough frontier, .markedCommitted _ _, .completionReceived _ _] alive
            (by simp)⟩
      | flushes frontier =>
          exact ⟨nofun, nofun, fun _ => drained.handed_append [.consumerAckCalled frontier,
            .ackThrough frontier, .markedCommitted _ _, .completionReceived _ _] alive
            (by simp)⟩

theorem Drained.step [TypedRecords R] {cfg : Config} {s s' : State R} {action : Action R}
    (drained : Drained cfg s.actor s.shared.history)
    (calling : cfg.dryRun = false → AckBooks cfg s.actor s.shared.history)
    (accounts : Accounts cfg s) (taken : step cfg s action = some s') :
    Drained cfg s'.actor s'.shared.history := by
  cases step_cases accounts taken with
  | other sameActor events history fromSink =>
      rw [sameActor, history]
      refine ⟨drained.flushing, drained.left, fun alive => drained.handed_append _ alive ?_⟩
      intro sequences member
      cases fromSink _ member
  | actor shape =>
      have aliveAt : ∀ point, s.actor.point = point → point.hasFailed = false →
          s.actor.point.hasFailed = false := by
        intro point isPoint alive
        rw [isPoint, alive]
      generalize s'.actor = a', s'.shared = sh' at shape ⊢
      cases shape with
      | quiet same before running after =>
          rw [same.history]
          refine ⟨fun sequence flushing => ?_, fun left => ?_, fun _ => drained.handed_append
            [] (hasFailed_of_running running) (by simp)⟩
          · rw [flushing] at after
            exact after.elim
          · rw [left] at after
            obtain ⟨error, isError⟩ := after
            cases isError
      | admits gates descriptors polling =>
          exact admission_drained gates descriptors drained (aliveAt _ polling rfl)
      | receives permit report rest sh₁ select busy queue popped =>
          have sameHistory : sh₁.history = s.shared.history := by
            rw [popped, cancelAdmission_eq]
          exact receiveCommitted_drained report (sameHistory ▸ drained) (aliveAt _ select rfl)
      | flushed sequence frontier flushing =>
          exact ⟨nofun, nofun, fun _ => drained.handed_append
            [.consumerAckReturned sequence (.ok ())] (aliveAt _ flushing rfl) (by simp)⟩
      | flushFailed sequence error => exact ⟨nofun, nofun, nofun⟩
      | flushedLast sequence flushing =>
          have settled : cfg.dryRun = false → s.actor.source.pendingDurableAck = none :=
            fun live => (calling live).calling (by rw [flushing]; rfl)
          exact ⟨nofun, fun _ => ⟨drained.flushing sequence flushing, settled⟩,
            fun _ => drained.handed_append
              [.consumerAckReturned sequence (.ok ())] (aliveAt _ flushing rfl)
              (by simp)⟩
      | finishes permit sequence select closed empty =>
          rw [cancelAdmission_eq]
          exact ⟨fun _ _ => empty, nofun, fun _ => drained.handed_append
            [.consumerAckCalled sequence] (aliveAt _ select rfl) (by simp)⟩
      | leaves permit select closed empty settled =>
          rw [cancelAdmission_eq]
          exact ⟨nofun, fun _ => ⟨empty, settled⟩, fun _ => drained.handed_append
            [] (aliveAt _ select rfl) (by simp)⟩

theorem drained_of_reachable [TypedRecords R] {cfg : Config} {s : State R}
    (reachable : (machine R cfg).Reachable s) : Drained cfg s.actor s.shared.history :=
  reachable.invariant (P := fun s => Drained cfg s.actor s.shared.history) (drained_start cfg)
    fun _ _ _ before drained taken =>
      drained.step (fun live => ackBooks_of_reachable live before) (accounts_of_reachable before)
        taken

/-! ## Failures leave a trace

A worker that fails drops a unit that nobody will report, unless it panicked, the test
killswitch was thrown, or the run was being aborted. -/

theorem custody_lost {sh sh' : Shared R} {h h' : Holding} {range : Range}
    (same : sh'.holdings = sh.holdings) (own : h.custody = some range) (none : h'.custody = none) :
    total (custodyOf range) (sh'.holdings ++ [h']) <
      total (custodyOf range) (sh.holdings ++ [h]) := by
  have one : custodyOf range h = 1 := by rw [custodyOf, if_pos own]
  have zero : custodyOf range h' = 0 := by simp [custodyOf, none]
  simp only [total_append, total_cons, total_nil, same, one, zero]
  omega

theorem stepFetch_blame {cfg : Config} {killed decodersGone : Bool} {sh sh' : Shared R}
    {p p' : FetchPoint} {action : FetchAction}
    (taken : stepFetch cfg killed decodersGone sh p action = some (p', sh'))
    (failed : sh'.workerFailed = true) :
    sh.workerFailed = true ∨ killed = true ∨ (∃ e, p' = .exited (.error e)) ∨
      ∃ range, total (custodyOf range) (sh'.holdings ++ p'.holdings) <
        total (custodyOf range) (sh.holdings ++ p.holdings) := by
  cases fetchStep_of_stepFetch taken with
  | fetchFails | cutOff => exact Or.inr (Or.inr (Or.inr ⟨_, custody_lost rfl rfl rfl⟩))
  | isKilled killing => exact Or.inr (Or.inl killing)
  | panics => exact Or.inr (Or.inr (Or.inl ⟨_, rfl⟩))
  | _ => exact Or.inl failed

theorem stepDecode_blame [TypedRecords R] {cfg : Config} {fetchersGone writersGone : Bool}
    {sh sh' : Shared R} {p p' : DecodePoint R} {action : DecodeAction R}
    (taken : stepDecode cfg fetchersGone writersGone sh p action = some (p', sh'))
    (failed : sh'.workerFailed = true) :
    sh.workerFailed = true ∨ (∃ e, p' = .exited (.error e)) ∨
      ∃ range, total (custodyOf range) (sh'.holdings ++ p'.holdings) <
        total (custodyOf range) (sh.holdings ++ p.holdings) := by
  cases decodeStep_of_stepDecode taken with
  | decodeFails | cutOff => exact Or.inr (Or.inr ⟨_, custody_lost rfl rfl rfl⟩)
  | panics => exact Or.inr (Or.inl ⟨_, rfl⟩)
  | _ => exact Or.inl failed

theorem stepWriter_blame {cfg : Config} {decodersGone : Bool} {sh sh' : Shared R}
    {p p' : WriterPoint R} {action : WriterAction}
    (taken : stepWriter cfg decodersGone sh p action = some (p', sh'))
    (failed : sh'.workerFailed = true) :
    sh.workerFailed = true ∨ sh.hardAbort = true ∨ (∃ e, p' = .exited (.error e)) ∨
      ∃ range, total (custodyOf range) (sh'.holdings ++ p'.holdings) <
        total (custodyOf range) (sh.holdings ++ p.holdings) := by
  cases writerStep_of_stepWriter taken with
  | writeFails | checkFails => exact Or.inr (Or.inr (Or.inr ⟨_, custody_lost rfl rfl rfl⟩))
  | givesUp _ _ attempt unit error event answered spent =>
      rw [answered.holdings]
      exact Or.inr (Or.inr (Or.inr ⟨_, custody_lost rfl rfl rfl⟩))
  | abandons _ unit message inRetry aborting => exact Or.inr (Or.inl aborting)
  | panics => exact Or.inr (Or.inr (Or.inl ⟨_, rfl⟩))
  | _ => exact Or.inl failed

/-! ## Who answers for a failure -/

/-- A worker task ended with an error. -/
def State.panicked (s : State R) : Prop :=
  (∃ e, .exited (.error e) ∈ s.fetchers) ∨ (∃ e, .exited (.error e) ∈ s.decoders) ∨
    ∃ e, .exited (.error e) ∈ s.writers

/-- A registered range is neither marked nor in anybody's custody. -/
def State.lost (s : State R) : Prop :=
  ∃ range, total (custodyOf range) s.holdings + marks range s.shared.history <
    registrations range s.shared.history

def State.accounted (s : State R) : Prop :=
  s.panicked ∨ s.killed = true ∨ s.actor.point.hasFailed = true ∨ s.lost

/-- A failure of a worker is accounted for. -/
structure Blamed (cfg : Config) (s : State R) : Prop where
  failed : s.shared.workerFailed = true → s.accounted
  killed : s.killed = true → cfg.testFetchKillswitch = true
  aborted : s.shared.hardAbort = true → s.actor.point.hasFailed = true

/-- A worker that has left stays in its pool. -/
theorem exited_mem_set {A : Type} (exited : A → Bool) {pool : List A} {i : Nat} {p p' q : A}
    (present : pool[i]? = some p) (alive : exited p = false) (member : q ∈ pool)
    (left : exited q = true) : q ∈ pool.set i p' := by
  obtain ⟨j, atIndex⟩ := List.mem_iff_getElem?.mp member
  have differ : i ≠ j := by
    rintro rfl
    rw [present] at atIndex
    cases atIndex
    rw [alive] at left
    cases left
  refine List.mem_iff_getElem?.mpr ⟨j, ?_⟩
  rw [List.getElem?_set_ne differ, atIndex]

theorem lost_step [TypedRecords R] {cfg : Config} {s s' : State R} {action : Action R}
    (orderly : Orderly s) (accounts : Accounts cfg s) (taken : step cfg s action = some s')
    (lost : s.lost) : s'.lost := by
  obtain ⟨old, new, settles⟩ := step_settles orderly accounts.sound taken
  obtain ⟨range, missing⟩ := lost
  refine ⟨range, ?_⟩
  have moved := settles.custody.le range
  have weights := settles.exchange (custodyOf range)
  omega

/-- The custody a worker gives up is missing from the whole state. -/
theorem lost_of_local {s s' : State R} {before after : List Holding} (custody : Custody s)
    (exchange : Exchange s.holdings s'.holdings before after)
    (books : SameMarks s.shared.history s'.shared.history)
    (fewer : ∃ range, total (custodyOf range) after < total (custodyOf range) before) :
    s'.lost := by
  obtain ⟨range, less⟩ := fewer
  refine ⟨range, ?_⟩
  have balance := custody.le range
  have weights := exchange (custodyOf range)
  rw [(books range).1, (books range).2]
  omega

theorem panicked_step [TypedRecords R] {cfg : Config} {s s' : State R} {action : Action R}
    (taken : step cfg s action = some s') (panicked : s.panicked) : s'.panicked := by
  cases transition_of_step taken with
  | fetch present moved =>
      rcases panicked with ⟨e, member⟩ | others
      · exact Or.inl
          ⟨e, exited_mem_set _ present (stepFetch_flow moved).alive member rfl⟩
      · exact Or.inr others
  | decode present moved =>
      rcases panicked with fetcher | ⟨e, member⟩ | writer
      · exact Or.inl fetcher
      · exact Or.inr (Or.inl
          ⟨e, exited_mem_set _ present (stepDecode_flow moved).alive member rfl⟩)
      · exact Or.inr (Or.inr writer)
  | writer present moved =>
      rcases panicked with fetcher | decoder | ⟨e, member⟩
      · exact Or.inl fetcher
      · exact Or.inr (Or.inl decoder)
      · exact Or.inr (Or.inr
          ⟨e, exited_mem_set _ present (stepWriter_flow moved).alive member rfl⟩)
  | _ => exact panicked

theorem hasExited_of_hasFailed {point : ActorPoint} (failed : point.hasFailed = true) :
    point.hasExited = true := by
  cases point with
  | exited result => rfl
  | _ => cases failed

/-- The supervisor's flags only rise, for the reasons `Runtime::run` has, and an actor that
has returned does not move. -/
structure FlagsRise (cfg : Config) (s s' : State R) : Prop where
  killed_mono : s.killed = true → s'.killed = true
  killed : s'.killed = true → s.killed = true ∨ cfg.testFetchKillswitch = true
  hardAbort : s'.shared.hardAbort = true →
    s.shared.hardAbort = true ∨ s.actor.point.hasFailed = true
  returned : s.actor.point.hasExited = true → s'.actor = s.actor

theorem step_flagsRise [TypedRecords R] {cfg : Config} {s s' : State R} {action : Action R}
    (taken : step cfg s action = some s') : FlagsRise cfg s s' := by
  cases transition_of_step taken with
  | actor moved =>
      have flow := stepActor_flow moved
      refine ⟨id, Or.inl, fun aborted => Or.inl (flow.hardAbort ▸ aborted), fun exited => ?_⟩
      rw [flow.alive] at exited
      cases exited
  | fetch _ moved =>
      have flags := (stepFetch_flow moved).flags
      exact ⟨id, Or.inl, fun aborted => Or.inl (flags.hardAbort ▸ aborted), fun _ => rfl⟩
  | decode _ moved =>
      have flags := (stepDecode_flow moved).flags
      exact ⟨id, Or.inl, fun aborted => Or.inl (flags.hardAbort ▸ aborted), fun _ => rfl⟩
  | writer _ moved =>
      have flags := (stepWriter_flow moved).flags
      exact ⟨id, Or.inl, fun aborted => Or.inl (flags.hardAbort ▸ aborted), fun _ => rfl⟩
  | kills configured =>
      exact ⟨fun _ => rfl, fun _ => Or.inr configured, Or.inl, fun _ => rfl⟩
  | hardAborts failed =>
      refine ⟨id, Or.inl, fun _ => Or.inr ?_, fun _ => rfl⟩
      rw [failed]
      rfl
  | _ => exact ⟨id, Or.inl, Or.inl, fun _ => rfl⟩

theorem accounted_step [TypedRecords R] {cfg : Config} {s s' : State R} {action : Action R}
    (orderly : Orderly s) (accounts : Accounts cfg s) (taken : step cfg s action = some s')
    (accounted : s.accounted) : s'.accounted := by
  have rises := step_flagsRise taken
  rcases accounted with panicked | killed | failed | lost
  · exact Or.inl (panicked_step taken panicked)
  · exact Or.inr (Or.inl (rises.killed_mono killed))
  · refine Or.inr (Or.inr (Or.inl ?_))
    rw [rises.returned (hasExited_of_hasFailed failed), failed]
  · exact Or.inr (Or.inr (Or.inr (lost_step orderly accounts taken lost)))

section Lost

variable {cfg : Config} {s : State R} {i : Nat} {sh' : Shared R} (accounts : Accounts cfg s)
  (custody : Custody s)
include accounts custody

/-- A unit that a worker gives up is lost. -/
theorem lost_fetcher {killed decodersGone : Bool} {action : FetchAction} {p p' : FetchPoint}
    (present : s.fetchers[i]? = some p)
    (moved : stepFetch cfg killed decodersGone s.shared p action = some (p', sh'))
    (fewer : ∃ range, total (custodyOf range) (sh'.holdings ++ p'.holdings) <
      total (custodyOf range) (s.shared.holdings ++ p.holdings)) :
    ({ s with fetchers := s.fetchers.set i p', shared := sh' } : State R).lost := by
  obtain ⟨_, _, move⟩ := stepFetch_move (all_fetcher accounts.sound present) moved
  obtain ⟨events, extended, fromSink⟩ := move.frame.history
  refine lost_of_local custody (exchange_fetcher present fun _ => Nat.add_comm _ _) ?_ fewer
  simp only [extended]
  exact (neutral_of_fromSink fromSink).sameMarks _ _

theorem lost_decoder [TypedRecords R] {fetchersGone writersGone : Bool} {action : DecodeAction R}
    {p p' : DecodePoint R} (present : s.decoders[i]? = some p)
    (moved : stepDecode cfg fetchersGone writersGone s.shared p action = some (p', sh'))
    (fewer : ∃ range, total (custodyOf range) (sh'.holdings ++ p'.holdings) <
      total (custodyOf range) (s.shared.holdings ++ p.holdings)) :
    ({ s with decoders := s.decoders.set i p', shared := sh' } : State R).lost := by
  obtain ⟨_, _, move⟩ := stepDecode_move (all_decoder accounts.sound present) moved
  obtain ⟨events, extended, fromSink⟩ := move.frame.history
  refine lost_of_local custody (exchange_decoder present fun _ => Nat.add_comm _ _) ?_ fewer
  simp only [extended]
  exact (neutral_of_fromSink fromSink).sameMarks _ _

theorem lost_writer {decodersGone : Bool} {action : WriterAction} {p p' : WriterPoint R}
    (present : s.writers[i]? = some p)
    (moved : stepWriter cfg decodersGone s.shared p action = some (p', sh'))
    (fewer : ∃ range, total (custodyOf range) (sh'.holdings ++ p'.holdings) <
      total (custodyOf range) (s.shared.holdings ++ p.holdings)) :
    ({ s with writers := s.writers.set i p', shared := sh' } : State R).lost := by
  obtain ⟨_, _, move⟩ := stepWriter_move (all_writer accounts.sound present) moved
  obtain ⟨events, extended, fromSink⟩ := move.frame.history
  refine lost_of_local custody (exchange_writer present fun _ => Nat.add_comm _ _) ?_ fewer
  simp only [extended]
  exact (neutral_of_fromSink fromSink).sameMarks _ _

end Lost

/-- A step in which a worker fails leaves its trace at once. -/
theorem failure_accounted [TypedRecords R] {cfg : Config} {s s' : State R} {action : Action R}
    (blamed : Blamed cfg s) (accounts : Accounts cfg s) (custody : Custody s)
    (taken : step cfg s action = some s') (failed : s'.shared.workerFailed = true) :
    s.shared.workerFailed = true ∨ s'.accounted := by
  have placed : ∀ {A : Type} {pool : List A} {i : Nat} {p p' : A}, pool[i]? = some p →
      p' ∈ pool.set i p' := by
    intro A pool i p p' present
    exact List.mem_set (List.getElem?_eq_some_iff.mp present).1 p'
  cases transition_of_step taken with
  | actor moved => exact Or.inl ((stepActor_flow moved).workerFailed ▸ failed)
  | fetch present moved =>
      rcases stepFetch_blame moved failed with before | killed | ⟨e, rfl⟩ | fewer
      · exact Or.inl before
      · exact Or.inr (Or.inr (Or.inl killed))
      · exact Or.inr (Or.inl (Or.inl ⟨e, placed present⟩))
      · exact Or.inr (Or.inr (Or.inr (Or.inr
          (lost_fetcher accounts custody present moved fewer))))
  | decode present moved =>
      rcases stepDecode_blame moved failed with before | ⟨e, rfl⟩ | fewer
      · exact Or.inl before
      · exact Or.inr (Or.inl (Or.inr (Or.inl ⟨e, placed present⟩)))
      · exact Or.inr (Or.inr (Or.inr (Or.inr
          (lost_decoder accounts custody present moved fewer))))
  | writer present moved =>
      rcases stepWriter_blame moved failed with before | aborted | ⟨e, rfl⟩ | fewer
      · exact Or.inl before
      · exact Or.inr (Or.inr (Or.inr (Or.inl (blamed.aborted aborted))))
      · exact Or.inr (Or.inl (Or.inr (Or.inr ⟨e, placed present⟩)))
      · exact Or.inr (Or.inr (Or.inr (Or.inr
          (lost_writer accounts custody present moved fewer))))
  | _ => exact Or.inl failed

theorem Blamed.step [TypedRecords R] {cfg : Config} {s s' : State R} {action : Action R}
    (blamed : Blamed cfg s) (orderly : Orderly s) (accounts : Accounts cfg s)
    (custody : Custody s) (taken : step cfg s action = some s') : Blamed cfg s' := by
  have rises := step_flagsRise taken
  refine ⟨fun failed => ?_, fun killed => ?_, fun aborted => ?_⟩
  · rcases failure_accounted blamed accounts custody taken failed with before | accounted
    · exact accounted_step orderly accounts taken (blamed.failed before)
    · exact accounted
  · exact (rises.killed killed).elim blamed.killed id
  · have failed := (rises.hardAbort aborted).elim blamed.aborted id
    rw [rises.returned (hasExited_of_hasFailed failed), failed]

theorem blamed_of_reachable [TypedRecords R] {cfg : Config} {s : State R}
    (reachable : (machine R cfg).Reachable s) : Blamed cfg s :=
  reachable.invariant ⟨nofun, nofun, nofun⟩ fun _ _ _ before blamed taken =>
    blamed.step (orderly_of_reachable before) (accounts_of_reachable before)
      (custody_of_reachable before) taken

/-! ## The result of a run -/

/-- What `Runtime::run` has returned, over tasks that have all ended. -/
def Joined (s : State R) : Prop :=
  ∀ result, s.result = some result → s.fetchersGone = true ∧ s.decodersGone = true ∧
    s.writersGone = true ∧ ∃ actorResult, s.actor.point = .exited actorResult ∧
      result = runResult actorResult (firstError (s.fetchers.map FetchPoint.joined))
        (firstError (s.decoders.map DecodePoint.joined))
        (firstError (s.writers.map WriterPoint.joined))

theorem Joined.step [TypedRecords R] {cfg : Config} {s s' : State R} {action : Action R}
    (joined : Joined s) (taken : step cfg s action = some s') : Joined s' := by
  intro result isResult
  cases transition_of_step taken with
  | actor moved =>
      obtain ⟨_, _, _, actorResult, exited, _⟩ := joined result isResult
      have alive := (stepActor_flow moved).alive
      rw [exited] at alive
      cases alive
  | fetch present moved =>
      exact (not_gone_of_alive present (stepFetch_flow moved).alive
        (joined result isResult).1).elim
  | decode present moved =>
      exact (not_gone_of_alive present (stepDecode_flow moved).alive
        (joined result isResult).2.1).elim
  | writer present moved =>
      exact (not_gone_of_alive present (stepWriter_flow moved).alive
        (joined result isResult).2.2.1).elim
  | joins exited _ gone =>
      cases isResult
      exact ⟨gone.1, gone.2.1, gone.2.2, _, exited, rfl⟩
  | _ => exact joined result isResult

theorem joined_of_reachable [TypedRecords R] {cfg : Config} {s : State R}
    (reachable : (machine R cfg).Reachable s) : Joined s :=
  reachable.invariant nofun fun _ _ _ _ joined taken => joined.step taken

theorem firstError_ok {results : List (RuntimeResult Unit)} (ok : firstError results = .ok ())
    (e : RuntimeError) : .error e ∉ results := by
  induction results with
  | nil => simp
  | cons first rest ih =>
      cases first with
      | error other => cases ok
      | ok _ =>
          intro member
          exact ih ok (by simpa using member)

theorem runResult_ok {actor fetch decode sink : RuntimeResult Unit}
    (ok : runResult actor fetch decode sink = .ok ()) :
    actor = .ok () ∧ fetch = .ok () ∧ decode = .ok () ∧ sink = .ok () := by
  cases actor with
  | error e => cases ok
  | ok _ =>
      cases fetch with
      | error e => cases ok
      | ok _ =>
          cases decode with
          | error e => cases ok
          | ok _ =>
              cases sink with
              | error e => cases ok
              | ok _ => exact ⟨rfl, rfl, rfl, rfl⟩

/-! ## Nothing left -/

section Processed

variable {cfg : Config} {c : AckCoordinator} {history : List Event}
  (keeps : Keeps cfg c history) (processed : unprocessed history = [])
include processed

omit keeps in
theorem marked_of_processed {q : Nat} (registered : .registered q ∈ history) :
    .markedCommitted q q ∈ history := by
  by_contra unmarked
  have member : (q, q) ∈ unprocessed history := by
    refine List.mem_filter.mpr ⟨mem_registeredRanges.mpr ⟨rfl, registered⟩, ?_⟩
    simp [isMarked, unmarked]
  rw [processed] at member
  cases member

include keeps

theorem Keeps.nothing_pending : c.pending.entries = [] ∧
    c.frontier = (registeredRanges history).getLast?.map Prod.snd := by
  obtain ⟨popped, rest, ranges, tracks, settled, _⟩ := keeps
  cases rest with
  | nil =>
      rw [List.append_nil] at ranges
      rw [tracks.pending_eq, ← ranges]
      exact ⟨rfl, tracks.frontier_eq⟩
  | cons head tail =>
      have member : head ∈ unprocessed history := by
        refine List.mem_filter.mpr ⟨by simp [← ranges], ?_⟩
        rw [settled head rfl]
        rfl
      rw [processed] at member
      cases member

/-- The frontier is the largest admitted sequence. -/
theorem Keeps.frontier_is_largest {q : Nat} (registered : .registered q ∈ history) :
    ∃ top, c.frontier = some top ∧ .registered top ∈ history ∧
      ∀ other, .registered other ∈ history → other ≤ top := by
  have nonempty : registeredRanges history ≠ [] :=
    List.ne_nil_of_mem (mem_registeredRanges.mpr ⟨rfl, registered⟩ : (q, q) ∈ _)
  obtain ⟨_, isFrontier⟩ := keeps.nothing_pending processed
  have last := List.getLast?_eq_some_getLast nonempty
  obtain ⟨popped, rest, ranges, tracks, _⟩ := keeps
  obtain ⟨single, isRegistered⟩ := mem_registeredRanges.mp (List.getLast_mem nonempty)
  refine ⟨((registeredRanges history).getLast nonempty).2, ?_, single ▸ isRegistered, ?_⟩
  · rw [isFrontier, last]
    rfl
  · intro other otherRegistered
    have contiguous := tracks.contiguous
    have ordered := tracks.ordered
    rw [ranges] at contiguous ordered
    exact contiguous_high_le_last _ contiguous ordered _ last (other, other)
      (mem_registeredRanges.mpr ⟨rfl, otherRegistered⟩)

end Processed

theorem not_lost_of_processed {cfg : Config} {s : State R}
    (processed : unprocessed s.shared.history = [])
    (keeps : Keeps cfg s.actor.coordinator s.shared.history) : ¬ s.lost := by
  rintro ⟨range, missing⟩
  have once := keeps.registrations_le range
  have registered : range ∈ registeredRanges s.shared.history := by
    rw [← List.count_pos_iff, ← registrations_eq_count]
    omega
  obtain ⟨single, isRegistered⟩ := mem_registeredRanges.mp registered
  have marked := marked_of_processed processed isRegistered
  have none := (marks_eq_zero_iff range s.shared.history).mp (by omega)
  rw [isMarked, decide_eq_false_iff_not, ← single] at none
  exact none marked

/-- After an `Ok` of `Runtime::run` the last durable ack is the largest admitted sequence. -/
theorem last_ack_is_largest [TypedRecords R] {cfg : Config} (live : cfg.dryRun = false)
    (belowTop : cfg.baseline ≠ some u64Max) {s : State R} (reachable : (machine R cfg).Reachable s)
    (returned : s.result = some (.ok ())) {q : Nat}
    (registered : .registered q ∈ s.shared.history) :
    ∃ top, (durableAcks s.shared.history).getLast? = some top ∧
      .registered top ∈ s.shared.history ∧
      ∀ other, .registered other ∈ s.shared.history → other ≤ top := by
  have books := books_of_reachable reachable
  have acked := ackBooks_of_reachable live reachable
  obtain ⟨_, _, _, actorResult, exited, isResult⟩ := joined_of_reachable reachable _ returned
  obtain ⟨rfl, _⟩ := runResult_ok isResult.symm
  obtain ⟨empty, settled⟩ := (drained_of_reachable reachable).left exited
  have processed : unprocessed s.shared.history = [] := by
    rw [← List.length_eq_zero_iff, ← books.inFlight, empty]
  obtain ⟨top, isFrontier, topRegistered, largest⟩ :=
    books.keeps.frontier_is_largest processed registered
  refine ⟨top, ?_, topRegistered, largest⟩
  have owesNothing : outstanding s.actor = none := by
    rw [outstanding_of_not_flushing (by rw [exited]; rfl), settled live]
  rw [(acked.paid owesNothing).2]
  refine acked.reached top isFrontier fun b isBaseline => ?_
  obtain ⟨_, _, _, _, _, floor⟩ := books.keeps
  have small : b < u64Max := by
    refine lt_of_le_of_ne ?_ fun isTop => belowTop (isTop ▸ isBaseline)
    obtain ⟨value, _, rfl⟩ := Option.map_eq_some_iff.mp isBaseline
    exact val_le_u64Max value
  exact floor b isBaseline small (top, top) (mem_registeredRanges.mpr ⟨rfl, topRegistered⟩)

/-- `Ok` from `Runtime::run`: what was handed out is admitted, confirmed by the sink and
marked, nothing is pending, the last durable ack is the largest admitted sequence, and no
worker has failed. -/
theorem clean_exit_commits_everything [TypedRecords R] (cfg : Config)
    (live : cfg.dryRun = false) (noKillswitch : cfg.testFetchKillswitch = false)
    (belowTop : cfg.baseline ≠ some u64Max) (s : State R)
    (reachable : (machine R cfg).Reachable s) (returned : s.result = some (.ok ())) :
    (∀ sequences, .handedOut sequences ∈ s.shared.history → ∀ q ∈ sequences,
      .registered q ∈ s.shared.history ∧ .markedCommitted q q ∈ s.shared.history ∧
        CommitSeen s.shared.history (q, q)) ∧
    s.actor.coordinator.pending.entries = [] ∧
    (∀ q, .registered q ∈ s.shared.history →
      ∃ top, (durableAcks s.shared.history).getLast? = some top ∧
        .registered top ∈ s.shared.history ∧
        ∀ other, .registered other ∈ s.shared.history → other ≤ top) ∧
    s.shared.workerFailed = false ∧ ¬ s.lost := by
  have books := books_of_reachable reachable
  have drained := drained_of_reachable reachable
  obtain ⟨_, _, _, actorResult, exited, isResult⟩ := joined_of_reachable reachable _ returned
  obtain ⟨rfl, fetchOk, decodeOk, sinkOk⟩ := runResult_ok isResult.symm
  have empty := (drained.left exited).1
  have processed : unprocessed s.shared.history = [] := by
    rw [← List.length_eq_zero_iff, ← books.inFlight, empty]
  have notFailed : s.actor.point.hasFailed = false := by
    rw [exited]
    rfl
  have notLost := not_lost_of_processed processed books.keeps
  refine ⟨?_, (books.keeps.nothing_pending processed).1, ?_, ?_, notLost⟩
  · intro sequences member q inList
    have registered := drained.handedOut notFailed sequences member q inList
    have marked := marked_of_processed processed registered
    exact ⟨registered, marked, (confirmed_of_reachable live reachable).committed (q, q)
      (decide_eq_true marked)⟩
  · exact fun q => last_ack_is_largest live belowTop reachable returned
  · cases failed : s.shared.workerFailed with
    | false => rfl
    | true =>
        have blamed := blamed_of_reachable reachable
        rcases blamed.failed failed with panicked | killed | actorFailed | lost
        · rcases panicked with ⟨e, member⟩ | ⟨e, member⟩ | ⟨e, member⟩
          · exact absurd (List.mem_map.mpr ⟨_, member, rfl⟩) (firstError_ok fetchOk e)
          · exact absurd (List.mem_map.mpr ⟨_, member, rfl⟩) (firstError_ok decodeOk e)
          · exact absurd (List.mem_map.mpr ⟨_, member, rfl⟩) (firstError_ok sinkOk e)
        · have thrown := blamed.killed killed
          rw [noKillswitch] at thrown
          cases thrown
        · rw [notFailed] at actorFailed
          cases actorFailed
        · exact absurd lost notLost

/-- One batch, then shutdown, and every task ends. -/
def drainRun : List (Action SizedRecords) :=
  commitRun ++ [.actor (.flushed (.ok ())), .writer 0 .releaseBytes, .writer 0 .releasePermit,
    .cancelShutdownToken, .actor .observeShutdown, .actor .finish, .fetch 0 .leave,
    .decode 0 .leave, .writer 0 .leave, .writer 1 .leave, .writer 2 .leave, .writer 3 .leave,
    .join]

theorem clean_exit_commits_everything_one_batch : ∃ s : State SizedRecords,
    s.result = some (.ok ()) ∧ s.actor.coordinator.pending.entries = [] ∧
      (durableAcks s.shared.history).getLast? = some 0 := by
  have ends : ((machine SizedRecords narrowConfig).run drainRun).map (fun s =>
      (s.result, (durableAcks s.shared.history).getLast?)) = some (some (.ok ()), some 0) := by
    decide
  obtain ⟨s, ran, values⟩ := Option.map_eq_some_iff.mp ends
  simp only [Prod.mk.injEq] at values
  have reachable := (machine SizedRecords narrowConfig).run_reachable _ s ran
  have everything := clean_exit_commits_everything narrowConfig rfl rfl (by decide) s reachable
    values.1
  exact ⟨s, values.1, everything.2.1, values.2⟩

end OpendataIngest.Runtime.Pipeline
