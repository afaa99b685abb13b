import OpendataIngest.Runtime.Pipeline.Unwinding

/-!
# A run in which nothing fails succeeds

While no fetch, decode or write fails, nobody panics and the actor's own calls succeed, no
error arises inside the pipeline: no queue loses its readers too early, nothing is aborted,
and no unit is missed.  So `Runtime::run` returns `Ok`, in a dry run as well, and every
descriptor it was handed has been committed.
-/

set_option autoImplicit false

namespace OpendataIngest.Runtime.Pipeline

open MachineInt Pool AckCoordinator

variable {R : Type}

/-- No error has arisen. -/
structure Calm (s : State R) : Prop where
  working : s.actor.point.hasExited = false → s.shared.workerFailed = false
  unread : s.actor.point.hasExited = false → ∀ error, .fatal error ∉ s.shared.completions
  exits : s.actor.point.hasFailed = false
  fetchers : ∀ p ∈ s.fetchers, p.joined = .ok ()
  decoders : ∀ p ∈ s.decoders, p.joined = .ok ()
  writers : ∀ p ∈ s.writers, p.joined = .ok ()

theorem calm_start (cfg : Config) : Calm (State.start cfg : State R) where
  working _ := rfl
  unread _ _ := List.not_mem_nil
  exits := rfl
  fetchers p member := by
    rw [List.eq_of_mem_replicate member]
    rfl
  decoders p member := by
    rw [List.eq_of_mem_replicate member]
    rfl
  writers p member := by
    rw [List.eq_of_mem_replicate member]
    rfl

/-! ## Workers -/

/-- A worker that has not panicked ends well. -/
theorem stepFetch_joined {cfg : Config} {killed decodersGone : Bool} {sh sh' : Shared R}
    {p p' : FetchPoint} {action : FetchAction} (quiet : action.faults p' = [])
    (taken : stepFetch cfg killed decodersGone sh p action = some (p', sh')) :
    p'.joined = .ok () := by
  cases fetchStep_of_stepFetch taken with
  | panics => cases quiet
  | _ => rfl

theorem stepDecode_joined [TypedRecords R] {cfg : Config} {fetchersGone writersGone : Bool}
    {sh sh' : Shared R} {p p' : DecodePoint R} {action : DecodeAction R}
    (quiet : action.faults p' = [])
    (taken : stepDecode cfg fetchersGone writersGone sh p action = some (p', sh')) :
    p'.joined = .ok () := by
  cases decodeStep_of_stepDecode taken with
  | panics => cases quiet
  | _ => rfl

theorem stepWriter_joined {cfg : Config} {decodersGone : Bool} {sh sh' : Shared R}
    {p p' : WriterPoint R} {action : WriterAction} (quiet : action.faults p' = [])
    (taken : stepWriter cfg decodersGone sh p action = some (p', sh')) :
    p'.joined = .ok () := by
  cases writerStep_of_stepWriter taken with
  | panics => cases quiet
  | retries _ _ _ _ _ _ answered =>
      cases answered
      all_goals rfl
  | givesUp _ _ _ _ _ _ answered =>
      cases answered
      all_goals rfl
  | _ => rfl

/-- A step in which no error arises, before anything has failed. -/
structure Smooth (sh sh' : Shared R) : Prop where
  working : sh'.workerFailed = false
  queue : Announces sh.completions sh'.completions

section Workers

variable {cfg : Config} {sh sh' : Shared R} (intact : Intact sh)
include intact

theorem stepFetch_smooth {killed decodersGone : Bool} {p p' : FetchPoint} {action : FetchAction}
    (notFatal : p.isFatal = false) (staffed : decodersGone = false)
    (quiet : action.faults p' = [])
    (taken : stepFetch cfg killed decodersGone sh p action = some (p', sh')) : Smooth sh sh' := by
  cases fetchStep_of_stepFetch taken with
  | cutOff unit gone =>
      rw [staffed] at gone
      cases gone
  | unheard | reports => cases notFatal
  | aborts aborting | abandons unit aborting =>
      rw [intact.hardAbort] at aborting
      cases aborting
  | fetchFails | isKilled | panics => cases quiet
  | _ => exact ⟨intact.workerFailed, Or.inl rfl⟩

theorem stepDecode_smooth [TypedRecords R] {fetchersGone writersGone : Bool}
    {p p' : DecodePoint R} {action : DecodeAction R} (notFatal : p.isFatal = false)
    (staffed : writersGone = false) (quiet : action.faults p' = [])
    (taken : stepDecode cfg fetchersGone writersGone sh p action = some (p', sh')) :
    Smooth sh sh' := by
  cases decodeStep_of_stepDecode taken with
  | cutOff unit gone =>
      rw [staffed] at gone
      cases gone
  | unheard | reports => cases notFatal
  | dryRunUnheard report reservation closed =>
      rw [intact.completionClosed] at closed
      cases closed
  | aborts aborting | abandons unit aborting =>
      rw [intact.hardAbort] at aborting
      cases aborting
  | decodeFails | panics => cases quiet
  | reportsDryRun report => exact ⟨intact.workerFailed, Or.inr ⟨report, rfl⟩⟩
  | _ => exact ⟨intact.workerFailed, Or.inl rfl⟩

theorem stepWriter_smooth {decodersGone : Bool} {p p' : WriterPoint R} {action : WriterAction}
    (notFatal : p.isFatal = false) (quiet : action.faults p' = [])
    (taken : stepWriter cfg decodersGone sh p action = some (p', sh')) : Smooth sh sh' := by
  cases writerStep_of_stepWriter taken with
  | unheard | reports => cases notFatal
  | commitUnheard report reservation closed =>
      rw [intact.completionClosed] at closed
      cases closed
  | aborts aborting | abandons _ _ _ _ aborting =>
      rw [intact.hardAbort] at aborting
      cases aborting
  | writeFails | checkFails | panics => cases quiet
  | givesUp _ _ _ _ _ _ answered =>
      cases answered
      all_goals cases quiet
  | retries _ _ _ _ _ _ answered =>
      cases answered
      all_goals exact ⟨intact.workerFailed, Or.inl rfl⟩
  | reportsCommit report => exact ⟨intact.workerFailed, Or.inr ⟨report, rfl⟩⟩
  | _ => exact ⟨intact.workerFailed, Or.inl rfl⟩

end Workers

/-! ## The actor -/

section Actor

variable {cfg : Config} {s : State R} (orderly : Orderly s) (custody : Custody s)
  (books : Books cfg s.actor s.shared.history) (intact : Intact s.shared)
include orderly intact

/-- Pools that have gone have left nothing behind. -/
theorem no_unit_left (gone : s.fetchersGone = true ∧ s.decodersGone = true ∧
    s.writersGone = true) {h : Holding} (member : h ∈ s.holdings) :
    h ∈ s.actor.point.holdings ∨ h ∈ s.shared.completions.flatMap WriteCompletion.holdings := by
  have descriptors := (orderly.descriptors_read intact gone.1).2
  have fetched := (orderly.fetched_read intact gone.2.1).2
  have sinkCommits := (orderly.sinkCommits_read intact gone.2.2).2
  simp only [State.holdings, Shared.holdings, descriptors, fetched, sinkCommits, List.map_nil,
    List.nil_append, List.mem_append] at member
  rcases member with (((inReport | inActor) | inFetcher) | inDecoder) | inWriter
  · exact Or.inr inReport
  · exact Or.inl inActor
  · obtain ⟨p, isWorker, holds⟩ := List.mem_flatMap.mp inFetcher
    have exited := List.all_eq_true.mp gone.1 p isWorker
    cases p with
    | exited => cases holds
    | _ => cases exited
  · obtain ⟨p, isWorker, holds⟩ := List.mem_flatMap.mp inDecoder
    have exited := List.all_eq_true.mp gone.2.1 p isWorker
    cases p with
    | exited => cases holds
    | _ => cases exited
  · obtain ⟨p, isWorker, holds⟩ := List.mem_flatMap.mp inWriter
    have exited := List.all_eq_true.mp gone.2.2 p isWorker
    cases p with
    | exited => cases holds
    | _ => cases exited

include custody books

/-- The actor does not wait for units that nobody has. -/
theorem not_alone {permit : Bool} (select : s.actor.point = .select permit)
    (empty : s.shared.completions = []) (busy : 0 < s.actor.inFlight) :
    ¬ (s.fetchersGone = true ∧ s.decodersGone = true ∧ s.writersGone = true) := by
  intro gone
  rw [books.inFlight] at busy
  obtain ⟨range, waiting⟩ := List.exists_mem_of_length_pos busy
  obtain ⟨place, present⟩ := places_singleton custody books.keeps intact waiting
  have counted := length_places s range
  rw [present] at counted
  obtain ⟨h, member, holds⟩ := exists_of_total_pos (custodyOf range) s.holdings (by
    rw [← counted]
    exact Nat.one_pos)
  have held : h.custody = some range := by
    by_contra other
    simp [custodyOf, other] at holds
  rcases no_unit_left orderly intact gone member with inActor | inReport
  · rw [select] at inActor
    cases permit with
    | false => cases inActor
    | true =>
        rw [List.mem_singleton.mp inActor] at held
        cases held
  · rw [empty] at inReport
    cases inReport

/-- The actor goes on with its queue, or leaves its loop. -/
theorem stepActor_smooth {a' : Actor} {sh' : Shared R} {action : ActorAction}
    (unread : ∀ error, .fatal error ∉ s.shared.completions)
    (quiet : action.faults a'.point = [])
    (taken : stepActor cfg s.shutdown s.fetchersGone s.decodersGone s.writersGone s.actor s.shared
      action = some (a', sh')) :
    a'.point.hasFailed = false ∧ (a'.point.hasExited = false →
      ∀ error, .fatal error ∉ sh'.completions) := by
  have running := (stepActor_flow taken).alive
  cases actorStep_of_stepActor taken with
  | aborts permit error at_select aborting =>
      rw [intact.hardAbort] at aborting
      cases aborting
  | closes permit =>
      rw [cancelAdmission_eq]
      exact ⟨rfl, fun _ => unread⟩
  | receives permit report rest at_select queue busy =>
      have waiting := report_unprocessed custody books.keeps report
        (by rw [queue]; exact List.mem_cons_self)
      obtain ⟨same, rests⟩ := receiveCommitted_rests cfg
        { s.shared.cancelAdmission permit with completions := rest }
        fun _ _ => books.keeps.not_rejected waiting
      rw [same]
      refine ⟨?_, fun _ error member => unread error ?_⟩
      · rcases rests with isSelect | ⟨frontier, isFlush⟩
        · rw [isSelect]
          rfl
        · rw [isFlush]
          rfl
      · rw [queue]
        exact List.mem_cons_of_mem _ member
  | receivesFatal permit error rest at_select queue =>
      refine absurd ?_ (unread error)
      rw [queue]
      exact List.mem_cons_self
  | workersGone permit error at_select queue busy gone =>
      exact absurd gone (not_alone orderly custody books intact at_select queue busy)
  | pollFails => cases quiet
  | admits answer gates descriptors =>
      cases descriptors with
      | nil =>
          simp only [admission, dropGates_eq]
          exact ⟨rfl, fun _ => unread⟩
      | cons first rest =>
          revert quiet
          simp only [admission, dropGates_eq, recordRegistered_eq]
          split
          · intro quiet
            cases quiet
          · exact fun _ => ⟨rfl, fun _ => unread⟩
  | sendFails unit rest error at_sending closed =>
      have isOpen : s.actor.admissionOpen = true :=
        orderly.admitting (by rw [at_sending]; rfl)
      have notClosed := orderly.descriptorClosed running
      rw [isOpen] at notClosed
      rcases closed with isClosed | gone
      · rw [notClosed] at isClosed
        cases isClosed
      · have isClosed := (orderly.descriptors_read intact gone).1
        rw [notClosed] at isClosed
        cases isClosed
  | flushFails => cases quiet
  | flushedLast | leaves =>
      refine ⟨rfl, fun stays => ?_⟩
      cases stays
  | finishes permit =>
      rw [cancelAdmission_eq]
      exact ⟨rfl, fun _ => unread⟩
  | _ => exact ⟨rfl, fun _ => unread⟩

end Actor

/-! ## Whole runs -/

theorem joined_set {A : Type} {joined : A → RuntimeResult Unit} {pool : List A} {i : Nat}
    {p' : A} (ended : ∀ p ∈ pool, joined p = .ok ()) (new : joined p' = .ok ()) :
    ∀ p ∈ pool.set i p', joined p = .ok () := by
  intro p member
  rcases List.mem_or_eq_of_mem_set member with old | same
  · exact ended p old
  · rw [same]
    exact new

/-- A worker's step that is smooth as long as the actor runs. -/
theorem Calm.worker {s s' : State R} (calm : Calm s) (sameActor : s'.actor = s.actor)
    (smooth : s.actor.point.hasExited = false → Smooth s.shared s'.shared)
    (fetchers : ∀ p ∈ s'.fetchers, p.joined = .ok ())
    (decoders : ∀ p ∈ s'.decoders, p.joined = .ok ())
    (writers : ∀ p ∈ s'.writers, p.joined = .ok ()) : Calm s' := by
  refine ⟨fun running => ?_, fun running => ?_, ?_, fetchers, decoders, writers⟩
  · rw [sameActor] at running
    exact (smooth running).working
  · rw [sameActor] at running
    exact (smooth running).queue.no_fatal (calm.unread running)
  · rw [sameActor]
    exact calm.exits

theorem Calm.intact {s : State R} (calm : Calm s) (orderly : Orderly s)
    (running : s.actor.point.hasExited = false) : Intact s.shared := by
  have notTornDown := not_tornDown orderly running
  rw [not_or] at notTornDown
  exact ⟨calm.working running, by simpa using notTornDown.2, by simpa using notTornDown.1⟩

theorem Calm.step [TypedRecords R] {cfg : Config} {s s' : State R} {action : Action R}
    (calm : Calm s) (reachable : (machine R cfg).Reachable s)
    (taken : Pipeline.step cfg s action = some s') (quiet : faults action s' = []) : Calm s' := by
  have orderly := orderly_of_reachable reachable
  cases transition_of_step taken with
  | @actor _ a' sh' moved =>
      have flow := stepActor_flow moved
      have smooth := stepActor_smooth orderly (custody_of_reachable reachable)
        (books_of_reachable reachable) (calm.intact orderly flow.alive) (calm.unread flow.alive)
        quiet moved
      refine ⟨fun _ => ?_, smooth.2, smooth.1, calm.fetchers, calm.decoders, calm.writers⟩
      rw [flow.workerFailed]
      exact calm.working flow.alive
  | @fetch i _ p p' sh' present moved =>
      rw [faults_fetch _ present] at quiet
      refine calm.worker rfl (fun running => ?_)
        (joined_set calm.fetchers (stepFetch_joined quiet moved)) calm.decoders calm.writers
      have intact := calm.intact orderly running
      refine stepFetch_smooth intact ?_ ?_ quiet moved
      · by_contra fatal
        have failed := orderly.fetchFatal p (List.mem_of_getElem? present) (by simpa using fatal)
        rw [intact.workerFailed] at failed
        cases failed
      · by_contra gone
        exact not_gone_of_alive present (stepFetch_flow moved).alive
          (orderly.fetched_read intact (by simpa using gone)).1
  | @decode i _ p p' sh' present moved =>
      rw [faults_decode _ present] at quiet
      refine calm.worker rfl (fun running => ?_) calm.fetchers
        (joined_set calm.decoders (stepDecode_joined quiet moved)) calm.writers
      have intact := calm.intact orderly running
      refine stepDecode_smooth intact ?_ ?_ quiet moved
      · by_contra fatal
        have failed := orderly.decodeFatal p (List.mem_of_getElem? present) (by simpa using fatal)
        rw [intact.workerFailed] at failed
        cases failed
      · by_contra gone
        exact not_gone_of_alive present (stepDecode_flow moved).alive
          (orderly.sinkCommits_read intact (by simpa using gone)).1
  | @writer i _ p p' sh' present moved =>
      rw [faults_writer _ present] at quiet
      refine calm.worker rfl (fun running => ?_) calm.fetchers calm.decoders
        (joined_set calm.writers (stepWriter_joined quiet moved))
      have intact := calm.intact orderly running
      refine stepWriter_smooth intact ?_ quiet moved
      by_contra fatal
      have failed := orderly.writeFatal p (List.mem_of_getElem? present) (by simpa using fatal)
      rw [intact.workerFailed] at failed
      cases failed
  | discardsDescriptor _ ended =>
      refine ⟨fun running => ?_, fun running => ?_, calm.exits, calm.fetchers, calm.decoders,
        calm.writers⟩
      all_goals
        rw [ended.1] at running
        cases running
  | _ => exact ⟨calm.working, calm.unread, calm.exits, calm.fetchers, calm.decoders, calm.writers⟩

theorem calm_of_reachable [TypedRecords R] {cfg : Config} {s : State R × List Fault}
    (reachable : ((machine R cfg).traced faults).Reachable s) : s.2 = [] → Calm s.1 := by
  refine reachable.invariant (P := fun s => s.2 = [] → Calm s.1) (fun _ => calm_start cfg) ?_
  rintro ⟨s, log⟩ action ⟨s', log'⟩ before calm taken none
  obtain ⟨steps, logged⟩ := Machine.traced_step.mp taken
  simp only at none logged calm steps ⊢
  rw [none] at logged
  obtain ⟨empty, quiet⟩ := List.append_eq_nil_iff.mp logged.symm
  exact (calm empty).step before.untraced steps quiet

theorem firstError_joined {A : Type} {joined : A → RuntimeResult Unit} {pool : List A}
    (ended : ∀ p ∈ pool, joined p = .ok ()) : firstError (pool.map joined) = .ok () := by
  induction pool with
  | nil => rfl
  | cons head rest ih =>
      rw [List.map_cons, ended head List.mem_cons_self]
      exact ih fun p member => ended p (List.mem_cons_of_mem _ member)

/-- The result of a run in which nothing has failed. -/
theorem returns_ok [TypedRecords R] {cfg : Config} {s : State R}
    (reachable : ((machine R cfg).traced faults).Reachable (s, []))
    {result : RuntimeResult Unit} (returned : s.result = some result) :
    result = .ok () ∧ ∀ sequences, .handedOut sequences ∈ s.shared.history →
      ∀ q ∈ sequences, .markedCommitted q q ∈ s.shared.history := by
  have calm := calm_of_reachable reachable rfl
  have base := reachable.untraced
  have books := books_of_reachable base
  obtain ⟨_, _, _, actorResult, exited, isResult⟩ := joined_of_reachable base result returned
  have actorOk : actorResult = .ok () := by
    have notFailed := calm.exits
    rw [exited] at notFailed
    cases actorResult with
    | ok _ => rfl
    | error e => cases notFailed
  rw [actorOk] at exited isResult
  rw [isResult, firstError_joined calm.fetchers, firstError_joined calm.decoders,
    firstError_joined calm.writers]
  refine ⟨rfl, fun sequences member q inList => ?_⟩
  have drained := drained_of_reachable base
  have processed : unprocessed s.shared.history = [] := by
    rw [← List.length_eq_zero_iff, ← books.inFlight, (drained.left exited).1]
  exact marked_of_processed processed (drained.handedOut calm.exits sequences member q inList)

/-- A run in which nothing has failed has lost no unit, and returns `Ok` if it returns; every
descriptor it was handed is then committed. -/
theorem faultless_run_succeeds [TypedRecords R] (cfg : Config) (s : State R)
    (reachable : ((machine R cfg).traced faults).Reachable (s, [])) :
    s.actor.point.hasFailed = false ∧
    (s.actor.point.hasExited = false → ∀ range ∈ unprocessed s.shared.history,
      ∃ place, s.places range = [place]) ∧
    ∀ result, s.result = some result → result = .ok () ∧
      ∀ sequences, .handedOut sequences ∈ s.shared.history →
        ∀ q ∈ sequences, .markedCommitted q q ∈ s.shared.history := by
  have calm := calm_of_reachable reachable rfl
  have base := reachable.untraced
  refine ⟨calm.exits, fun running range waiting => ?_, fun result => returns_ok reachable⟩
  exact places_singleton (custody_of_reachable base) (books_of_reachable base).keeps
    (calm.intact (orderly_of_reachable base) running) waiting

theorem faultless_run_succeeds_one_batch : ∃ s : State SizedRecords, ∃ result,
    ((machine SizedRecords narrowConfig).traced faults).Reachable (s, []) ∧
      s.result = some result ∧ result = .ok () := by
  have ends : (((machine SizedRecords narrowConfig).traced faults).run drainRun).map
      (fun s => (s.1.result.isSome, s.2)) = some (true, []) := by
    decide
  obtain ⟨⟨s, log⟩, ran, values⟩ := Option.map_eq_some_iff.mp ends
  obtain ⟨joined, quiet⟩ := Prod.mk.inj values
  obtain ⟨result, returned⟩ := Option.isSome_iff_exists.mp joined
  have reachable := Machine.run_reachable _ _ _ ran
  simp only at quiet
  rw [quiet] at reachable
  exact ⟨s, result, reachable, returned,
    ((faultless_run_succeeds narrowConfig s reachable).2.2 result returned).1⟩

end OpendataIngest.Runtime.Pipeline
