import OpendataIngest.Runtime.Pipeline.Faults

/-!
# Where the error of a run is

With one root failure in a run its error is held by the worker that failed, then it is
the first error in the completion queue, and then the actor returns it.  Whatever fails
because the worker has gone comes behind it in the queue.  The one exception is the
actor's own send: it finds the descriptor queue closed before it has read the error.
-/

set_option autoImplicit false

namespace OpendataIngest.Runtime.Pipeline

open MachineInt Pool AckCoordinator

variable {R : Type}

/-! ## Reports -/

/-- Some worker is about to report `error`. -/
def State.reports (s : State R) (error : RuntimeError) : Prop :=
  (∃ p ∈ s.fetchers, p.fatal? = some error) ∨ (∃ p ∈ s.decoders, p.fatal? = some error) ∨
    ∃ p ∈ s.writers, p.fatal? = some error

section Pools

variable {A : Type} {fatal? : A → Option RuntimeError} {pool : List A} {i : Nat} {p p' : A}
  {error : RuntimeError}

theorem holder_kept (present : pool[i]? = some p) (free : fatal? p = none)
    (holder : ∃ q ∈ pool, fatal? q = some error) : ∃ q ∈ pool.set i p', fatal? q = some error := by
  obtain ⟨q, member, holds⟩ := holder
  refine ⟨q, ?_, holds⟩
  exact exited_mem_set (fun q => (fatal? q).isSome) present (by simp [free]) member
    (by simp [holds])

theorem holder_of_set (holder : ∃ q ∈ pool.set i p', fatal? q = some error) :
    (∃ q ∈ pool, fatal? q = some error) ∨ fatal? p' = some error := by
  obtain ⟨q, member, holds⟩ := holder
  rcases List.mem_or_eq_of_mem_set member with old | rfl
  · exact Or.inl ⟨q, old, holds⟩
  · exact Or.inr holds

theorem holder_placed (present : pool[i]? = some p) (holds : fatal? p' = some error) :
    ∃ q ∈ pool.set i p', fatal? q = some error :=
  ⟨p', List.mem_set (List.getElem?_eq_some_iff.mp present).1 p', holds⟩

end Pools

/-- Nothing has failed so far that the actor could hear of, and the pools end in order. -/
structure Unbroken (s : State R) : Prop where
  running : s.actor.point.hasExited = false
  queued : ∀ error, .fatal error ∉ s.shared.completions
  decodersLeft : ∀ p ∈ s.decoders, p.hasExited = true → s.fetchersGone = true
  writersLeft : ∀ p ∈ s.writers, p.hasExited = true → s.decodersGone = true

theorem unbroken_start (cfg : Config) : Unbroken (State.start cfg : State R) where
  running := rfl
  queued _ := List.not_mem_nil
  decodersLeft p member left := by
    rw [List.eq_of_mem_replicate member] at left
    cases left
  writersLeft p member left := by
    rw [List.eq_of_mem_replicate member] at left
    cases left

theorem Announces.no_fatal {queue queue' : List WriteCompletion}
    (announces : Announces queue queue') (none : ∀ error, .fatal error ∉ queue)
    (error : RuntimeError) : .fatal error ∉ queue' := by
  rcases announces with same | ⟨report, added⟩
  · rw [same]
    exact none error
  · rw [added]
    simp [none error]

/-- A step after which the actor still runs and no error is in its queue. -/
structure GoesOn (s s' : State R) (seen : List Fault) : Prop where
  unbroken : Unbroken s'
  kept : ∀ error, s.reports error → s'.reports error
  added : ∀ error, s'.reports error → s.reports error ∨ seen = [.root error]
  failed : ∀ error, seen = [.root error] → s'.reports error

/-- A step in which an error reaches the completion queue. -/
structure Queues (s s' : State R) (seen : List Fault) (error : RuntimeError) : Prop where
  held : s.reports error
  queue : s'.shared.completions = s.shared.completions ++ [.fatal error]
  running : s'.actor.point.hasExited = false
  quiet : seen = []

/-! ## One step -/

section Workers

variable {s : State R} (unbroken : Unbroken s)
include unbroken

theorem Unbroken.fetcher {i : Nat} {p p' : FetchPoint} {sh' : Shared R}
    (present : s.fetchers[i]? = some p) (alive : p.hasExited = false)
    (queue : Announces s.shared.completions sh'.completions) :
    Unbroken { s with fetchers := s.fetchers.set i p', shared := sh' } where
  running := unbroken.running
  queued := queue.no_fatal unbroken.queued
  decodersLeft q member left :=
    (not_gone_of_alive present alive (unbroken.decodersLeft q member left)).elim
  writersLeft := unbroken.writersLeft

theorem Unbroken.decoder {i : Nat} {p p' : DecodePoint R} {sh' : Shared R}
    (present : s.decoders[i]? = some p) (alive : p.hasExited = false)
    (queue : Announces s.shared.completions sh'.completions)
    (left : p'.hasExited = true → s.fetchersGone = true) :
    Unbroken { s with decoders := s.decoders.set i p', shared := sh' } where
  running := unbroken.running
  queued := queue.no_fatal unbroken.queued
  decodersLeft q member exited := by
    rcases List.mem_or_eq_of_mem_set member with old | rfl
    · exact unbroken.decodersLeft q old exited
    · exact left exited
  writersLeft q member exited :=
    (not_gone_of_alive present alive (unbroken.writersLeft q member exited)).elim

theorem Unbroken.writer {i : Nat} {p' : WriterPoint R} {sh' : Shared R}
    (queue : Announces s.shared.completions sh'.completions)
    (left : p'.hasExited = true → s.decodersGone = true) :
    Unbroken { s with writers := s.writers.set i p', shared := sh' } where
  running := unbroken.running
  queued := queue.no_fatal unbroken.queued
  decodersLeft := unbroken.decodersLeft
  writersLeft q member exited := by
    rcases List.mem_or_eq_of_mem_set member with old | rfl
    · exact unbroken.writersLeft q old exited
    · exact left exited

end Workers

/-- A worker step that fails at most as a root failure: the worker goes on or leaves, or it
is cut off, or it reports, or the actor has returned. -/
theorem WorkerOutcome.expected {sh sh' : Shared R} {upstreamGone downstreamGone : Bool}
    {before after : Option RuntimeError} {exited : Bool} {lost : Prop} {seen : List Fault}
    (outcome : WorkerOutcome sh sh' upstreamGone downstreamGone before after exited lost seen)
    (expected : .other ∉ seen) :
    (before = none ∧ seen = (after.map Fault.root).toList ∧
      Announces sh.completions sh'.completions ∧ (exited = true → upstreamGone = true)) ∨
    downstreamGone = true ∨
    (∃ error, before = some error ∧ sh'.completions = sh.completions ++ [.fatal error] ∧
      seen = []) ∨
    sh.completionClosed = true ∨ sh.hardAbort = true := by
  cases outcome with
  | works free quiet stays queue =>
      refine Or.inl ⟨free, by rw [quiet]; rfl, queue, fun left => ?_⟩
      rw [stays] at left
      cases left
  | fails error free holds stays gaveUp queue =>
      refine Or.inl ⟨free, by rw [holds]; rfl, Or.inl queue, fun left => ?_⟩
      rw [stays] at left
      cases left
  | cutOff closed => exact Or.inr (Or.inl closed)
  | reports error held queue => exact Or.inr (Or.inr (Or.inl ⟨error, held, queue, rfl⟩))
  | leaves free quiet drained queue =>
      exact Or.inl ⟨free, by rw [quiet]; rfl, Or.inl queue, fun _ => drained⟩
  | tornDown returned => exact Or.inr (Or.inr (Or.inr returned))
  | breaks => exact absurd (List.mem_singleton_self _) expected

theorem not_tornDown {s : State R} (orderly : Orderly s)
    (running : s.actor.point.hasExited = false) :
    ¬ (s.shared.completionClosed = true ∨ s.shared.hardAbort = true) := by
  rintro (closed | aborted)
  · rw [orderly.closed, running] at closed
    cases closed
  · have exited := orderly.aborted aborted
    rw [running] at exited
    cases exited

theorem eq_some_of_seen {after : Option RuntimeError} {error : RuntimeError}
    (seen : (after.map Fault.root).toList = [.root error]) : after = some error := by
  cases after with
  | none => cases seen
  | some other =>
      cases seen
      rfl

section Steps

variable {cfg : Config} {s : State R} {i : Nat} {sh' : Shared R} (unbroken : Unbroken s)
  (orderly : Orderly s)
include unbroken orderly

theorem fetcher_goesOn {action : FetchAction} {p p' : FetchPoint}
    (present : s.fetchers[i]? = some p)
    (moved : stepFetch cfg s.killed s.decodersGone s.shared p action = some (p', sh'))
    (expected : .other ∉ action.faults p') :
    GoesOn s { s with fetchers := s.fetchers.set i p', shared := sh' } (action.faults p') ∨
      ∃ error, Queues s { s with fetchers := s.fetchers.set i p', shared := sh' }
        (action.faults p') error := by
  have alive := (stepFetch_flow moved).alive
  rcases (stepFetch_outcome moved).expected expected with
    ⟨free, seen, queue, _⟩ | closed | ⟨error, held, queue, quiet⟩ | returned
  · left
    rw [seen]
    refine ⟨unbroken.fetcher present alive queue, ?_, ?_, ?_⟩
    · rintro error (fetcher | others)
      · exact Or.inl (holder_kept present free fetcher)
      · exact Or.inr others
    · rintro error (fetcher | others)
      · rcases holder_of_set fetcher with old | new
        · exact Or.inl (Or.inl old)
        · exact Or.inr (by rw [new]; rfl)
      · exact Or.inl (Or.inr others)
    · intro error failed
      exact Or.inl (holder_placed present (eq_some_of_seen failed))
  · obtain ⟨q, member, left⟩ := exists_exited orderly.staffed.2.1 closed
    exact (not_gone_of_alive present alive (unbroken.decodersLeft q member left)).elim
  · exact Or.inr ⟨error, Or.inl ⟨p, List.mem_of_getElem? present, held⟩, queue,
      unbroken.running, quiet⟩
  · exact absurd returned (not_tornDown orderly unbroken.running)

theorem decoder_goesOn [TypedRecords R] {action : DecodeAction R} {p p' : DecodePoint R}
    (present : s.decoders[i]? = some p)
    (moved : stepDecode cfg s.fetchersGone s.writersGone s.shared p action = some (p', sh'))
    (expected : .other ∉ action.faults p') :
    GoesOn s { s with decoders := s.decoders.set i p', shared := sh' } (action.faults p') ∨
      ∃ error, Queues s { s with decoders := s.decoders.set i p', shared := sh' }
        (action.faults p') error := by
  have alive := (stepDecode_flow moved).alive
  rcases (stepDecode_outcome moved).expected expected with
    ⟨free, seen, queue, left⟩ | closed | ⟨error, held, queue, quiet⟩ | returned
  · left
    rw [seen]
    refine ⟨unbroken.decoder present alive queue left, ?_, ?_, ?_⟩
    · rintro error (fetcher | decoder | writer)
      · exact Or.inl fetcher
      · exact Or.inr (Or.inl (holder_kept present free decoder))
      · exact Or.inr (Or.inr writer)
    · rintro error (fetcher | decoder | writer)
      · exact Or.inl (Or.inl fetcher)
      · rcases holder_of_set decoder with old | new
        · exact Or.inl (Or.inr (Or.inl old))
        · exact Or.inr (by rw [new]; rfl)
      · exact Or.inl (Or.inr (Or.inr writer))
    · intro error failed
      exact Or.inr (Or.inl (holder_placed present (eq_some_of_seen failed)))
  · obtain ⟨q, member, left⟩ := exists_exited orderly.staffed.2.2 closed
    exact (not_gone_of_alive present alive (unbroken.writersLeft q member left)).elim
  · exact Or.inr ⟨error, Or.inr (Or.inl ⟨p, List.mem_of_getElem? present, held⟩), queue,
      unbroken.running, quiet⟩
  · exact absurd returned (not_tornDown orderly unbroken.running)

theorem writer_goesOn {action : WriterAction} {p p' : WriterPoint R}
    (present : s.writers[i]? = some p)
    (moved : stepWriter cfg s.decodersGone s.shared p action = some (p', sh'))
    (expected : .other ∉ action.faults p') :
    GoesOn s { s with writers := s.writers.set i p', shared := sh' } (action.faults p') ∨
      ∃ error, Queues s { s with writers := s.writers.set i p', shared := sh' }
        (action.faults p') error := by
  rcases (stepWriter_outcome moved).expected expected with
    ⟨free, seen, queue, left⟩ | closed | ⟨error, held, queue, quiet⟩ | returned
  · left
    rw [seen]
    refine ⟨unbroken.writer queue left, ?_, ?_, ?_⟩
    · rintro error (fetcher | decoder | writer)
      · exact Or.inl fetcher
      · exact Or.inr (Or.inl decoder)
      · exact Or.inr (Or.inr (holder_kept present free writer))
    · rintro error (fetcher | decoder | writer)
      · exact Or.inl (Or.inl fetcher)
      · exact Or.inl (Or.inr (Or.inl decoder))
      · rcases holder_of_set writer with old | new
        · exact Or.inl (Or.inr (Or.inr old))
        · exact Or.inr (by rw [new]; rfl)
    · intro error failed
      exact Or.inr (Or.inr (holder_placed present (eq_some_of_seen failed)))
  · cases closed
  · exact Or.inr ⟨error, Or.inr (Or.inr ⟨p, List.mem_of_getElem? present, held⟩), queue,
      unbroken.running, quiet⟩
  · exact absurd returned (not_tornDown orderly unbroken.running)

omit orderly in
/-- Nothing a step does concerns the reports. -/
theorem GoesOn.still {s' : State R} (sameActor : s'.actor = s.actor)
    (fetchers : s'.fetchers = s.fetchers) (decoders : s'.decoders = s.decoders)
    (writers : s'.writers = s.writers) (queue : s'.shared.completions = s.shared.completions) :
    GoesOn s s' [] := by
  have same : ∀ error, s'.reports error ↔ s.reports error := by
    intro error
    rw [State.reports, State.reports, fetchers, decoders, writers]
  refine ⟨⟨?_, ?_, ?_, ?_⟩, fun error => (same error).mpr, fun error held => ?_, nofun⟩
  · rw [sameActor]
    exact unbroken.running
  · rw [queue]
    exact unbroken.queued
  · rw [decoders, State.fetchersGone, fetchers]
    exact unbroken.decodersLeft
  · rw [writers, State.decodersGone, decoders]
    exact unbroken.writersLeft
  · exact Or.inl ((same error).mp held)

end Steps

/-- What the actor can do while it runs and finds workers to send to, and nothing it calls
fails. -/
inductive ActorMove (s : State R) (a' : Actor) (sh' : Shared R) : Prop where
  | stays (running : a'.point.hasExited = false)
      (queue : sh'.completions = s.shared.completions)
  | receives (report : CommittedReport)
      (queue : s.shared.completions = .committed report :: sh'.completions)
      (running : a'.point.hasExited = false)
  | hears (error : RuntimeError) (rest : List WriteCompletion)
      (queue : s.shared.completions = .fatal error :: rest)
      (exits : a'.point = .exited (.error error))
  | alone (empty : s.shared.completions = [])
      (gone : s.fetchersGone = true ∧ s.decodersGone = true ∧ s.writersGone = true)
  | leaves (exits : a'.point = .exited (.ok ()))

theorem stepActor_expected {cfg : Config} {s : State R} {a' : Actor} {sh' : Shared R}
    {action : ActorAction} (orderly : Orderly s) (books : Books cfg s.actor s.shared.history)
    (custody : Custody s) (running : s.actor.point.hasExited = false)
    (findsWorkers : s.sendsLost = false)
    (moved : stepActor cfg s.shutdown s.fetchersGone s.decodersGone s.writersGone s.actor
      s.shared action = some (a', sh'))
    (expected : .other ∉ action.faults a'.point) :
    action.faults a'.point = [] ∧ ActorMove s a' sh' := by
  have outcome := stepActor_outcome moved
  generalize action.faults a'.point = seen at outcome expected ⊢
  cases outcome with
  | stays running' queue => exact ⟨rfl, .stays running' queue⟩
  | receives report queue running' => exact ⟨rfl, .receives report queue running'⟩
  | hears error rest queue exits => exact ⟨rfl, .hears error rest queue exits⟩
  | disagrees report rest queue c error rejected =>
      have waiting := report_unprocessed custody books.keeps report
        (by rw [queue]; exact List.mem_cons_self)
      exact absurd rejected (books.keeps.not_rejected waiting)
  | alone empty gone => exact ⟨rfl, .alone empty gone⟩
  | aborted signalled => exact absurd (Or.inr signalled) (not_tornDown orderly running)
  | losesDescriptor unit rest sending closed =>
      exfalso
      rcases closed with closed | gone
      · have isOpen := orderly.admitting (by rw [sending]; rfl)
        rw [orderly.descriptorClosed running, isOpen] at closed
        cases closed
      · rw [State.sendsLost, sending, gone] at findsWorkers
        cases findsWorkers
  | leaves exits => exact ⟨rfl, .leaves exits⟩
  | breaks => exact absurd (List.mem_singleton_self _) expected

theorem actor_goesOn {s : State R} {a' : Actor} {sh' : Shared R} (unbroken : Unbroken s)
    (move : ActorMove s a' sh') :
    GoesOn s { s with actor := a', shared := sh' } [] ∨ a'.point = .exited (.ok ()) ∨
      (s.fetchersGone = true ∧ s.decodersGone = true ∧ s.writersGone = true) := by
  have runs : ∀ queued : ∀ error, .fatal error ∉ sh'.completions, a'.point.hasExited = false →
      GoesOn s { s with actor := a', shared := sh' } [] :=
    fun queued running => ⟨⟨running, queued, unbroken.decodersLeft, unbroken.writersLeft⟩,
      fun _ held => held, fun _ held => Or.inl held, nofun⟩
  cases move with
  | stays running queue => exact Or.inl (runs (queue ▸ unbroken.queued) running)
  | receives report queue running =>
      refine Or.inl (runs (fun error queued => ?_) running)
      refine unbroken.queued error ?_
      rw [queue]
      exact List.mem_cons_of_mem _ queued
  | hears error rest queue =>
      refine absurd ?_ (unbroken.queued error)
      rw [queue]
      exact List.mem_cons_self
  | alone empty gone => exact Or.inr (Or.inr gone)
  | leaves exits => exact Or.inr (Or.inl exits)

/-- The actor does not send when every fetch worker has gone. -/
def findsWorkers (s : State R) : Action R → Bool
  | .actor _ => !s.sendsLost
  | _ => true

/-- A step from an unbroken state, in which nothing fails but possibly one worker at its
work. -/
inductive UnbrokenStep (s s' : State R) (seen : List Fault) : Prop where
  | goesOn (on : GoesOn s s' seen)
  | queues (error : RuntimeError) (queues : Queues s s' seen error)
  | leaves (exits : s'.actor.point = .exited (.ok ())) (quiet : seen = [])
  | alone (gone : s'.fetchersGone = true ∧ s'.decodersGone = true ∧ s'.writersGone = true)
      (samePools : ∀ error, s.reports error → s'.reports error) (quiet : seen = [])

theorem step_unbroken [TypedRecords R] {cfg : Config} {s s' : State R} {action : Action R}
    (unbroken : Unbroken s) (reachable : (machine R cfg).Reachable s)
    (allowed : findsWorkers s action = true) (taken : step cfg s action = some s')
    (expected : .other ∉ faults action s') : UnbrokenStep s s' (faults action s') := by
  have orderly := orderly_of_reachable reachable
  cases transition_of_step taken with
  | actor moved =>
      obtain ⟨quiet, move⟩ := stepActor_expected orderly (books_of_reachable reachable)
        (custody_of_reachable reachable) unbroken.running
        (by simpa [findsWorkers] using allowed) moved expected
      simp only [faults]
      rcases actor_goesOn unbroken move with on | exits | gone
      · exact .goesOn (quiet ▸ on)
      · exact .leaves exits quiet
      · exact .alone gone (fun _ held => held) quiet
  | fetch present moved =>
      rw [faults_fetch _ present] at expected ⊢
      rcases fetcher_goesOn unbroken orderly present moved expected with on | ⟨error, queues⟩
      · exact .goesOn on
      · exact .queues error queues
  | decode present moved =>
      rw [faults_decode _ present] at expected ⊢
      rcases decoder_goesOn unbroken orderly present moved expected with on | ⟨error, queues⟩
      · exact .goesOn on
      · exact .queues error queues
  | writer present moved =>
      rw [faults_writer _ present] at expected ⊢
      rcases writer_goesOn unbroken orderly present moved expected with on | ⟨error, queues⟩
      · exact .goesOn on
      · exact .queues error queues
  | _ => exact .goesOn (.still unbroken rfl rfl rfl rfl rfl)

/-- The unit of a root failure is lost. -/
theorem lost_of_root [TypedRecords R] {cfg : Config} {s s' : State R} {action : Action R}
    {error : RuntimeError} (reachable : (machine R cfg).Reachable s)
    (taken : step cfg s action = some s') (seen : faults action s' = [.root error]) :
    s'.lost := by
  have accounts := accounts_of_reachable reachable
  have custody := custody_of_reachable reachable
  cases transition_of_step taken with
  | actor moved =>
      have outcome := stepActor_outcome moved
      simp only [faults] at seen
      rw [seen] at outcome
      cases outcome
  | fetch present moved =>
      have outcome := stepFetch_outcome moved
      rw [faults_fetch _ present] at seen
      rw [seen] at outcome
      cases outcome with
      | fails error free holds stays gaveUp =>
          exact lost_fetcher accounts custody present moved gaveUp
  | decode present moved =>
      have outcome := stepDecode_outcome moved
      rw [faults_decode _ present] at seen
      rw [seen] at outcome
      cases outcome with
      | fails error free holds stays gaveUp =>
          exact lost_decoder accounts custody present moved gaveUp
  | writer present moved =>
      have outcome := stepWriter_outcome moved
      rw [faults_writer _ present] at seen
      rw [seen] at outcome
      cases outcome with
      | fails error free holds stays gaveUp =>
          exact lost_writer accounts custody present moved gaveUp
  | _ => cases seen

/-- With a unit lost the actor does not leave its loop. -/
theorem not_left_of_lost [TypedRecords R] {cfg : Config} {s : State R}
    (reachable : (machine R cfg).Reachable s) (lost : s.lost) :
    s.actor.inFlight ≠ 0 ∧ s.actor.point ≠ .exited (.ok ()) := by
  have books := books_of_reachable reachable
  have busy : s.actor.inFlight ≠ 0 := by
    intro drained
    rw [books.inFlight, List.length_eq_zero_iff] at drained
    exact not_lost_of_processed drained books.keeps lost
  exact ⟨busy, fun left => busy ((drained_of_reachable reachable).left left).1⟩

/-! ## Whole runs -/

/-- No root failure so far: everything is in order, or nothing can fail any more. -/
inductive Unharmed (s : State R) : Prop where
  | running (unbroken : Unbroken s) (none : ∀ error, ¬ s.reports error)
  | left (exits : s.actor.point = .exited (.ok ()))
  | alone (gone : s.fetchersGone = true ∧ s.decodersGone = true ∧ s.writersGone = true)

/-- After one root failure: who has its error. -/
inductive Located (error : RuntimeError) (s : State R) : Prop where
  | held (unbroken : Unbroken s) (reported : s.reports error)
      (only : ∀ other, s.reports other → other = error) (lost : s.lost)
  | queued (running : s.actor.point.hasExited = false) (lost : s.lost)
      (earlier later : List WriteCompletion)
      (queue : s.shared.completions = earlier ++ .fatal error :: later)
      (first : ∀ other, .fatal other ∉ earlier)
  | returned (exits : s.actor.point = .exited (.error error))

theorem not_alone_of_reports {s : State R} {error : RuntimeError} (held : s.reports error) :
    ¬ (s.fetchersGone = true ∧ s.decodersGone = true ∧ s.writersGone = true) := by
  rintro ⟨fetchersGone, decodersGone, writersGone⟩
  rcases held with ⟨p, member, holds⟩ | ⟨p, member, holds⟩ | ⟨p, member, holds⟩
  · have left := List.all_eq_true.mp fetchersGone p member
    cases p with
    | reportingFatal => cases left
    | _ => cases holds
  · have left := List.all_eq_true.mp decodersGone p member
    cases p with
    | reportingFatal => cases left
    | _ => cases holds
  · have left := List.all_eq_true.mp writersGone p member
    cases p with
    | reportingFatal => cases left
    | _ => cases holds

/-- Workers that have all gone do nothing any more. -/
theorem alone_step [TypedRecords R] {cfg : Config} {s s' : State R} {action : Action R}
    (gone : s.fetchersGone = true ∧ s.decodersGone = true ∧ s.writersGone = true)
    (taken : step cfg s action = some s') :
    (s'.fetchersGone = true ∧ s'.decodersGone = true ∧ s'.writersGone = true) ∧
      ∀ error, faults action s' ≠ [.root error] := by
  cases transition_of_step taken with
  | actor moved =>
      refine ⟨gone, fun error seen => ?_⟩
      have outcome := stepActor_outcome moved
      simp only [faults] at seen
      rw [seen] at outcome
      cases outcome
  | fetch present moved =>
      exact (not_gone_of_alive present (stepFetch_flow moved).alive gone.1).elim
  | decode present moved =>
      exact (not_gone_of_alive present (stepDecode_flow moved).alive gone.2.1).elim
  | writer present moved =>
      exact (not_gone_of_alive present (stepWriter_flow moved).alive gone.2.2).elim
  | _ =>
      refine ⟨gone, fun error seen => ?_⟩
      cases seen

section Runs

variable [TypedRecords R] {cfg : Config} {s s' : State R} {action : Action R}
  {error : RuntimeError} (reachable : (machine R cfg).Reachable s)
  (allowed : findsWorkers s action = true) (taken : step cfg s action = some s')
include reachable allowed taken

theorem unharmed_step (unharmed : Unharmed s) (quiet : faults action s' = []) : Unharmed s' := by
  cases unharmed with
  | running unbroken none =>
      have next := step_unbroken unbroken reachable allowed taken (by simp [quiet])
      rw [quiet] at next
      cases next with
      | goesOn on =>
          refine .running on.unbroken fun error held => ?_
          rcases on.added error held with before | new
          · exact none error before
          · cases new
      | queues error queues => exact absurd queues.held (none error)
      | leaves exits => exact .left exits
      | alone gone => exact .alone gone
  | left exits =>
      refine .left ?_
      rw [(step_flagsRise taken).returned (by rw [exits]; rfl), exits]
  | alone gone => exact .alone (alone_step gone taken).1

/-- The root failure. -/
theorem located_of_fault (unharmed : Unharmed s) (seen : faults action s' = [.root error]) :
    Located error s' := by
  have lost := lost_of_root reachable taken seen
  cases unharmed with
  | running unbroken none =>
      have next := step_unbroken unbroken reachable allowed taken (by rw [seen]; simp)
      rw [seen] at next
      cases next with
      | goesOn on =>
          refine .held on.unbroken (on.failed error rfl) (fun other held => ?_) lost
          rcases on.added other held with before | new
          · exact absurd before (none other)
          · cases new
            rfl
      | queues _ queues => cases queues.quiet
      | leaves _ quiet => cases quiet
      | alone _ _ quiet => cases quiet
  | left exits =>
      have left : s'.actor.point = .exited (.ok ()) := by
        rw [(step_flagsRise taken).returned (by rw [exits]; rfl), exits]
      exact absurd left (not_left_of_lost (.step action reachable taken) lost).2
  | alone gone => exact absurd seen ((alone_step gone taken).2 error)

/-- The first error in the queue stays the first, until the actor returns it. -/
theorem queued_step (running : s.actor.point.hasExited = false) (lost : s.lost)
    {earlier later : List WriteCompletion}
    (queue : s.shared.completions = earlier ++ .fatal error :: later)
    (first : ∀ other, .fatal other ∉ earlier) (quiet : faults action s' = []) :
    Located error s' := by
  have orderly := orderly_of_reachable reachable
  have stillLost := lost_step orderly (accounts_of_reachable reachable) taken lost
  have notLeft := (not_left_of_lost (.step action reachable taken) stillLost).2
  have appended : ∀ added : List WriteCompletion, s'.actor = s.actor →
      s'.shared.completions = s.shared.completions ++ added → Located error s' := by
    intro added sameActor grown
    refine .queued (by rw [sameActor, running]) stillLost earlier (later ++ added) ?_ first
    rw [grown, queue, List.append_assoc, List.cons_append]
  have expected : .other ∉ faults action s' := by simp [quiet]
  cases transition_of_step taken with
  | actor moved =>
      obtain ⟨_, move⟩ := stepActor_expected orderly (books_of_reachable reachable)
        (custody_of_reachable reachable) running (by simpa [findsWorkers] using allowed) moved
        expected
      cases move with
      | stays running' same => exact .queued running' stillLost earlier later (same ▸ queue) first
      | receives report popped running' =>
          rw [popped] at queue
          cases earlier with
          | nil => cases queue
          | cons head rest =>
              obtain ⟨_, tail⟩ := List.cons.inj queue
              exact .queued running' stillLost rest later tail fun other member =>
                first other (List.mem_cons_of_mem _ member)
      | hears heard rest popped exits =>
          rw [popped] at queue
          cases earlier with
          | nil =>
              obtain ⟨same, _⟩ := List.cons.inj queue
              cases same
              exact .returned exits
          | cons head rest =>
              obtain ⟨same, _⟩ := List.cons.inj queue
              exact absurd (same ▸ List.mem_cons_self) (first heard)
      | alone empty =>
          rw [empty] at queue
          exact absurd queue.symm (by simp)
      | leaves exits => exact absurd exits notLeft
  | fetch present moved =>
      rw [faults_fetch _ present] at expected
      obtain ⟨added, grown⟩ := (stepFetch_outcome moved).appends expected
      exact appended added rfl grown
  | decode present moved =>
      rw [faults_decode _ present] at expected
      obtain ⟨added, grown⟩ := (stepDecode_outcome moved).appends expected
      exact appended added rfl grown
  | writer present moved =>
      rw [faults_writer _ present] at expected
      obtain ⟨added, grown⟩ := (stepWriter_outcome moved).appends expected
      exact appended added rfl grown
  | _ => exact appended [] rfl (List.append_nil _).symm

theorem located_step (located : Located error s) (quiet : faults action s' = []) :
    Located error s' := by
  cases located with
  | held unbroken reported only lost =>
      have stillLost := lost_step (orderly_of_reachable reachable)
        (accounts_of_reachable reachable) taken lost
      have next := step_unbroken unbroken reachable allowed taken (by simp [quiet])
      rw [quiet] at next
      cases next with
      | goesOn on =>
          refine .held on.unbroken (on.kept error reported) (fun other held => ?_) stillLost
          rcases on.added other held with before | new
          · exact only other before
          · cases new
      | queues other queues =>
          have same := only other queues.held
          rw [same] at queues
          exact .queued queues.running stillLost _ [] queues.queue unbroken.queued
      | leaves exits =>
          exact absurd exits (not_left_of_lost (.step action reachable taken) stillLost).2
      | alone gone samePools =>
          exact absurd gone (not_alone_of_reports (samePools error reported))
  | queued running lost earlier later queue first =>
      exact queued_step reachable allowed taken running lost queue first quiet
  | returned exits =>
      refine .returned ?_
      rw [(step_flagsRise taken).returned (by rw [exits]; rfl), exits]

end Runs

/-- The runs in which the actor always finds workers to send to, with their failures. -/
def faultMachine (R : Type) [TypedRecords R] (cfg : Config) :
    Machine (State R × List Fault) (Action R) :=
  ((machine R cfg).restrict findsWorkers).traced faults

theorem located_of_reachable [TypedRecords R] {cfg : Config} {s : State R × List Fault}
    (reachable : (faultMachine R cfg).Reachable s) :
    (s.2 = [] → Unharmed s.1) ∧ ∀ error, s.2 = [.root error] → Located error s.1 := by
  refine reachable.invariant (P := fun s => (s.2 = [] → Unharmed s.1) ∧
    ∀ error, s.2 = [.root error] → Located error s.1) ⟨fun _ => ?_, fun _ one => by cases one⟩ ?_
  · refine .running (unbroken_start cfg) fun error held => ?_
    rcases held with ⟨p, member, holds⟩ | ⟨p, member, holds⟩ | ⟨p, member, holds⟩
    all_goals
      rw [List.eq_of_mem_replicate member] at holds
      cases holds
  · rintro ⟨s, log⟩ action ⟨s', log'⟩ before ⟨unharmed, located⟩ taken
    have earlier : (machine R cfg).Reachable s := before.untraced.unrestricted
    obtain ⟨steps, logged⟩ := Machine.traced_step.mp taken
    obtain ⟨allowed, steps⟩ := Machine.restrict_step.mp steps
    simp only at unharmed located logged ⊢
    refine ⟨fun none => ?_, fun error one => ?_⟩
    · rw [none] at logged
      obtain ⟨empty, quiet⟩ := List.append_eq_nil_iff.mp logged.symm
      exact unharmed_step earlier allowed steps (unharmed empty) quiet
    · rw [one] at logged
      rcases List.append_eq_singleton_iff.mp logged.symm with ⟨empty, seen⟩ | ⟨seen, quiet⟩
      · exact located_of_fault earlier allowed steps (unharmed empty) seen
      · exact located_step earlier allowed steps (located error seen) quiet

/-- `Runtime::run` returns the error. -/
theorem Located.result [TypedRecords R] {cfg : Config} {s : State R} {error : RuntimeError}
    (located : Located error s) (reachable : (machine R cfg).Reachable s)
    {result : RuntimeResult Unit} (returned : s.result = some result) :
    result = .error error := by
  obtain ⟨_, _, _, actorResult, exited, isResult⟩ := joined_of_reachable reachable _ returned
  have hasExited : s.actor.point.hasExited = true := by
    rw [exited]
    rfl
  cases located with
  | held unbroken =>
      rw [unbroken.running] at hasExited
      cases hasExited
  | queued running =>
      rw [running] at hasExited
      cases hasExited
  | returned exits =>
      rw [exits] at exited
      cases exited
      exact isResult

end OpendataIngest.Runtime.Pipeline
