import OpendataIngest.Runtime.Pipeline.Shutdown

/-!
# Serial pipelines write in order

With one batch slot, or with one worker in each pool, the units keep the order of their
admission: behind the writer come the sink-commit queue, the decoder, the fetched queue, the
fetcher, the descriptor queue and what the actor still has to send.  Units may drop out of
this line, and new ones join it at its end.  So the sink is called in the order of admission,
with all the attempts of a range before those of a later one.
-/

set_option autoImplicit false

namespace OpendataIngest.Runtime.Pipeline

open MachineInt Pool AckCoordinator

variable {R : Type}

/-! ## The line -/

def AdmittedDescriptor.place (unit : AdmittedDescriptor) : Nat := unit.descriptor.sequence.val

def FetchedBatch.place (unit : FetchedBatch) : Nat := unit.admittedSequence.val

def SinkCommitEnvelope.place (unit : SinkCommitEnvelope R) : Nat :=
  unit.commit.identity.range.low.val

def ActorPoint.line : ActorPoint → List Nat
  | .sending rest => rest.map AdmittedDescriptor.place
  | _ => []

def FetchPoint.line : FetchPoint → List Nat
  | .fetching unit => [unit.descriptor.sequence.val]
  | .sending unit => [unit.place]
  | _ => []

def DecodePoint.line : DecodePoint R → List Nat
  | .decoding unit => [unit.place]
  | .sending unit => [unit.place]
  | _ => []

def WriterPoint.line : WriterPoint R → List Nat
  | .writing _ unit => [unit.place]
  | .checking _ unit _ => [unit.place]
  | .backingOff _ unit => [unit.place]
  | _ => []

/-- The unfinished units, the next to be written first. -/
def State.line (s : State R) : List Nat :=
  s.writers.flatMap WriterPoint.line ++ (s.shared.sinkCommits.map SinkCommitEnvelope.place ++
    (s.decoders.flatMap DecodePoint.line ++ (s.shared.fetched.map FetchedBatch.place ++
      (s.fetchers.flatMap FetchPoint.line ++
        (s.shared.descriptors.map AdmittedDescriptor.place ++ s.actor.point.line)))))

def Event.sinkCall? : Event → Option Nat
  | .sinkWriteCalled identity => some identity.range.low.val
  | _ => none

/-- The first sequences of the commits `Sink::write` was called with, oldest first. -/
def sinkCalls (history : List Event) : List Nat := (history.filterMap Event.sinkCall?).reverse

/-! ## Steps -/

theorem stepFetch_line {cfg : Config} {killed decodersGone : Bool} {sh sh' : Shared R}
    {p p' : FetchPoint} {action : FetchAction}
    (taken : stepFetch cfg killed decodersGone sh p action = some (p', sh')) :
    sh'.sinkCommits = sh.sinkCommits ∧ sh'.history = sh.history ∧
      (sh'.fetched.map FetchedBatch.place ++
        (p'.line ++ sh'.descriptors.map AdmittedDescriptor.place)).Sublist
      (sh.fetched.map FetchedBatch.place ++
        (p.line ++ sh.descriptors.map AdmittedDescriptor.place)) := by
  cases fetchStep_of_stepFetch taken with
  | takes unit rest queue =>
      refine ⟨rfl, rfl, ?_⟩
      rw [queue]
      exact List.Sublist.refl _
  | fetches | leaves | aborts | isKilled => exact ⟨rfl, rfl, List.Sublist.refl _⟩
  | sends unit notGone room =>
      refine ⟨rfl, rfl, ?_⟩
      simp only [FetchPoint.line, List.map_append, List.append_assoc]
      exact List.Sublist.refl _
  | fetchFails | cutOff | unheard | reports | abandons =>
      exact ⟨rfl, rfl, (List.sublist_append_right _ _).append_left _⟩
  | panics p message alive =>
      obtain ⟨k, free, dropped⟩ := dropHeld_eq sh.fail p.reservation?
      rw [dropped]
      exact ⟨rfl, rfl, (List.sublist_append_right _ _).append_left _⟩

theorem stepDecode_line [TypedRecords R] {cfg : Config} {fetchersGone writersGone : Bool}
    {sh sh' : Shared R} {p p' : DecodePoint R} {action : DecodeAction R}
    (taken : stepDecode cfg fetchersGone writersGone sh p action = some (p', sh')) :
    sh'.descriptors = sh.descriptors ∧ sh'.history = sh.history ∧
      (sh'.sinkCommits.map SinkCommitEnvelope.place ++
        (p'.line ++ sh'.fetched.map FetchedBatch.place)).Sublist
      (sh.sinkCommits.map SinkCommitEnvelope.place ++
        (p.line ++ sh.fetched.map FetchedBatch.place)) := by
  cases decodeStep_of_stepDecode taken with
  | takes unit rest queue =>
      refine ⟨rfl, rfl, ?_⟩
      rw [queue]
      exact List.Sublist.refl _
  | decodes unit decoder commit range reservation k decoded =>
      obtain ⟨batch, checked, _, _, _, outcome⟩ := decodeOne_ok decoded
      obtain ⟨_, low, _⟩ := checkDecoded_ok checked
      split_ifs at outcome
      cases outcome
      refine ⟨rfl, rfl, ?_⟩
      simp only [DecodePoint.line, SinkCommitEnvelope.place, buildCommit, low]
      exact List.Sublist.refl _
  | sends unit notGone room =>
      refine ⟨rfl, rfl, ?_⟩
      simp only [DecodePoint.line, List.map_append, List.append_assoc]
      exact List.Sublist.refl _
  | panics p message alive =>
      obtain ⟨k, free, dropped⟩ := dropHeld_eq sh.fail p.reservation?
      rw [dropped]
      exact ⟨rfl, rfl, (List.sublist_append_right _ _).append_left _⟩
  | _ => exact ⟨rfl, rfl, (List.sublist_append_right _ _).append_left _⟩

/-- What a step of a writer does to the line. -/
structure WriterLine (sh sh' : Shared R) (p p' : WriterPoint R) : Prop where
  descriptors : sh'.descriptors = sh.descriptors
  fetched : sh'.fetched = sh.fetched
  registered : registeredRanges sh'.history = registeredRanges sh.history
  line : (p'.line ++ sh'.sinkCommits.map SinkCommitEnvelope.place).Sublist
    (p.line ++ sh.sinkCommits.map SinkCommitEnvelope.place)
  /-- A call is made for the unit the writer then holds. -/
  calls : sinkCalls sh'.history = sinkCalls sh.history ∨
    ∃ q, sinkCalls sh'.history = sinkCalls sh.history ++ [q] ∧ p'.line = [q]

section Writers

variable {sh sh' : Shared R} {p p' : WriterPoint R}

theorem WriterLine.calling (unit : SinkCommitEnvelope R) (descriptors : sh'.descriptors =
      sh.descriptors) (fetched : sh'.fetched = sh.fetched)
    (history : sh'.history = .sinkWriteCalled unit.commit.identity :: sh.history)
    (holds : p'.line = [unit.place])
    (line : (p'.line ++ sh'.sinkCommits.map SinkCommitEnvelope.place).Sublist
      (p.line ++ sh.sinkCommits.map SinkCommitEnvelope.place)) : WriterLine sh sh' p p' where
  descriptors := descriptors
  fetched := fetched
  registered := by simp [history, registeredRanges, List.filterMap_cons, Event.registered?]
  line := line
  calls := by
    refine Or.inr ⟨unit.place, ?_, holds⟩
    simp [history, sinkCalls, Event.sinkCall?, SinkCommitEnvelope.place]

/-- No call is made, and the writer keeps its unit or loses it. -/
theorem WriterLine.quiet (descriptors : sh'.descriptors = sh.descriptors)
    (fetched : sh'.fetched = sh.fetched) (sinkCommits : sh'.sinkCommits = sh.sinkCommits)
    (history : sh'.history = sh.history ∨
      ∃ event, sh'.history = event :: sh.history ∧ event.sinkCall? = none ∧
        event.registered? = none)
    (kept : p'.line = p.line ∨ p'.line = []) : WriterLine sh sh' p p' where
  descriptors := descriptors
  fetched := fetched
  registered := by
    rcases history with same | ⟨event, recorded, _, other⟩
    · rw [same]
    · simp [recorded, registeredRanges, other]
  line := by
    rw [sinkCommits]
    rcases kept with same | gone
    · rw [same]
    · rw [gone]
      exact List.sublist_append_right _ _
  calls := by
    left
    rcases history with same | ⟨event, recorded, other, _⟩
    · rw [same]
    · simp [recorded, sinkCalls, other]

end Writers

theorem stepWriter_line {cfg : Config} {decodersGone : Bool} {sh sh' : Shared R}
    {p p' : WriterPoint R} {action : WriterAction}
    (taken : stepWriter cfg decodersGone sh p action = some (p', sh')) :
    WriterLine sh sh' p p' := by
  cases writerStep_of_stepWriter taken with
  | takes unit rest queue =>
      refine .calling unit rfl rfl rfl rfl ?_
      rw [queue]
      exact List.Sublist.refl _
  | wakes attempt unit => exact .calling unit rfl rfl rfl rfl (List.Sublist.refl _)
  | writeUnclear => exact .quiet rfl rfl rfl (Or.inr ⟨_, rfl, rfl, rfl⟩) (Or.inl rfl)
  | writes | writeFails | finds | checkFails =>
      exact .quiet rfl rfl rfl (Or.inr ⟨_, rfl, rfl, rfl⟩) (Or.inr rfl)
  | retries _ _ _ _ _ _ answered =>
      cases answered
      all_goals exact .quiet rfl rfl rfl (Or.inr ⟨_, rfl, rfl, rfl⟩) (Or.inl rfl)
  | givesUp _ _ _ _ _ _ answered =>
      cases answered
      all_goals exact .quiet rfl rfl rfl (Or.inr ⟨_, rfl, rfl, rfl⟩) (Or.inr rfl)
  | panics p message alive =>
      obtain ⟨k, free, dropped⟩ := dropHeld_eq sh.fail p.reservation?
      rw [dropped]
      exact .quiet rfl rfl rfl (Or.inl rfl) (Or.inr rfl)
  | _ => exact .quiet rfl rfl rfl (Or.inl rfl) (Or.inr rfl)

/-- What a step of the actor does to the line: the ranges it registers join it at its end. -/
structure ActorLine (a a' : Actor) (sh sh' : Shared R) (new : List Nat) : Prop where
  fetched : sh'.fetched = sh.fetched
  sinkCommits : sh'.sinkCommits = sh.sinkCommits
  calls : sinkCalls sh'.history = sinkCalls sh.history
  registered : registeredRanges sh'.history =
    registeredRanges sh.history ++ new.map fun q => (q, q)
  line : (sh'.descriptors.map AdmittedDescriptor.place ++ a'.point.line).Sublist
    (sh.descriptors.map AdmittedDescriptor.place ++ (a.point.line ++ new))

/-- The actor registers nothing, and loses what it may still have to send. -/
theorem ActorLine.quiet {a a' : Actor} {sh sh' : Shared R} (events : List Event)
    (fetched : sh'.fetched = sh.fetched) (sinkCommits : sh'.sinkCommits = sh.sinkCommits)
    (history : sh'.history = events ++ sh.history) (noCalls : events.filterMap Event.sinkCall? = [])
    (noRanges : events.filterMap Event.registered? = [])
    (descriptors : sh'.descriptors = sh.descriptors) (kept : a'.point.line = []) :
    ActorLine a a' sh sh' [] where
  fetched := fetched
  sinkCommits := sinkCommits
  calls := by rw [sinkCalls, history, List.filterMap_append, noCalls, List.nil_append, sinkCalls]
  registered := by
    rw [registeredRanges, history, List.filterMap_append, noRanges, List.nil_append,
      List.map_nil, List.append_nil, registeredRanges]
  line := by
    rw [descriptors, kept]
    exact (List.nil_sublist _).append_left _

theorem registeredRanges_admission (sequences handed : List Nat) (older : List Event) :
    registeredRanges ((sequences.map Event.registered).reverse ++ .handedOut handed :: older) =
      registeredRanges older ++ sequences.map fun q => (q, q) := by
  simp [registeredRanges, List.filterMap_append, List.filterMap_cons, Event.registered?,
    List.filterMap_map, Function.comp_def, List.filterMap_reverse]

theorem sinkCalls_admission (sequences handed : List Nat) (older : List Event) :
    sinkCalls ((sequences.map Event.registered).reverse ++ .handedOut handed :: older) =
      sinkCalls older := by
  simp [sinkCalls, List.filterMap_append, List.filterMap_cons, Event.sinkCall?,
    List.filterMap_map, Function.comp_def, List.filterMap_reverse]

theorem zip_places (descriptors : List SourceBatchDescriptor) (gates : List Reservation)
    (same : descriptors.length = gates.length) :
    (descriptors.zipWith AdmittedDescriptor.mk gates).map AdmittedDescriptor.place =
      descriptors.map fun d => d.sequence.val := by
  induction descriptors generalizing gates with
  | nil => rfl
  | cons first rest ih =>
      cases gates with
      | nil => cases same
      | cons gate gates =>
          rw [List.zipWith_cons_cons, List.map_cons, ih gates (Nat.succ.inj same)]
          rfl

theorem admission_line {a : Actor} {sh : Shared R} {gates : List Reservation}
    {descriptors : List SourceBatchDescriptor} (polling : a.point.line = [])
    (fits : descriptors.length ≤ gates.length) :
    ∃ new, ActorLine a (admission a sh gates descriptors).1 sh
      (admission a sh gates descriptors).2 new := by
  cases descriptors with
  | nil =>
      refine ⟨[], ?_⟩
      simp only [admission, dropGates_eq]
      exact .quiet [_] rfl rfl rfl rfl rfl rfl rfl
  | cons first rest =>
      obtain ⟨sequences, a', outcome⟩ := admission_shared a sh gates first rest
      refine ⟨sequences, ?_⟩
      rcases outcome with ⟨all, admitted⟩ | ⟨error, refused⟩
      · rw [admitted]
        refine ⟨rfl, rfl, sinkCalls_admission _ _ _, registeredRanges_admission _ _ _, ?_⟩
        have places : ActorPoint.line (.sending ((first :: rest).zipWith AdmittedDescriptor.mk
            (gates.take (first :: rest).length))) = sequences := by
          rw [ActorPoint.line, zip_places _ _ (List.length_take_of_le fits).symm, all]
        rw [places, polling]
        exact List.Sublist.refl _
      · rw [refused]
        refine ⟨rfl, rfl, sinkCalls_admission _ _ _, registeredRanges_admission _ _ _, ?_⟩
        exact (List.nil_sublist _).append_left _

theorem stepActor_line {cfg : Config} {shutdown fetchersGone decodersGone writersGone : Bool}
    {a a' : Actor} {sh sh' : Shared R} {action : ActorAction}
    (taken : stepActor cfg shutdown fetchersGone decodersGone writersGone a sh action =
      some (a', sh')) : ∃ new, ActorLine a a' sh sh' new := by
  cases actorStep_of_stepActor taken with
  | aborts permit | closes permit | receivesFatal permit | workersGone permit | leaves permit =>
      rw [cancelAdmission_eq]
      exact ⟨[], .quiet [] rfl rfl rfl rfl rfl rfl rfl⟩
  | finishes permit =>
      rw [cancelAdmission_eq]
      exact ⟨[], .quiet [_] rfl rfl rfl rfl rfl rfl rfl⟩
  | receives permit report rest at_select queue busy =>
      rw [cancelAdmission_eq]
      have shape := receiveCommitted_cases cfg a { sh with
        freePermits := sh.freePermits +
          total Holding.permits (ActorPoint.select permit).holdings
        completions := rest } report
      generalize receiveCommitted cfg a _ report = moved at shape ⊢
      obtain ⟨a', sh'⟩ := moved
      refine ⟨[], ?_⟩
      cases shape with
      | rejected => exact .quiet [_] rfl rfl rfl rfl rfl rfl rfl
      | marked c marks acks =>
          cases acks with
          | silent => exact .quiet [_, _] rfl rfl rfl rfl rfl rfl rfl
          | deferred => exact .quiet [_, _, _] rfl rfl rfl rfl rfl rfl rfl
          | flushes => exact .quiet [_, _, _, _] rfl rfl rfl rfl rfl rfl rfl
  | admits answer gates descriptors at_polling answered fits =>
      exact admission_line (by rw [at_polling]; rfl) fits
  | pollFails =>
      rw [dropGates_eq]
      exact ⟨[], .quiet [] rfl rfl rfl rfl rfl rfl rfl⟩
  | sendFails =>
      rw [dropGates_eq]
      exact ⟨[], .quiet [] rfl rfl rfl rfl rfl rfl rfl⟩
  | sends unit rest at_sending =>
      refine ⟨[], rfl, rfl, rfl, (List.append_nil _).symm, ?_⟩
      rw [at_sending]
      simp only [ActorPoint.line, List.map_append, List.map_cons, List.map_nil, List.append_assoc,
        List.append_nil]
      exact List.Sublist.refl _
  | flushed | flushFails | flushedLast =>
      exact ⟨[], .quiet [_] rfl rfl rfl rfl rfl rfl rfl⟩
  | _ => exact ⟨[], .quiet [] rfl rfl rfl rfl rfl rfl rfl⟩

/-! ## The line of the whole pipeline -/

/-- What a step does to the line.  It keeps its order if no two units can overtake each
other. -/
structure LineStep (s s' : State R) (new : List Nat) : Prop where
  registered : registeredRanges s'.shared.history =
    registeredRanges s.shared.history ++ new.map fun q => (q, q)
  members : ∀ q ∈ s'.line, q ∈ s.line ∨ q ∈ new
  calls : sinkCalls s'.shared.history = sinkCalls s.shared.history ∨
    ∃ q, sinkCalls s'.shared.history = sinkCalls s.shared.history ++ [q] ∧
      ∃ p ∈ s'.writers, p.line = [q]
  ordered : s.fetchers.length = 1 → s.decoders.length = 1 → s.writers.length = 1 →
    s'.line.Sublist (s.line ++ new)

theorem flatMap_alone {A : Type} (line : A → List Nat) {pool : List A} {i : Nat} {p : A}
    (present : pool[i]? = some p) (alone : pool.length = 1) (p' : A) :
    pool.flatMap line = line p ∧ (pool.set i p').flatMap line = line p' := by
  obtain ⟨q, rfl⟩ := List.length_eq_one_iff.mp alone
  cases i with
  | zero =>
      rw [← Option.some.inj present]
      simp
  | succ i => cases present

theorem mem_flatMap_set {A : Type} (line : A → List Nat) {pool : List A} {i : Nat} {p : A}
    (present : pool[i]? = some p) (p' : A) (q : Nat) :
    (q ∈ (pool.set i p').flatMap line → q ∈ pool.flatMap line ∨ q ∈ line p') ∧
      (q ∈ line p → q ∈ pool.flatMap line) := by
  refine ⟨fun member => ?_, fun holds => ?_⟩
  · obtain ⟨other, isWorker, holds⟩ := List.mem_flatMap.mp member
    rcases List.mem_or_eq_of_mem_set isWorker with old | same
    · exact Or.inl (List.mem_flatMap.mpr ⟨other, old, holds⟩)
    · exact Or.inr (same ▸ holds)
  · exact List.mem_flatMap.mpr ⟨p, List.mem_of_getElem? present, holds⟩

section Lift

variable {s : State R} {i : Nat} {sh' : Shared R}

theorem lineStep_actor {a' : Actor} {new : List Nat}
    (moves : ActorLine s.actor a' s.shared sh' new) :
    LineStep s { s with actor := a', shared := sh' } new := by
  refine ⟨moves.registered, fun q member => ?_, Or.inl moves.calls, fun _ _ _ => ?_⟩
  · have tail := fun isMember => moves.line.subset (a := q) isMember
    simp only [State.line, moves.fetched, moves.sinkCommits, List.mem_append] at member tail ⊢
    grind
  · simp only [State.line, moves.fetched, moves.sinkCommits, List.append_assoc]
    exact ((((moves.line.append_left _).append_left _).append_left _).append_left _).append_left _

theorem lineStep_fetch {p p' : FetchPoint} (present : s.fetchers[i]? = some p)
    (sinkCommits : sh'.sinkCommits = s.shared.sinkCommits)
    (history : sh'.history = s.shared.history)
    (line : (sh'.fetched.map FetchedBatch.place ++
        (p'.line ++ sh'.descriptors.map AdmittedDescriptor.place)).Sublist
      (s.shared.fetched.map FetchedBatch.place ++
        (p.line ++ s.shared.descriptors.map AdmittedDescriptor.place))) :
    LineStep s { s with fetchers := s.fetchers.set i p', shared := sh' } [] := by
  refine ⟨by simp [history], fun q member => Or.inl ?_, Or.inl (by rw [history]),
    fun alone _ _ => ?_⟩
  · have part := fun isMember => line.subset (a := q) isMember
    have own := mem_flatMap_set FetchPoint.line present p' q
    simp only [State.line, sinkCommits, List.mem_append] at member part ⊢
    grind
  · obtain ⟨before, after⟩ := flatMap_alone FetchPoint.line present alone p'
    have placed := line.append_right s.actor.point.line
    simp only [List.append_assoc] at placed
    simp only [State.line, before, after, sinkCommits, List.append_nil]
    exact ((placed.append_left _).append_left _).append_left _

theorem lineStep_decode {p p' : DecodePoint R} (present : s.decoders[i]? = some p)
    (descriptors : sh'.descriptors = s.shared.descriptors)
    (history : sh'.history = s.shared.history)
    (line : (sh'.sinkCommits.map SinkCommitEnvelope.place ++
        (p'.line ++ sh'.fetched.map FetchedBatch.place)).Sublist
      (s.shared.sinkCommits.map SinkCommitEnvelope.place ++
        (p.line ++ s.shared.fetched.map FetchedBatch.place))) :
    LineStep s { s with decoders := s.decoders.set i p', shared := sh' } [] := by
  refine ⟨by simp [history], fun q member => Or.inl ?_, Or.inl (by rw [history]),
    fun _ alone _ => ?_⟩
  · have part := fun isMember => line.subset (a := q) isMember
    have own := mem_flatMap_set DecodePoint.line present p' q
    simp only [State.line, descriptors, List.mem_append] at member part ⊢
    grind
  · obtain ⟨before, after⟩ := flatMap_alone DecodePoint.line present alone p'
    have placed := line.append_right (s.fetchers.flatMap FetchPoint.line ++
      (s.shared.descriptors.map AdmittedDescriptor.place ++ s.actor.point.line))
    simp only [List.append_assoc] at placed
    simp only [State.line, before, after, descriptors, List.append_nil]
    exact placed.append_left _

theorem lineStep_writer {p p' : WriterPoint R} (present : s.writers[i]? = some p)
    (moves : WriterLine s.shared sh' p p') :
    LineStep s { s with writers := s.writers.set i p', shared := sh' } [] := by
  refine ⟨?_, fun q member => Or.inl ?_, ?_, fun _ _ alone => ?_⟩
  · rw [List.map_nil, List.append_nil, moves.registered]
  · have part := fun isMember => moves.line.subset (a := q) isMember
    have own := mem_flatMap_set WriterPoint.line present p' q
    simp only [State.line, moves.descriptors, moves.fetched, List.mem_append] at member part ⊢
    grind
  · rcases moves.calls with same | ⟨q, grown, holds⟩
    · exact Or.inl same
    · have inPool : p' ∈ s.writers.set i p' :=
        List.mem_of_getElem? (present_set present p')
      exact Or.inr ⟨q, grown, p', inPool, holds⟩
  · obtain ⟨before, after⟩ := flatMap_alone WriterPoint.line present alone p'
    have placed := moves.line.append_right (s.decoders.flatMap DecodePoint.line ++
      (s.shared.fetched.map FetchedBatch.place ++ (s.fetchers.flatMap FetchPoint.line ++
        (s.shared.descriptors.map AdmittedDescriptor.place ++ s.actor.point.line))))
    simp only [List.append_assoc] at placed
    simp only [State.line, before, after, moves.descriptors, moves.fetched, List.append_nil]
    exact placed

/-- The tasks and queues of the other steps lose units at most. -/
theorem lineStep_discard {s' : State R} (actor : s'.actor = s.actor)
    (fetchers : s'.fetchers = s.fetchers) (decoders : s'.decoders = s.decoders)
    (writers : s'.writers = s.writers) (history : s'.shared.history = s.shared.history)
    (descriptors : s'.shared.descriptors.Sublist s.shared.descriptors)
    (fetched : s'.shared.fetched.Sublist s.shared.fetched)
    (sinkCommits : s'.shared.sinkCommits.Sublist s.shared.sinkCommits) : LineStep s s' [] := by
  have line : s'.line.Sublist s.line := by
    rw [State.line, State.line, actor, fetchers, decoders, writers]
    have back := ((descriptors.map AdmittedDescriptor.place).append_right
      s.actor.point.line).append_left (s.fetchers.flatMap FetchPoint.line)
    have middle := ((fetched.map FetchedBatch.place).append back).append_left
      (s.decoders.flatMap DecodePoint.line)
    exact ((sinkCommits.map SinkCommitEnvelope.place).append middle).append_left _
  refine ⟨by simp [history], fun q member => Or.inl (line.subset member),
    Or.inl (by rw [history]), fun _ _ _ => ?_⟩
  rw [List.append_nil]
  exact line

end Lift

theorem lineStep_of_step [TypedRecords R] {cfg : Config} {s s' : State R} {action : Action R}
    (taken : step cfg s action = some s') : ∃ new, LineStep s s' new := by
  cases transition_of_step taken with
  | actor moved =>
      obtain ⟨new, moves⟩ := stepActor_line moved
      exact ⟨new, lineStep_actor moves⟩
  | fetch present moved =>
      obtain ⟨sinkCommits, history, line⟩ := stepFetch_line moved
      exact ⟨[], lineStep_fetch present sinkCommits history line⟩
  | decode present moved =>
      obtain ⟨descriptors, history, line⟩ := stepDecode_line moved
      exact ⟨[], lineStep_decode present descriptors history line⟩
  | writer present moved => exact ⟨[], lineStep_writer present (stepWriter_line moved)⟩
  | discardsDescriptor queue =>
      refine ⟨[], lineStep_discard rfl rfl rfl rfl rfl ?_ (.refl _) (.refl _)⟩
      rw [queue]
      exact List.sublist_cons_self _ _
  | discardsFetched queue =>
      refine ⟨[], lineStep_discard rfl rfl rfl rfl rfl (.refl _) ?_ (.refl _)⟩
      rw [queue]
      exact List.sublist_cons_self _ _
  | discardsSinkCommit queue =>
      refine ⟨[], lineStep_discard rfl rfl rfl rfl rfl (.refl _) (.refl _) ?_⟩
      rw [queue]
      exact List.sublist_cons_self _ _
  | _ => exact ⟨[], lineStep_discard rfl rfl rfl rfl rfl (.refl _) (.refl _) (.refl _)⟩

/-! ## One batch slot -/

theorem FetchPoint.line_length (p : FetchPoint) :
    p.line.length ≤ total Holding.permits p.holdings := by
  cases p
  all_goals first | exact Nat.le_refl _ | exact Nat.zero_le _

theorem DecodePoint.line_length (p : DecodePoint R) :
    p.line.length ≤ total Holding.permits p.holdings := by
  cases p
  all_goals first | exact Nat.le_refl _ | exact Nat.zero_le _

theorem WriterPoint.line_length (p : WriterPoint R) :
    p.line.length ≤ total Holding.permits p.holdings := by
  cases p
  all_goals first | exact Nat.le_refl _ | exact Nat.zero_le _

theorem ActorPoint.line_length (p : ActorPoint) :
    p.line.length ≤ total Holding.permits p.holdings := by
  cases p with
  | sending rest =>
      rw [ActorPoint.line, ActorPoint.holdings, List.length_map,
        total_permits_units AdmittedDescriptor.holding fun _ => rfl]
  | _ => exact Nat.zero_le _

/-- Every unit in line has a batch slot. -/
theorem line_length_le (s : State R) : s.line.length ≤ total Holding.permits s.holdings := by
  have queued := queued_le_permits s
  have actor := s.actor.point.line_length
  have fetchers := total_le_total _ _ s.fetchers fun p _ => p.line_length
  have decoders := total_le_total _ _ s.decoders fun p _ => p.line_length
  have writers := total_le_total _ _ s.writers fun p _ => p.line_length
  simp only [State.line, List.length_append, List.length_flatMap, List.length_map]
  simp only [total] at *
  omega

/-! ## Serial runs -/

/-- No two units can overtake each other. -/
def Config.Serial (cfg : Config) : Prop :=
  cfg.bp.maxInflightBatches.val ≤ 1 ∨ (cfg.bp.fetchConcurrency.val ≤ 1 ∧
    cfg.bp.decodeConcurrency.val ≤ 1 ∧ cfg.options.sink.maxConcurrentCommits.val ≤ 1)

/-- The units are in line in the order of their admission, and no call was made for a later
one. -/
structure InLine (s : State R) : Prop where
  ordered : s.line.Pairwise (· < ·)
  registered : ∀ q ∈ s.line, (q, q) ∈ registeredRanges s.shared.history
  called : ∀ q ∈ sinkCalls s.shared.history, (q, q) ∈ registeredRanges s.shared.history
  below : ∀ q ∈ sinkCalls s.shared.history, ∀ x ∈ s.line, q ≤ x
  calls : (sinkCalls s.shared.history).Pairwise (· ≤ ·)

theorem start_line (cfg : Config) : (State.start cfg : State R).line = [] := by
  simp [State.line, State.start, Shared.start, Actor.start, ActorPoint.line, FetchPoint.line,
    DecodePoint.line, WriterPoint.line]

theorem inLine_start (cfg : Config) : InLine (State.start cfg : State R) := by
  refine ⟨?_, ?_, nofun, nofun, .nil⟩
  · rw [start_line]
    exact .nil
  · rw [start_line]
    exact nofun

theorem pairwise_of_length_le_one {items : List Nat} (short : items.length ≤ 1) :
    items.Pairwise (· < ·) := by
  cases items with
  | nil => exact .nil
  | cons head rest =>
      cases rest with
      | nil => exact List.pairwise_singleton _ head
      | cons next rest => simp at short

/-- The writer's unit is the first in line. -/
theorem first_in_line [TypedRecords R] {cfg : Config} {s : State R} (serial : cfg.Serial)
    (reachable : (machine R cfg).Reachable s) (ordered : s.line.Pairwise (· < ·))
    {p : WriterPoint R} (member : p ∈ s.writers) {q : Nat} (holds : p.line = [q]) :
    q ∈ s.line ∧ ∀ x ∈ s.line, q ≤ x := by
  have inLine : q ∈ s.line := by
    refine List.mem_append_left _ (List.mem_flatMap.mpr ⟨p, member, ?_⟩)
    rw [holds]
    exact List.mem_cons_self
  refine ⟨inLine, fun x isMember => ?_⟩
  rcases serial with one | ⟨_, _, one⟩
  · have permits := (accounts_of_reachable reachable).permits
    have length := line_length_le s
    have depth : cfg.depth ≤ 1 := by
      simp only [Config.depth, SourceBackpressureOptions.channelDepth]
      omega
    obtain ⟨head, line⟩ : ∃ head, s.line = [head] := by
      refine List.length_eq_one_iff.mp (Nat.le_antisymm (by omega) ?_)
      exact List.length_pos_of_mem inLine
    rw [line] at inLine isMember
    rw [List.mem_singleton.mp inLine, List.mem_singleton.mp isMember]
  · have staff := (staff_of_reachable reachable).writers
    obtain ⟨only, writers⟩ := List.length_eq_one_iff.mp (staff.trans (by omega))
    rw [writers, List.mem_singleton] at member
    rw [State.line, writers, ← member, List.flatMap_cons, holds] at ordered isMember
    rcases List.mem_cons.mp isMember with same | behind
    · exact Nat.le_of_eq same.symm
    · exact Nat.le_of_lt ((List.pairwise_cons.mp ordered).1 x behind)

/-- The order of the line after a step. -/
theorem LineStep.keeps_order [TypedRecords R] {cfg : Config} {s s' : State R} {new : List Nat}
    (moves : LineStep s s' new) (serial : cfg.Serial) (reachable : (machine R cfg).Reachable s)
    (later : (machine R cfg).Reachable s')
    (ordered : (s.line ++ new).Pairwise (· < ·)) : s'.line.Pairwise (· < ·) := by
  rcases serial with one | ⟨fetch, decode, write⟩
  · have permits := (accounts_of_reachable later).permits
    have length := line_length_le s'
    have depth : cfg.depth ≤ 1 := by
      simp only [Config.depth, SourceBackpressureOptions.channelDepth]
      omega
    exact pairwise_of_length_le_one (by omega)
  · obtain ⟨fetchers, decoders, writers, _⟩ := staff_of_reachable reachable
    exact ordered.sublist (moves.ordered (by omega) (by omega) (by omega))

theorem InLine.step [TypedRecords R] {cfg : Config} {s s' : State R} {action : Action R}
    (serial : cfg.Serial) (inLine : InLine s) (reachable : (machine R cfg).Reachable s)
    (taken : Pipeline.step cfg s action = some s') : InLine s' := by
  obtain ⟨new, moves⟩ := lineStep_of_step taken
  have later : (machine R cfg).Reachable s' := .step action reachable taken
  have ordered := (books_of_reachable later).keeps.ordered
  rw [moves.registered] at ordered
  obtain ⟨_, inNew, after⟩ := List.pairwise_append.mp ordered
  have newer : ∀ q, (q, q) ∈ registeredRanges s.shared.history → ∀ x ∈ new, q < x :=
    fun q member x isNew => after (q, q) member (x, x) (List.mem_map_of_mem isNew)
  have sorted : s'.line.Pairwise (· < ·) := by
    refine moves.keeps_order serial reachable later (List.pairwise_append.mpr
      ⟨inLine.ordered, by simpa [List.pairwise_map] using inNew, fun q member x isNew => ?_⟩)
    exact newer q (inLine.registered q member) x isNew
  have registered : ∀ q ∈ s'.line, (q, q) ∈ registeredRanges s'.shared.history := by
    intro q member
    rw [moves.registered]
    rcases moves.members q member with old | isNew
    · exact List.mem_append_left _ (inLine.registered q old)
    · exact List.mem_append_right _ (List.mem_map_of_mem isNew)
  have called : ∀ q ∈ sinkCalls s.shared.history,
      (q, q) ∈ registeredRanges s'.shared.history := by
    intro q member
    rw [moves.registered]
    exact List.mem_append_left _ (inLine.called q member)
  have below : ∀ q ∈ sinkCalls s.shared.history, ∀ x ∈ s'.line, q ≤ x := by
    intro q member x inLine'
    rcases moves.members x inLine' with old | isNew
    · exact inLine.below q member x old
    · exact Nat.le_of_lt (newer q (inLine.called q member) x isNew)
  rcases moves.calls with same | ⟨q, grown, p, member, holds⟩
  · rw [← same] at called below
    refine ⟨sorted, registered, called, below, ?_⟩
    rw [same]
    exact inLine.calls
  · obtain ⟨present, first⟩ := first_in_line serial later sorted member holds
    refine ⟨sorted, registered, ?_, ?_, ?_⟩
    · intro other isCall
      rw [grown] at isCall
      rcases List.mem_append.mp isCall with old | isNew
      · exact called other old
      · rw [List.mem_singleton.mp isNew]
        exact registered q present
    · intro other isCall
      rw [grown] at isCall
      rcases List.mem_append.mp isCall with old | isNew
      · exact below other old
      · rw [List.mem_singleton.mp isNew]
        exact first
    · rw [grown]
      refine List.pairwise_append.mpr ⟨inLine.calls, List.pairwise_singleton _ q, ?_⟩
      intro other isCall x isNew
      rw [List.mem_singleton.mp isNew]
      exact below other isCall q present

theorem inLine_of_reachable [TypedRecords R] {cfg : Config} {s : State R} (serial : cfg.Serial)
    (reachable : (machine R cfg).Reachable s) : InLine s :=
  reachable.invariant (inLine_start cfg) fun _ _ _ before inLine taken =>
    inLine.step serial before taken

/-- A serial pipeline calls `Sink::write` in the order of admission, whatever fails and however
often it retries: the attempts of a range come before those of a later one, one range at a time
is being written, and it is the first that is not finished. -/
theorem serial_pipeline_writes_in_order [TypedRecords R] (cfg : Config) (serial : cfg.Serial)
    (s : State R) (reachable : (machine R cfg).Reachable s) :
    (sinkCalls s.shared.history).Pairwise (· ≤ ·) ∧
    (∀ q ∈ sinkCalls s.shared.history, .registered q ∈ s.shared.history) ∧
    s.line.Pairwise (· < ·) ∧
    ∀ p ∈ s.writers, ∀ q ∈ p.line, ∀ x ∈ s.line, q ≤ x := by
  have inLine := inLine_of_reachable serial reachable
  refine ⟨inLine.calls, fun q member => ?_, inLine.ordered, fun p member q holds => ?_⟩
  · exact (mem_registeredRanges.mp (inLine.called q member)).2
  · cases p with
    | writing | checking | backingOff =>
        exact (first_in_line serial reachable inLine.ordered member
          (by rw [List.mem_singleton.mp holds]; rfl)).2
    | _ => cases holds

/-- As `narrowConfig`, with one worker in each pool. -/
def lockstepConfig : Config :=
  { narrowConfig with
    options := { narrowConfig.options with
      sink := { narrowConfig.options.sink with maxConcurrentCommits := 1 } } }

/-- A fetched batch goes through the decoder to the writer. -/
def passRun (sequence : U64) : List (Action SizedRecords) :=
  [.fetch 0 .take, .fetch 0 (.answer (.ok ⟨[], sequence, "a", []⟩)), .fetch 0 .send,
    .decode 0 .take, .decode 0 (.decode (sizedDecoder 1)), .decode 0 .send, .writer 0 .take]

/-- Two batches, the first written at the second attempt. -/
theorem serial_pipeline_writes_in_order_retry : ∃ s : State SizedRecords,
    (machine SizedRecords lockstepConfig).Reachable s ∧
      sinkCalls s.shared.history = [0, 0, 1] ∧
      (sinkCalls s.shared.history).Pairwise (· ≤ ·) := by
  have called : ((machine SizedRecords lockstepConfig).run (oversizeRun.take 10 ++ passRun 0 ++
      [.writer 0 (.write (.error (.notCommitted "busy"))), .writer 0 .wake,
        .writer 0 (.write (.ok ⟨1, 1⟩)), .writer 0 .report, .writer 0 .releaseBytes,
        .writer 0 .releasePermit] ++ passRun 1)).map (fun s => sinkCalls s.shared.history) =
      some [0, 0, 1] := by
    decide
  obtain ⟨s, ran, calls⟩ := Option.map_eq_some_iff.mp called
  have reachable := (machine SizedRecords lockstepConfig).run_reachable _ s ran
  exact ⟨s, reachable, calls,
    (serial_pipeline_writes_in_order lockstepConfig (Or.inr ⟨by decide, by decide, by decide⟩) s
      reachable).1⟩

end OpendataIngest.Runtime.Pipeline
