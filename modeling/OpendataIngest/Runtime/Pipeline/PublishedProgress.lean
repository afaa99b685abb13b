import OpendataIngest.Runtime.Pipeline.Acks
import OpendataIngest.Runtime.Pipeline.ReportedRows

/-!
# What the progress channel shows

The actor counts the completions it processes and publishes its `RuntimeProgress` at the end
of the completion arm and when it leaves.  A snapshot is the true figures of an earlier moment
of the run: of the present one, but for a completion whose flush has not succeeded.
-/

set_option autoImplicit false

namespace OpendataIngest.Runtime.Pipeline

open MachineInt Pool AckCoordinator

variable {R : Type}

/-! ## The figures of a history -/

def Event.processed? : Event → Option Nat
  | .markedCommitted low _ => some low
  | _ => none

/-- The batches whose completion the actor has processed, oldest first. -/
def processed (history : List Event) : List Nat :=
  (history.filterMap Event.processed?).reverse

/-- The registered ranges the frontier has not passed. -/
def pendingRanges (history : List Event) : List Range :=
  (registeredRanges history).dropWhile (isMarked history)

def figures (history : List Event) : RuntimeProgress where
  batchesRead := min (processed history).length u64Max
  sourceRangesCommitted := min (processed history).length u64Max
  recordsWritten := min (total (fun q => rowsOf q history) (processed history)) u64Max
  lastDecodedSequence := (processed history).getLast?
  lastAckedSequence := (acks history).getLast?
  pendingRangesTotal := (pendingRanges history).length

theorem processed_append (newer older : List Event) :
    processed (newer ++ older) = processed older ++ processed newer := by
  simp [processed]

theorem mem_processed {history : List Event} {q : Nat} :
    q ∈ processed history ↔ ∃ high, .markedCommitted q high ∈ history := by
  rw [processed, List.mem_reverse, List.mem_filterMap]
  constructor
  · rintro ⟨event, member, isProcessed⟩
    cases event with
    | markedCommitted low high =>
        cases isProcessed
        exact ⟨high, member⟩
    | _ => cases isProcessed
  · rintro ⟨high, member⟩
    exact ⟨_, member, rfl⟩

/-- The coordinator's pending entries are the ranges after the frontier. -/
theorem Keeps.pendingCount {cfg : Config} {c : AckCoordinator} {history : List Event}
    (keeps : Keeps cfg c history) : c.pendingCount = (pendingRanges history).length := by
  obtain ⟨popped, rest, ranges, tracks, settled, _⟩ := keeps
  have passed : pendingRanges history = rest := by
    rw [pendingRanges, ← ranges, List.dropWhile_append_of_pos tracks.popped_committed]
    cases rest with
    | nil => rfl
    | cons head tail => exact List.dropWhile_cons_of_neg (by simp [settled head rfl])
  rw [passed, AckCoordinator.pendingCount, SortedMap.size, tracks.pending_eq, List.length_map]

/-- The figures that count completions. -/
structure Tallied (progress : RuntimeProgress) (history : List Event) : Prop where
  batches : progress.batchesRead = (figures history).batchesRead
  ranges : progress.sourceRangesCommitted = (figures history).sourceRangesCommitted
  records : progress.recordsWritten = (figures history).recordsWritten
  decoded : progress.lastDecodedSequence = (figures history).lastDecodedSequence

theorem Tallied.eq_figures {progress : RuntimeProgress} {history : List Event}
    (tallied : Tallied progress history)
    (acked : progress.lastAckedSequence = (acks history).getLast?)
    (pending : progress.pendingRangesTotal = (pendingRanges history).length) :
    progress = figures history := by
  obtain ⟨batches, ranges, records, decoded⟩ := tallied
  cases progress
  simp only at batches ranges records decoded acked pending
  rw [batches, ranges, records, decoded, acked, pending]
  rfl

theorem newest_ack (frontier : Nat) (events older : List Event)
    (none : events.filterMap Event.ackThrough? = []) :
    (acks (events ++ .ackThrough frontier :: older)).getLast? = some frontier := by
  simp [acks, none, Event.ackThrough?]

/-- The history grew by events that process nothing and leave the rows of the processed
batches alone. -/
structure Uncounted (events history : List Event) : Prop where
  processed : processed events = []
  rows : ∀ q ∈ Pipeline.processed history, rowsOf q (events ++ history) = rowsOf q history

/-- Nothing is acked either. -/
structure Unprocessing (events history : List Event) : Prop extends Uncounted events history where
  acks : acks events = []

section Unprocessing

variable {events history : List Event}

theorem Uncounted.processed_append (quiet : Uncounted events history) :
    Pipeline.processed (events ++ history) = Pipeline.processed history := by
  rw [Pipeline.processed_append, quiet.processed, List.append_nil]

theorem Uncounted.rows_total (quiet : Uncounted events history) :
    total (fun q => rowsOf q (events ++ history)) (Pipeline.processed (events ++ history)) =
      total (fun q => rowsOf q history) (Pipeline.processed history) := by
  rw [quiet.processed_append]
  exact total_congr _ _ _ quiet.rows

theorem Tallied.append {progress : RuntimeProgress} (tallied : Tallied progress history)
    (quiet : Uncounted events history) : Tallied progress (events ++ history) where
  batches := by rw [figures, quiet.processed_append, tallied.batches, figures]
  ranges := by rw [figures, quiet.processed_append, tallied.ranges, figures]
  records := by rw [figures, quiet.rows_total, tallied.records, figures]
  decoded := by rw [figures, quiet.processed_append, tallied.decoded, figures]

theorem Unprocessing.acks_append (quiet : Unprocessing events history) :
    Pipeline.acks (events ++ history) = Pipeline.acks history := by
  rw [Pipeline.acks_append, quiet.acks, List.append_nil]

theorem Unprocessing.figures (quiet : Unprocessing events history) (neutral : Neutral events) :
    Pipeline.figures (events ++ history) = Pipeline.figures history := by
  rw [Pipeline.figures, quiet.rows_total, quiet.processed_append, quiet.acks_append, pendingRanges,
    neutral.registeredRanges_append, neutral.isMarked_append, Pipeline.figures, pendingRanges]

end Unprocessing

/-! ## The actor's figures -/

/-- The actor has published what it counted. -/
def ActorPoint.isShown : ActorPoint → Bool
  | .flushing _ _ => false
  | .exited (.error _) => false
  | _ => true

def ActorPoint.isMidFlush : ActorPoint → Bool
  | .flushing _ _ => true
  | _ => false

def ActorPoint.hasLeft : ActorPoint → Bool
  | .exited (.ok _) => true
  | _ => false

structure Figured (a : Actor) (history : List Event) : Prop where
  tallied : Tallied a.progress history
  acked : a.point.isShown = true → a.progress.lastAckedSequence = (acks history).getLast?
  flushing : ∀ sequence frontier, a.point = .flushing sequence frontier →
    (acks history).getLast? = some frontier
  published : ∃ newer older, history = newer ++ older ∧ a.published = figures older ∧
    (processed newer).length ≤ 1 ∧ (a.point.isShown = true → processed newer = [])
  left : a.point = .exited (.ok ()) → a.published = figures history

theorem figured_start (cfg : Config) : Figured (Actor.start cfg) [] where
  tallied := ⟨rfl, rfl, rfl, rfl⟩
  acked _ := rfl
  flushing _ _ at_flushing := by cases at_flushing
  published := ⟨[], [], rfl, rfl, Nat.zero_le 1, fun _ => rfl⟩
  left returned := by cases returned

section Figured

variable {a a' : Actor} {history : List Event}

/-- The actor's figures stay, and so do those of the history. -/
theorem Figured.same (figured : Figured a history) (events : List Event)
    (quiet : Unprocessing events history) (progress : a'.progress = a.progress)
    (published : a'.published = a.published)
    (shown : a'.point.isShown = true → a.point.isShown = true)
    (flushing : a'.point.isMidFlush = false) (running : a'.point.hasLeft = false) :
    Figured a' (events ++ history) where
  tallied := by
    rw [progress]
    exact figured.tallied.append quiet.toUncounted
  acked isShown := by
    rw [progress, quiet.acks_append]
    exact figured.acked (shown isShown)
  flushing sequence frontier at_flushing := by
    rw [at_flushing] at flushing
    cases flushing
  published := by
    obtain ⟨newer, older, cut, snapshot, few, upToDate⟩ := figured.published
    refine ⟨events ++ newer, older, ?_, published.trans snapshot, ?_, fun isShown => ?_⟩
    · rw [cut, List.append_assoc]
    · rw [processed_append, quiet.processed, List.append_nil]
      exact few
    · rw [processed_append, quiet.processed, List.append_nil]
      exact upToDate (shown isShown)
  left returned := by
    rw [returned] at running
    cases running

/-- The other tasks add to the history, and the actor stays as it is. -/
theorem Figured.others (figured : Figured a history) (events : List Event)
    (quiet : Unprocessing events history) (neutral : Neutral events) :
    Figured a (events ++ history) where
  tallied := figured.tallied.append quiet.toUncounted
  acked isShown := by
    rw [quiet.acks_append]
    exact figured.acked isShown
  flushing sequence frontier at_flushing := by
    rw [quiet.acks_append]
    exact figured.flushing sequence frontier at_flushing
  published := by
    obtain ⟨newer, older, cut, snapshot, few, upToDate⟩ := figured.published
    refine ⟨events ++ newer, older, ?_, snapshot, ?_, fun isShown => ?_⟩
    · rw [cut, List.append_assoc]
    · rw [processed_append, quiet.processed, List.append_nil]
      exact few
    · rw [processed_append, quiet.processed, List.append_nil]
      exact upToDate isShown
  left returned := by
    rw [quiet.figures neutral]
    exact figured.left returned

/-- An actor that publishes what it has counted shows the figures of the moment. -/
theorem figured_publish (tallied : Tallied a.progress history)
    (acked : a.progress.lastAckedSequence = (acks history).getLast?)
    (pending : a.coordinator.pendingCount = (pendingRanges history).length)
    (flushing : a.point.isMidFlush = false) : Figured a.publish history := by
  have shows : a.publish.published = figures history :=
    Tallied.eq_figures ⟨tallied.batches, tallied.ranges, tallied.records, tallied.decoded⟩
      acked pending
  refine ⟨⟨tallied.batches, tallied.ranges, tallied.records, tallied.decoded⟩, fun _ => acked,
    fun sequence frontier at_flushing => ?_, ⟨[], history, rfl, shows, Nat.zero_le 1, fun _ => rfl⟩,
    fun _ => shows⟩
  change a.point = _ at at_flushing
  rw [at_flushing] at flushing
  cases flushing

/-- A processed completion is counted. -/
theorem Tallied.mark (tallied : Tallied a.progress history) {c : AckCoordinator}
    {report : CommittedReport} (single : report.range.2.val = report.range.1.val)
    (rows : report.rowsWritten = rowsOf report.range.1.val history) :
    Tallied (a.marked c report).progress
      (.markedCommitted report.range.1.val report.range.2.val ::
        .completionReceived report.range.1.val report.range.2.val :: history) := by
  have grown : processed (.markedCommitted report.range.1.val report.range.2.val ::
      .completionReceived report.range.1.val report.range.2.val :: history) =
        processed history ++ [report.range.1.val] :=
    processed_append [.markedCommitted _ _, .completionReceived _ _] history
  have sameRows : ∀ q, rowsOf q (.markedCommitted report.range.1.val report.range.2.val ::
      .completionReceived report.range.1.val report.range.2.val :: history) = rowsOf q history :=
    fun q => by simp [rowsOf, Event.rowsOf]
  have counts : min ((processed history).length + 1) u64Max =
      saturatingAdd (min (processed history).length u64Max) 1 := by
    simp only [saturatingAdd]
    omega
  refine ⟨?_, ?_, ?_, ?_⟩
  · rw [figures, grown, List.length_append, List.length_singleton]
    simp only [Actor.marked, Actor.countCompletion, tallied.batches, figures, counts]
  · rw [figures, grown, List.length_append, List.length_singleton]
    simp only [Actor.marked, Actor.countCompletion, tallied.ranges, figures, counts]
  · rw [figures, grown]
    simp only [Actor.marked, Actor.countCompletion, tallied.records, figures, sameRows,
      total_append, total_cons, total_nil, rows, saturatingAdd]
    omega
  · rw [figures, grown]
    simp [Actor.marked, Actor.countCompletion, single]

end Figured

/-! ## Steps -/

theorem uncounted_of_quiet {events history : List Event}
    (quiet : ∀ event ∈ events, event.processed? = none ∧ ∀ q, event.rowsOf q = 0) :
    Uncounted events history where
  processed := List.reverse_eq_nil_iff.mpr
    (List.filterMap_eq_nil_iff.mpr fun event member => (quiet event member).1)
  rows q _ := by
    rw [rowsOf, total_append, total_eq_zero _ _ fun event member => (quiet event member).2 q,
      Nat.zero_add, rowsOf]

theorem uncounted_single {event : Event} {history : List Event}
    (quiet : event.processed? = none ∧ ∀ q, event.rowsOf q = 0) :
    Uncounted [event] history := by
  refine uncounted_of_quiet fun other member => ?_
  rw [List.mem_singleton.mp member]
  exact quiet

theorem unprocessing_nil (history : List Event) : Unprocessing [] history :=
  ⟨⟨rfl, fun _ _ => rfl⟩, rfl⟩

theorem unprocessing_single {event : Event} {history : List Event}
    (quiet : event.processed? = none ∧ ∀ q, event.rowsOf q = 0)
    (noAck : event.ackThrough? = none) : Unprocessing [event] history where
  toUncounted := uncounted_single quiet
  acks := by rw [acks, List.filterMap_cons, noAck]; rfl

theorem admission_progress (a : Actor) (sh : Shared R) (gates : List Reservation)
    (descriptors : List SourceBatchDescriptor) :
    (admission a sh gates descriptors).1.progress = a.progress ∧
      (admission a sh gates descriptors).1.published = a.published ∧
      (admission a sh gates descriptors).1.point.isMidFlush = false ∧
      (admission a sh gates descriptors).1.point.hasLeft = false := by
  cases descriptors with
  | nil => exact ⟨rfl, rfl, rfl, rfl⟩
  | cons first rest =>
      simp only [admission]
      split
      · exact ⟨rfl, rfl, rfl, rfl⟩
      · exact ⟨rfl, rfl, rfl, rfl⟩

theorem admission_unprocessing (sequences handed : List Nat) (history : List Event) :
    Unprocessing ((sequences.map Event.registered).reverse ++ [.handedOut handed]) history := by
  refine ⟨uncounted_of_quiet fun event member => ?_, (ackFree_registered sequences handed).1⟩
  rcases admission_events member with ⟨sequence, _, rfl⟩ | rfl
  · exact ⟨rfl, fun _ => rfl⟩
  · exact ⟨rfl, fun _ => rfl⟩

theorem receiveCommitted_figured {cfg : Config} {a : Actor} (sh : Shared R)
    {report : CommittedReport} (figured : Figured a sh.history) (select : a.point.isShown = true)
    (single : report.range.2.val = report.range.1.val)
    (rows : report.rowsWritten = rowsOf report.range.1.val sh.history)
    (later : Keeps cfg (receiveCommitted cfg a sh report).1.coordinator
      (receiveCommitted cfg a sh report).2.history) :
    Figured (receiveCommitted cfg a sh report).1 (receiveCommitted cfg a sh report).2.history := by
  have acked := figured.acked select
  have shape := receiveCommitted_cases cfg a sh report
  generalize receiveCommitted cfg a sh report = moved at shape later ⊢
  obtain ⟨a', sh'⟩ := moved
  cases shape with
  | rejected c error =>
      exact figured.same [.completionReceived report.range.1.val report.range.2.val]
        (unprocessing_single ⟨rfl, fun _ => rfl⟩ rfl) rfl rfl (fun shown => by cases shown) rfl rfl
  | marked c marks acks =>
      have tallied := figured.tallied.mark (c := c) single rows
      have ackedAfter : Pipeline.acks (.markedCommitted report.range.1.val report.range.2.val ::
          .completionReceived report.range.1.val report.range.2.val :: sh.history) =
            Pipeline.acks sh.history := acks_append_of_none [_, _] rfl _
      cases acks with
      | silent =>
          refine figured_publish ⟨tallied.batches, tallied.ranges, tallied.records,
            tallied.decoded⟩ (acked.trans ?_) later.pendingCount rfl
          rw [← ackedAfter]
          rfl
      | deferred frontier =>
          have after := tallied.append (uncounted_single ⟨rfl, fun _ => rfl⟩ :
            Uncounted [.ackThrough frontier] _)
          exact figured_publish ⟨after.batches, after.ranges, after.records, after.decoded⟩
            (newest_ack frontier [] _ rfl).symm later.pendingCount rfl
      | flushes frontier =>
          have after := tallied.append (uncounted_of_quiet (by simp [Event.processed?,
            Event.rowsOf]) : Uncounted [.consumerAckCalled frontier, .ackThrough frontier] _)
          obtain ⟨newer, older, cut, snapshot, _, upToDate⟩ := figured.published
          refine ⟨⟨after.batches, after.ranges, after.records, after.decoded⟩,
            (fun shown => by cases shown), ?_, ?_, fun left => by cases left⟩
          · intro sequence other at_flushing
            cases at_flushing
            exact newest_ack frontier [.consumerAckCalled frontier] _ rfl
          · refine ⟨.consumerAckCalled frontier :: .ackThrough frontier ::
              .markedCommitted report.range.1.val report.range.2.val ::
              .completionReceived report.range.1.val report.range.2.val :: newer, older, ?_,
              snapshot, ?_, fun shown => by cases shown⟩
            · simp only [List.cons_append, ← cut]
              rfl
            · have counts : processed (.consumerAckCalled frontier :: .ackThrough frontier ::
                  .markedCommitted report.range.1.val report.range.2.val ::
                  .completionReceived report.range.1.val report.range.2.val :: newer) =
                    processed newer ++ [report.range.1.val] :=
                processed_append [_, _, _, _] newer
              rw [counts, upToDate select]
              exact Nat.le_refl 1

theorem leaveCleanly_figured {a : Actor} {events history : List Event}
    (figured : Figured a history) (quiet : Unprocessing events history) (neutral : Neutral events)
    (shown : a.point.isShown = true)
    (pending : a.coordinator.pendingCount = (pendingRanges history).length) :
    Figured { a.publish with point := .exited (.ok ()) } (events ++ history) := by
  have published := figured_publish (a := { a with point := .exited (.ok ()) })
    (figured.tallied.append quiet.toUncounted) ?_ ?_ rfl
  · exact published
  · rw [quiet.acks_append]
    exact figured.acked shown
  · rw [pendingRanges, neutral.registeredRanges_append, neutral.isMarked_append]
    exact pending

/-- Nothing the sink answers after a batch is processed is for this batch. -/
theorem rows_of_processed [TypedRecords R] {cfg : Config} {s s' : State R} {action : Action R}
    (reachable : (machine R cfg).Reachable s) (taken : step cfg s action = some s') {q : Nat}
    (member : q ∈ processed s.shared.history) :
    rowsOf q s'.shared.history = rowsOf q s.shared.history := by
  rcases rowsOf_step taken with same | ⟨i, attempt, unit, result, writes⟩
  · exact same q
  · obtain ⟨inLine, _⟩ := writes.leaves_line reachable taken
    have waits := line_waits reachable inLine
    have differs : unit.place ≠ q := by
      rintro rfl
      obtain ⟨high, marked⟩ := mem_processed.mp member
      obtain ⟨registered, unmarked⟩ := List.mem_filter.mp waits
      have keeps := (books_of_reachable reachable).keeps
      obtain ⟨popped, rest, ranges, tracks, _⟩ := keeps
      have isRegistered := tracks.committed_registered (unit.place, high) (decide_eq_true marked)
      rw [ranges] at isRegistered
      have single := (mem_registeredRanges.mp isRegistered).1
      simp only at single
      rw [← single] at marked
      rw [isMarked, decide_eq_true marked] at unmarked
      cases unmarked
    rw [writes.history, rowsOf_returned, if_neg differs, Nat.zero_add]

theorem unprocessing_of_fromSink {events history : List Event}
    (fromSink : ∀ event ∈ events, event.fromSink = true)
    (rows : ∀ q ∈ processed history, rowsOf q (events ++ history) = rowsOf q history) :
    Unprocessing events history where
  processed := by
    refine List.reverse_eq_nil_iff.mpr (List.filterMap_eq_nil_iff.mpr fun event member => ?_)
    exact Event.of_fromSink event (fromSink event member) (fun _ => rfl) (fun _ _ => rfl)
      fun _ _ => rfl
  rows := rows
  acks := (ackFree_of_fromSink fromSink).1

theorem stepActor_figured [TypedRecords R] {cfg : Config} (live : cfg.dryRun = false)
    {s : State R} {action : ActorAction} {a' : Actor} {sh' : Shared R}
    (figured : Figured s.actor s.shared.history) (reachable : (machine R cfg).Reachable s)
    (taken : stepActor cfg s.shutdown s.fetchersGone s.decodersGone s.writersGone s.actor s.shared
      action = some (a', sh')) : Figured a' sh'.history := by
  have keeps := (books_of_reachable reachable).keeps
  have later : Keeps cfg a'.coordinator sh'.history := by
    have after : (machine R cfg).Reachable { s with actor := a', shared := sh' } :=
      .step (.actor action) reachable (Transition.actor taken).taken
    exact (books_of_reachable after).keeps
  have still := unprocessing_nil s.shared.history
  cases actorStep_of_stepActor taken with
  | aborts permit error at_select | receivesFatal permit error rest at_select
  | workersGone permit error at_select =>
      rw [cancelAdmission_eq]
      exact figured.same [] still rfl rfl (fun shown => by cases shown) rfl rfl
  | closes permit at_select =>
      rw [cancelAdmission_eq]
      refine figured.same [] still rfl rfl (fun _ => ?_) rfl rfl
      rw [at_select]
      rfl
  | receives permit report rest at_select queue busy =>
      rw [cancelAdmission_eq] at later ⊢
      have reports : s.Reports report := Or.inl (by rw [queue]; exact List.mem_cons_self)
      have rows := (rowsReported_of_reachable live reachable).reports report reports
      exact receiveCommitted_figured { s.shared with
        freePermits := s.shared.freePermits +
          total Holding.permits (ActorPoint.select permit).holdings
        completions := rest } figured (by rw [at_select]; rfl)
        (reports_waits reachable reports).1 rows later
  | admits answer gates descriptors at_polling =>
      obtain ⟨progress, published, flushing, running⟩ :=
        admission_progress s.actor s.shared gates descriptors
      rw [admission_history, List.append_cons]
      refine figured.same _ (admission_unprocessing _ _ _) progress published (fun _ => ?_)
        flushing running
      rw [at_polling]
      rfl
  | pollFails | sendFails =>
      rw [dropGates_eq]
      exact figured.same [] still rfl rfl (fun shown => by cases shown) rfl rfl
  | flushed sequence frontier at_flushing =>
      have quiet : Unprocessing [.consumerAckReturned sequence (.ok ())] s.shared.history :=
        unprocessing_single ⟨rfl, fun _ => rfl⟩ rfl
      have tallied := figured.tallied.append quiet.toUncounted
      refine figured_publish ⟨tallied.batches, tallied.ranges, tallied.records, tallied.decoded⟩ ?_
        later.pendingCount rfl
      have newest := figured.flushing sequence frontier at_flushing
      rw [← quiet.acks_append] at newest
      exact newest.symm
  | flushFails sequence error =>
      exact figured.same [.consumerAckReturned sequence (.error error)]
        (unprocessing_single ⟨rfl, fun _ => rfl⟩ rfl) rfl rfl (fun shown => by cases shown) rfl rfl
  | flushedLast sequence at_flushing =>
      have quiet : Unprocessing [.consumerAckReturned sequence (.ok ())] s.shared.history :=
        unprocessing_single ⟨rfl, fun _ => rfl⟩ rfl
      refine leaveCleanly_figured figured quiet (fun _ => ⟨rfl, rfl⟩) ?_ keeps.pendingCount
      rw [at_flushing]
      rfl
  | finishes permit sequence at_select =>
      rw [cancelAdmission_eq]
      refine figured.same [.consumerAckCalled sequence]
        (unprocessing_single ⟨rfl, fun _ => rfl⟩ rfl) rfl rfl (fun _ => ?_) rfl rfl
      rw [at_select]
      rfl
  | leaves permit at_select =>
      rw [cancelAdmission_eq]
      refine leaveCleanly_figured figured still (fun _ => ⟨rfl, rfl⟩) ?_ keeps.pendingCount
      rw [at_select]
      rfl
  | acquires at_point | claims gate k at_point | measures gate roomUnits at_point
  | counts gate roomUnits at_point | enough gates at_point | takesPermit gates extras at_point
  | noPermit gates extras at_point | takesBytes raced gates extras extra k at_point
  | noBytes raced gates extras at_point | wakes at_point | sentAll at_point
  | sends unit rest at_point =>
      refine figured.same [] still rfl rfl (fun _ => ?_) rfl rfl
      rw [at_point]
      rfl

theorem Figured.step [TypedRecords R] {cfg : Config} (live : cfg.dryRun = false)
    {s s' : State R} {action : Action R} (figured : Figured s.actor s.shared.history)
    (reachable : (machine R cfg).Reachable s) (taken : Pipeline.step cfg s action = some s') :
    Figured s'.actor s'.shared.history := by
  cases step_cases (accounts_of_reachable reachable) taken with
  | actor shape isActor =>
      subst isActor
      obtain ⟨⟨a', sh'⟩, moved, rfl⟩ := Option.map_eq_some_iff.mp taken
      exact stepActor_figured live figured reachable moved
  | other sameActor events history fromSink =>
      rw [sameActor, history]
      refine figured.others events (unprocessing_of_fromSink fromSink fun q member => ?_)
        (neutral_of_fromSink fromSink)
      rw [← history]
      exact rows_of_processed reachable taken member

theorem figured_of_reachable [TypedRecords R] {cfg : Config} (live : cfg.dryRun = false)
    {s : State R} (reachable : (machine R cfg).Reachable s) :
    Figured s.actor s.shared.history :=
  reachable.invariant (P := fun s => Figured s.actor s.shared.history) (figured_start cfg)
    fun _ _ _ before figured taken => figured.step live before taken

/-! ## After a clean exit -/

def Event.rows : Event → Nat
  | .sinkWriteReturned _ (.ok result) => result.rowsWritten
  | _ => 0

/-- The rows of all the answers of `Sink::write`. -/
def sinkRows (history : List Event) : Nat := total Event.rows history

theorem Event.total_rowsOf {sequences : List Nat} (nodup : sequences.Nodup) (event : Event)
    (covered : ∀ identity result, event = .sinkWriteReturned identity (.ok result) →
      identity.range.low.val ∈ sequences ∨ result.rowsWritten = 0) :
    total (fun q => event.rowsOf q) sequences = event.rows := by
  by_cases answered : ∃ identity result, event = .sinkWriteReturned identity (.ok result)
  · obtain ⟨identity, result, rfl⟩ := answered
    rcases covered identity result rfl with member | none
    · exact total_single nodup member result.rowsWritten
    · have zero : ∀ q, Event.rowsOf q (.sinkWriteReturned identity (.ok result)) = 0 := by
        intro q
        rw [Event.rowsOf, none, ite_self]
      rw [total_eq_zero _ _ fun q _ => zero q, Event.rows, none]
  · have zero : ∀ q, event.rowsOf q = 0 := by
      intro q
      by_contra rows
      obtain ⟨identity, result, same, _⟩ := Event.answered_of_rows rows
      exact answered ⟨identity, result, same⟩
    rw [total_eq_zero _ _ fun q _ => zero q]
    cases event with
    | sinkWriteReturned identity answer =>
        cases answer with
        | ok result => exact absurd ⟨identity, result, rfl⟩ answered
        | error failure => rfl
    | _ => rfl

theorem count_processed {history : List Event} (q : Nat)
    (single : ∀ low high, .markedCommitted low high ∈ history → high = low) :
    (processed history).count q = marks (q, q) history := by
  rw [processed, List.count_reverse]
  induction history with
  | nil => rfl
  | cons event older ih =>
      have later := ih fun low high member => single low high (List.mem_cons_of_mem event member)
      rw [marks] at later
      rw [marks, total_cons, ← later]
      cases event with
      | markedCommitted low high =>
          have same := single low high List.mem_cons_self
          simp only [List.filterMap_cons, Event.processed?, List.count_cons, Event.marks, same,
            beq_iff_eq, Prod.mk.injEq, and_self]
          omega
      | _ => simp [List.filterMap_cons, Event.processed?, Event.marks]

section Drained

variable [TypedRecords R] {cfg : Config} {s : State R} (reachable : (machine R cfg).Reachable s)
include reachable

theorem marked_registered {low high : Nat}
    (marked : .markedCommitted low high ∈ s.shared.history) :
    high = low ∧ .registered low ∈ s.shared.history := by
  obtain ⟨popped, rest, ranges, tracks, _⟩ := (books_of_reachable reachable).keeps
  have registered := tracks.committed_registered (low, high) (decide_eq_true marked)
  rw [ranges] at registered
  obtain ⟨single, isRegistered⟩ := mem_registeredRanges.mp registered
  exact ⟨single.symm, isRegistered⟩

theorem processed_nodup : (processed s.shared.history).Nodup := by
  refine List.nodup_iff_count_le_one.mpr fun q => ?_
  rw [count_processed q fun low high marked => (marked_registered reachable marked).1]
  have balance := (custody_of_reachable reachable).le (q, q)
  have once := (books_of_reachable reachable).keeps.registrations_le (q, q)
  omega

variable (all : unprocessed s.shared.history = [])
include all

/-- Everything that is registered is processed, and nothing else. -/
theorem processed_perm :
    (processed s.shared.history).Perm ((registeredRanges s.shared.history).map Prod.fst) := by
  have keeps := (books_of_reachable reachable).keeps
  refine (List.perm_ext_iff_of_nodup (processed_nodup reachable) ?_).mpr fun q => ?_
  · refine List.Nodup.map_on (fun left inLeft right inRight same => ?_) keeps.nodup
    have leftSingle := (mem_registeredRanges.mp inLeft).1
    have rightSingle := (mem_registeredRanges.mp inRight).1
    exact Prod.ext same (by rw [← leftSingle, ← rightSingle, same])
  · rw [mem_processed, List.mem_map]
    constructor
    · rintro ⟨high, marked⟩
      obtain ⟨rfl, registered⟩ := marked_registered reachable marked
      exact ⟨(high, high), mem_registeredRanges.mpr ⟨rfl, registered⟩, rfl⟩
    · rintro ⟨range, member, rfl⟩
      have registered := (mem_registeredRanges.mp member).2
      exact ⟨range.1, marked_of_processed all registered⟩

theorem rows_of_drained (live : cfg.dryRun = false) :
    total (fun q => rowsOf q s.shared.history) (processed s.shared.history) =
      sinkRows s.shared.history := by
  simp only [rowsOf]
  rw [total_comm, sinkRows]
  refine total_congr _ _ _ fun event member => ?_
  refine event.total_rowsOf (processed_nodup reachable) fun identity result answered => ?_
  subst answered
  by_cases registered : .registered identity.range.low.val ∈ s.shared.history
  · exact Or.inl (mem_processed.mpr ⟨_, marked_of_processed all registered⟩)
  · right
    have none := (rowsReported_of_reachable live reachable).unregistered identity.range.low.val
      fun isRange => registered (mem_registeredRanges.mp isRange).2
    have part := weight_le_total (Event.rowsOf identity.range.low.val) s.shared.history _ member
    rw [Event.rowsOf, if_pos rfl] at part
    rw [rowsOf] at none
    omega

end Drained

/-- Every snapshot in the progress channel is the true figures of a moment of the run, behind
by one completion at most, and by none unless its flush is pending or the actor has failed; after a
clean exit the last snapshot accounts for every batch that was handed out and for every row
the sink has reported. -/
theorem published_progress_exact [TypedRecords R] (cfg : Config) (live : cfg.dryRun = false)
    (s : State R) (reachable : (machine R cfg).Reachable s) :
    (∃ newer older, s.shared.history = newer ++ older ∧ s.actor.published = figures older ∧
      (processed newer).length ≤ 1 ∧ (s.actor.point.isShown = true → processed newer = [])) ∧
    (s.actor.point = .exited (.ok ()) →
      s.actor.published = figures s.shared.history ∧
      (∀ sequences, .handedOut sequences ∈ s.shared.history →
        ∀ q ∈ sequences, q ∈ processed s.shared.history) ∧
      s.actor.published.batchesRead =
        min (registeredRanges s.shared.history).length u64Max ∧
      s.actor.published.recordsWritten = min (sinkRows s.shared.history) u64Max ∧
      s.actor.published.pendingRangesTotal = 0) := by
  have figured := figured_of_reachable live reachable
  refine ⟨figured.published, fun exited => ?_⟩
  have books := books_of_reachable reachable
  have drained := drained_of_reachable reachable
  have all : unprocessed s.shared.history = [] := by
    rw [← List.length_eq_zero_iff, ← books.inFlight, (drained.left exited).1]
  have shows := figured.left exited
  refine ⟨shows, fun sequences member q inList => ?_, ?_, ?_, ?_⟩
  · have notFailed : s.actor.point.hasFailed = false := by
      rw [exited]
      rfl
    exact mem_processed.mpr
      ⟨q, marked_of_processed all (drained.handedOut notFailed sequences member q inList)⟩
  · rw [shows, figures, (processed_perm reachable all).length_eq, List.length_map]
  · rw [shows, figures, rows_of_drained reachable all live]
  · rw [shows, figures, ← books.keeps.pendingCount, AckCoordinator.pendingCount, SortedMap.size,
      (books.keeps.nothing_pending all).1]
    rfl

theorem published_progress_exact_one_batch : ∃ s : State SizedRecords,
    (machine SizedRecords narrowConfig).Reachable s ∧ sinkRows s.shared.history = 1 ∧
      s.actor.published.recordsWritten = 1 ∧ s.actor.published.pendingRangesTotal = 0 := by
  have ends : ((machine SizedRecords narrowConfig).run drainRun).map (fun s =>
      (s.actor.point, sinkRows s.shared.history)) = some (.exited (.ok ()), 1) := by
    decide
  obtain ⟨s, ran, values⟩ := Option.map_eq_some_iff.mp ends
  obtain ⟨exited, rows⟩ := Prod.mk.inj values
  have reachable := (machine SizedRecords narrowConfig).run_reachable _ s ran
  obtain ⟨_, _, _, records, pending⟩ :=
    (published_progress_exact narrowConfig rfl s reachable).2 exited
  refine ⟨s, reachable, rows, ?_, pending⟩
  rw [records, rows]
  rfl

end OpendataIngest.Runtime.Pipeline
