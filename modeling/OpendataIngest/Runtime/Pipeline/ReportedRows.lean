import OpendataIngest.Runtime.Pipeline.CleanExit
import OpendataIngest.Runtime.Pipeline.Journal
import OpendataIngest.Runtime.Pipeline.Serial

/-!
# The rows of a batch

An `Ok` of `Sink::write` says how many rows it wrote, and the report of the batch carries the
number to the actor; a batch that `check_committed` has confirmed is reported with zero rows.
A batch gets one `Ok` at most, so its report says what the sink said of it.
-/

set_option autoImplicit false

namespace OpendataIngest.Runtime.Pipeline

open MachineInt Pool AckCoordinator

variable {R : Type}

/-! ## What the sink has said -/

/-- The rows an answer of the sink reports for the batch at `q`. -/
def Event.rowsOf (q : Nat) : Event → Nat
  | .sinkWriteReturned identity (.ok result) =>
      if identity.range.low.val = q then result.rowsWritten else 0
  | _ => 0

def rowsOf (q : Nat) (history : List Event) : Nat := total (Event.rowsOf q) history

theorem Event.answered_of_rows {q : Nat} {event : Event} (rows : event.rowsOf q ≠ 0) :
    ∃ identity result, event = .sinkWriteReturned identity (.ok result) ∧
      identity.range.low.val = q := by
  unfold Event.rowsOf at rows
  split at rows
  case h_1 identity result =>
    by_cases same : identity.range.low.val = q
    · exact ⟨identity, result, rfl, same⟩
    · rw [if_neg same] at rows
      exact absurd rfl rows
  case h_2 => exact absurd rfl rows

/-- The sink answers the writer `i` with `Ok`. -/
structure Writes (s s' : State R) (action : Action R) (i attempt : Nat)
    (unit : SinkCommitEnvelope R) (result : SinkCommitResult) : Prop where
  action : action = .writer i (.write (.ok result))
  present : s.writers[i]? = some (.writing attempt unit)
  after : s'.writers = s.writers.set i
    (.reportingCommitted ⟨unit.range, result.rowsWritten⟩ unit.reservation)
  history : s'.shared.history =
    .sinkWriteReturned unit.commit.identity (.ok result) :: s.shared.history
  completions : s'.shared.completions = s.shared.completions
  decoders : s'.decoders = s.decoders
  actor : s'.actor = s.actor

theorem writes_of_step [TypedRecords R] {cfg : Config} {s s' : State R} {i : Nat}
    {result : SinkCommitResult}
    (taken : step cfg s (.writer i (.write (.ok result))) = some s') :
    ∃ attempt unit, Writes s s' (.writer i (.write (.ok result))) i attempt unit result := by
  cases transition_of_step taken with
  | writer present moved =>
      cases writerStep_of_stepWriter moved with
      | writes attempt unit => exact ⟨attempt, unit, rfl, present, rfl, rfl, rfl, rfl, rfl⟩
      | retries _ _ _ _ _ _ answered => cases answered
      | givesUp _ _ _ _ _ _ answered => cases answered

/-- Only an `Ok` of the sink changes the rows of a batch. -/
theorem rowsOf_step [TypedRecords R] {cfg : Config} {s s' : State R} {action : Action R}
    (taken : step cfg s action = some s') :
    (∀ q, rowsOf q s'.shared.history = rowsOf q s.shared.history) ∨
      ∃ i attempt unit result, Writes s s' action i attempt unit result := by
  by_cases wrote : ∃ i result, action = .writer i (.write (.ok result))
  · obtain ⟨i, result, rfl⟩ := wrote
    obtain ⟨attempt, unit, writes⟩ := writes_of_step taken
    exact Or.inr ⟨i, attempt, unit, result, writes⟩
  · left
    obtain ⟨events, history, caused⟩ := step_caused taken
    intro q
    have none : total (Event.rowsOf q) events = 0 := by
      refine total_eq_zero _ _ fun event member => ?_
      by_contra rows
      obtain ⟨identity, result, rfl, _⟩ := Event.answered_of_rows rows
      obtain ⟨i, attempt, unit, isWrite, _⟩ := caused _ member
      exact wrote ⟨i, result, isWrite⟩
    rw [rowsOf, history, total_append, none, Nat.zero_add, rowsOf]

/-! ## Reports -/

def WriterPoint.report? : WriterPoint R → Option CommittedReport
  | .reportingCommitted report _ => some report
  | _ => none

def DecodePoint.reportsDryRun : DecodePoint R → Bool
  | .reportingDryRun _ _ => true
  | _ => false

/-- A report the actor has not received: in the channel, or still with its writer. -/
def State.Reports (s : State R) (report : CommittedReport) : Prop :=
  .committed report ∈ s.shared.completions ∨ ∃ p ∈ s.writers, p.report? = some report

/-- A writer makes the report: from the sink's `Ok`, or without rows. -/
def Action.Makes (s : State R) (action : Action R) (report : CommittedReport) : Prop :=
  (∃ i attempt unit result, action = .writer i (.write (.ok result)) ∧
    s.writers[i]? = some (.writing attempt unit) ∧ report = ⟨unit.range, result.rowsWritten⟩) ∨
  ∃ i attempt unit error, action = .writer i (.check (.ok .committed)) ∧
    s.writers[i]? = some (.checking attempt unit error) ∧ report = ⟨unit.range, 0⟩

theorem mem_complete {sh : Shared R} {message : WriteCompletion} {report : CommittedReport}
    (member : .committed report ∈ (sh.complete message).completions) :
    .committed report ∈ sh.completions ∨ message = .committed report := by
  rcases List.mem_append.mp member with old | new
  · exact Or.inl old
  · exact Or.inr (List.mem_singleton.mp new).symm

theorem stepActor_reports {cfg : Config} {shutdown fetchersGone decodersGone writersGone : Bool}
    {a a' : Actor} {sh sh' : Shared R} {action : ActorAction}
    (taken : stepActor cfg shutdown fetchersGone decodersGone writersGone a sh action =
      some (a', sh')) : sh'.completions ⊆ sh.completions := by
  cases actorStep_of_stepActor taken with
  | aborts | closes | workersGone | finishes | leaves =>
      rw [cancelAdmission_eq]
      first | exact List.Subset.refl _ | exact List.nil_subset _
  | receivesFatal permit error rest at_select queue =>
      rw [cancelAdmission_eq]
      exact List.nil_subset _
  | receives permit report rest at_select queue =>
      rw [cancelAdmission_eq, queue]
      have shape := receiveCommitted_cases cfg a { sh with
        freePermits := sh.freePermits +
          total Holding.permits (ActorPoint.select permit).holdings
        completions := rest } report
      generalize receiveCommitted cfg a _ report = moved at shape ⊢
      obtain ⟨a', sh'⟩ := moved
      cases shape with
      | rejected => exact List.nil_subset _
      | marked c marks acks =>
          cases acks
          all_goals exact List.subset_cons_self _ _
  | pollFails =>
      rw [dropGates_eq]
      exact List.nil_subset _
  | sendFails =>
      rw [dropGates_eq]
      exact List.nil_subset _
  | admits answer gates descriptors =>
      cases descriptors with
      | nil =>
          simp only [admission, dropGates_eq]
          exact List.Subset.refl _
      | cons first rest =>
          obtain ⟨sequences, a', outcome⟩ := admission_shared a sh gates first rest
          rcases outcome with ⟨_, admitted⟩ | ⟨error, refused⟩
          · rw [admitted]
            exact List.Subset.refl _
          · rw [refused]
            exact List.nil_subset _
  | flushFails | flushedLast => exact List.nil_subset _
  | _ => exact List.Subset.refl _

theorem stepFetch_reports {cfg : Config} {killed decodersGone : Bool} {sh sh' : Shared R}
    {p p' : FetchPoint} {action : FetchAction} {report : CommittedReport}
    (taken : stepFetch cfg killed decodersGone sh p action = some (p', sh'))
    (member : .committed report ∈ sh'.completions) : .committed report ∈ sh.completions := by
  cases fetchStep_of_stepFetch taken with
  | reports error reservation =>
      refine (mem_complete member).resolve_right fun same => ?_
      cases same
  | panics p message alive =>
      obtain ⟨k, free, dropped⟩ := dropHeld_eq sh.fail p.reservation?
      rw [dropped] at member
      exact member
  | _ => exact member

/-- In a live run the decode workers report no batch. -/
theorem stepDecode_reports [TypedRecords R] {cfg : Config} (live : cfg.dryRun = false)
    {fetchersGone writersGone : Bool} {sh sh' : Shared R} {p p' : DecodePoint R}
    {action : DecodeAction R} (quiet : p.reportsDryRun = false)
    (taken : stepDecode cfg fetchersGone writersGone sh p action = some (p', sh')) :
    p'.reportsDryRun = false ∧
      ∀ report, .committed report ∈ sh'.completions → .committed report ∈ sh.completions := by
  cases decodeStep_of_stepDecode taken with
  | decodesDry unit decoder range rowsWritten reservation k decoded =>
      obtain ⟨batch, _, _, _, _, outcome⟩ := decodeOne_ok decoded
      rw [live] at outcome
      cases outcome
  | reportsDryRun => cases quiet
  | reports error reservation =>
      refine ⟨rfl, fun report member => (mem_complete member).resolve_right fun same => ?_⟩
      cases same
  | panics p message alive =>
      obtain ⟨k, free, dropped⟩ := dropHeld_eq sh.fail p.reservation?
      rw [dropped]
      exact ⟨rfl, fun _ member => member⟩
  | _ => exact ⟨rfl, fun _ member => member⟩

/-- A writer has the report of the unit it had in line, or loses the unit. -/
theorem stepWriter_reports {cfg : Config} {decodersGone : Bool} {sh sh' : Shared R}
    {p p' : WriterPoint R} {action : WriterAction} {report : CommittedReport}
    (taken : stepWriter cfg decodersGone sh p action = some (p', sh'))
    (member : .committed report ∈ sh'.completions ∨ p'.report? = some report) :
    (.committed report ∈ sh.completions ∨ p.report? = some report) ∨
    (∃ attempt unit result, action = .write (.ok result) ∧ p = .writing attempt unit ∧
      report = ⟨unit.range, result.rowsWritten⟩) ∨
    ∃ attempt unit error, action = .check (.ok .committed) ∧ p = .checking attempt unit error ∧
      report = ⟨unit.range, 0⟩ := by
  cases writerStep_of_stepWriter taken with
  | writes attempt unit result =>
      rcases member with queued | made
      · exact Or.inl (Or.inl queued)
      · exact Or.inr (Or.inl ⟨attempt, unit, result, rfl, rfl, (Option.some.inj made).symm⟩)
  | finds attempt unit error =>
      rcases member with queued | made
      · exact Or.inl (Or.inl queued)
      · exact Or.inr (Or.inr ⟨attempt, unit, error, rfl, rfl, (Option.some.inj made).symm⟩)
  | reportsCommit sent =>
      rcases member with queued | made
      · rcases mem_complete queued with old | new
        · exact Or.inl (Or.inl old)
        · cases new
          exact Or.inl (Or.inr rfl)
      · cases made
  | reports error =>
      rcases member with queued | made
      · refine Or.inl (Or.inl ((mem_complete queued).resolve_right fun same => ?_))
        cases same
      · cases made
  | panics p message alive =>
      obtain ⟨k, free, dropped⟩ := dropHeld_eq sh.fail p.reservation?
      rw [dropped] at member
      rcases member with queued | made
      · exact Or.inl (Or.inl queued)
      · cases made
  | _ =>
      rcases member with queued | made
      · exact Or.inl (Or.inl queued)
      · cases made

theorem reports_step [TypedRecords R] {cfg : Config} (live : cfg.dryRun = false)
    {s s' : State R} {action : Action R}
    (quiet : ∀ p ∈ s.decoders, p.reportsDryRun = false) (taken : step cfg s action = some s') :
    (∀ p ∈ s'.decoders, p.reportsDryRun = false) ∧
      ∀ report, s'.Reports report → s.Reports report ∨ action.Makes s report := by
  cases transition_of_step taken with
  | actor moved =>
      refine ⟨quiet, fun report member => Or.inl ?_⟩
      exact member.imp_left fun queued => stepActor_reports moved queued
  | fetch present moved =>
      refine ⟨quiet, fun report member => Or.inl ?_⟩
      exact member.imp_left fun queued => stepFetch_reports moved queued
  | decode present moved =>
      obtain ⟨still, kept⟩ :=
        stepDecode_reports live (quiet _ (List.mem_of_getElem? present)) moved
      refine ⟨fun p member => ?_, fun report member => Or.inl (member.imp_left (kept report))⟩
      rcases List.mem_or_eq_of_mem_set member with old | same
      · exact quiet p old
      · rw [same]
        exact still
  | @writer i action p p' sh' present moved =>
      refine ⟨quiet, fun report member => ?_⟩
      have lift : .committed report ∈ sh'.completions ∨ p'.report? = some report →
          s.Reports report ∨ Action.Makes s (.writer i action) report := by
        intro own
        rcases stepWriter_reports moved own with (queued | held) |
          ⟨attempt, unit, result, rfl, rfl, made⟩ | ⟨attempt, unit, error, rfl, rfl, made⟩
        · exact Or.inl (Or.inl queued)
        · exact Or.inl (Or.inr ⟨p, List.mem_of_getElem? present, held⟩)
        · exact Or.inr (Or.inl ⟨i, attempt, unit, result, rfl, present, made⟩)
        · exact Or.inr (Or.inr ⟨i, attempt, unit, error, rfl, present, made⟩)
      rcases member with queued | ⟨other, inPool, held⟩
      · exact lift (Or.inl queued)
      · rcases List.mem_or_eq_of_mem_set inPool with old | same
        · exact Or.inl (Or.inr ⟨other, old, held⟩)
        · exact lift (Or.inr (same ▸ held))
  | _ => exact ⟨quiet, fun report member => Or.inl member⟩

/-! ## In line or reported -/

theorem two_le_total {A : Type} (weight : A → Nat) {items : List A} {x y : A}
    (hasX : x ∈ items) (hasY : y ∈ items) (differ : x ≠ y) :
    weight x + weight y ≤ total weight items := by
  induction items with
  | nil => cases hasX
  | cons head rest ih =>
      rw [total_cons]
      rcases List.mem_cons.mp hasX with rfl | laterX
      · rcases List.mem_cons.mp hasY with rfl | laterY
        · exact absurd rfl differ
        · exact Nat.add_le_add_left (weight_le_total weight rest y laterY) _
      · rcases List.mem_cons.mp hasY with rfl | laterY
        · have own := weight_le_total weight rest x laterX
          omega
        · have both := ih laterX laterY
          omega

theorem reports_holding {s : State R} {report : CommittedReport} (reports : s.Reports report) :
    ∃ h ∈ s.holdings, h.custody = some (rangeOf report.range) ∧ h.reported = true := by
  rcases reports with queued | ⟨p, inPool, held⟩
  · have inChannel : report.holding ∈ s.shared.completions.flatMap WriteCompletion.holdings :=
      List.mem_flatMap.mpr ⟨_, queued, List.mem_singleton_self _⟩
    exact ⟨report.holding, by simp [State.holdings, Shared.holdings, inChannel], rfl, rfl⟩
  · cases p with
    | reportingCommitted own reservation =>
        cases held
        have inWriters : reportingHolding report reservation ∈
            s.writers.flatMap WriterPoint.holdings :=
          List.mem_flatMap.mpr ⟨_, inPool, List.mem_singleton_self _⟩
        exact ⟨_, List.mem_append_right _ inWriters, rfl, rfl⟩
    | _ => cases held

/-- A holding of a unit that has no report yet. -/
def Holding.Awaits (h : Holding) (q : Nat) : Prop :=
  (∃ high, h.custody = some (q, high)) ∧ h.reported = false

theorem SinkCommitEnvelope.awaits {unit : SinkCommitEnvelope R}
    (aligned : unit.holding.aligned = true) : unit.holding.Awaits unit.place := by
  have same := of_decide_eq_true aligned
  refine ⟨⟨unit.range.2.val, ?_⟩, rfl⟩
  rw [SinkCommitEnvelope.place, same]
  rfl

theorem FetchPoint.line_awaits {p : FetchPoint} {q : Nat} (member : q ∈ p.line) :
    ∃ h ∈ p.holdings, h.Awaits q := by
  cases p with
  | fetching unit =>
      rw [List.mem_singleton.mp member]
      exact ⟨_, List.mem_singleton_self _, ⟨_, rfl⟩, rfl⟩
  | sending unit =>
      rw [List.mem_singleton.mp member]
      exact ⟨_, List.mem_singleton_self _, ⟨_, rfl⟩, rfl⟩
  | _ => cases member

theorem DecodePoint.line_awaits {p : DecodePoint R} (aligned : ∀ h ∈ p.holdings, h.aligned = true)
    {q : Nat} (member : q ∈ p.line) : ∃ h ∈ p.holdings, h.Awaits q := by
  cases p with
  | decoding unit =>
      rw [List.mem_singleton.mp member]
      exact ⟨_, List.mem_singleton_self _, ⟨_, rfl⟩, rfl⟩
  | sending unit =>
      rw [List.mem_singleton.mp member]
      exact ⟨_, List.mem_singleton_self _,
        unit.awaits (aligned _ (List.mem_singleton_self _))⟩
  | _ => cases member

theorem WriterPoint.line_awaits {p : WriterPoint R} (aligned : ∀ h ∈ p.holdings, h.aligned = true)
    {q : Nat} (member : q ∈ p.line) : ∃ h ∈ p.holdings, h.Awaits q := by
  cases p with
  | writing attempt unit =>
      rw [List.mem_singleton.mp member]
      exact ⟨_, List.mem_singleton_self _,
        unit.awaits (aligned _ (List.mem_singleton_self _))⟩
  | checking attempt unit error =>
      rw [List.mem_singleton.mp member]
      exact ⟨_, List.mem_singleton_self _,
        unit.awaits (aligned _ (List.mem_singleton_self _))⟩
  | backingOff attempt unit =>
      rw [List.mem_singleton.mp member]
      exact ⟨_, List.mem_singleton_self _,
        unit.awaits (aligned _ (List.mem_singleton_self _))⟩
  | _ => cases member

theorem line_awaits {s : State R} (aligned : ∀ h ∈ s.holdings, h.aligned = true) {q : Nat}
    (member : q ∈ s.line) : ∃ h ∈ s.holdings, h.Awaits q := by
  simp only [State.line, List.mem_append, List.mem_flatMap, List.mem_map] at member
  rcases member with ⟨p, inPool, own⟩ | ⟨unit, queued, rfl⟩ | ⟨p, inPool, own⟩ |
    ⟨unit, queued, rfl⟩ | ⟨p, inPool, own⟩ | ⟨unit, queued, rfl⟩ | own
  · have below : ∀ h ∈ p.holdings, h ∈ s.holdings := fun h holds =>
      List.mem_append_right _ (List.mem_flatMap.mpr ⟨p, inPool, holds⟩)
    obtain ⟨h, holds, awaits⟩ := p.line_awaits (fun h holds => aligned h (below h holds)) own
    exact ⟨h, below h holds, awaits⟩
  · have held : unit.holding ∈ s.holdings := by
      simp [State.holdings, Shared.holdings, List.mem_map_of_mem queued]
    exact ⟨_, held, unit.awaits (aligned _ held)⟩
  · have below : ∀ h ∈ p.holdings, h ∈ s.holdings := fun h holds =>
      List.mem_append_left _ (List.mem_append_right _ (List.mem_flatMap.mpr ⟨p, inPool, holds⟩))
    obtain ⟨h, holds, awaits⟩ := p.line_awaits (fun h holds => aligned h (below h holds)) own
    exact ⟨h, below h holds, awaits⟩
  · have held : unit.holding ∈ s.holdings := by
      simp [State.holdings, Shared.holdings, List.mem_map_of_mem queued]
    exact ⟨_, held, ⟨_, rfl⟩, rfl⟩
  · obtain ⟨h, holds, awaits⟩ := p.line_awaits own
    have inFetchers : h ∈ s.fetchers.flatMap FetchPoint.holdings :=
      List.mem_flatMap.mpr ⟨p, inPool, holds⟩
    exact ⟨h, by simp [State.holdings, inFetchers], awaits⟩
  · have held : unit.holding ∈ s.holdings := by
      simp [State.holdings, Shared.holdings, List.mem_map_of_mem queued]
    exact ⟨_, held, ⟨_, rfl⟩, rfl⟩
  · cases point : s.actor.point with
    | sending rest =>
        rw [point] at own
        obtain ⟨unit, inRest, rfl⟩ := List.mem_map.mp own
        have held : unit.holding ∈ s.holdings := by
          simp [State.holdings, point, ActorPoint.holdings, List.mem_map_of_mem inRest]
        exact ⟨_, held, ⟨_, rfl⟩, rfl⟩
    | _ =>
        rw [point] at own
        cases own

section Reachable

variable [TypedRecords R] {cfg : Config} {s : State R} (reachable : (machine R cfg).Reachable s)
include reachable

theorem aligned_of_reachable : ∀ h ∈ s.holdings, h.aligned = true :=
  fun h member => ((accounts_of_reachable reachable).sound h member).aligned

/-- The custody of a range of a reachable state is of one sequence that waits. -/
theorem custody_waits {h : Holding} (member : h ∈ s.holdings) {range : Range}
    (holds : h.custody = some range) :
    range.2 = range.1 ∧ range ∈ unprocessed s.shared.history := by
  have waits := (custody_of_reachable reachable).unprocessed (books_of_reachable reachable).keeps
    member holds
  have single := (mem_registeredRanges.mp (List.mem_filter.mp waits).1).1
  exact ⟨single.symm, waits⟩

theorem line_waits {q : Nat} (inLine : q ∈ s.line) : (q, q) ∈ unprocessed s.shared.history := by
  obtain ⟨h, member, ⟨high, holds⟩, _⟩ := line_awaits (aligned_of_reachable reachable) inLine
  obtain ⟨single, waits⟩ := custody_waits reachable member holds
  simp only at single
  rwa [single] at waits

theorem reports_waits {report : CommittedReport} (reports : s.Reports report) :
    report.range.2.val = report.range.1.val ∧
      (report.range.1.val, report.range.1.val) ∈ unprocessed s.shared.history := by
  obtain ⟨h, member, holds, _⟩ := reports_holding reports
  obtain ⟨single, waits⟩ := custody_waits reachable member holds
  simp only [rangeOf] at single waits
  rw [single] at waits
  exact ⟨single, waits⟩

/-- A unit that is in line has no report. -/
theorem line_not_reported {q : Nat} (inLine : q ∈ s.line) {report : CommittedReport}
    (reports : s.Reports report) : report.range.1.val ≠ q := by
  intro same
  obtain ⟨h, member, ⟨high, holds⟩, unreported⟩ :=
    line_awaits (aligned_of_reachable reachable) inLine
  obtain ⟨h', member', holds', reported⟩ := reports_holding reports
  obtain ⟨single, _⟩ := custody_waits reachable member holds
  have singleReport := (reports_waits reachable reports).1
  simp only at single
  rw [single] at holds
  rw [rangeOf, singleReport, same] at holds'
  have differ : h ≠ h' := by
    rintro rfl
    rw [unreported] at reported
    cases reported
  have both := two_le_total (custodyOf (q, q)) member member' differ
  rw [custodyOf, custodyOf, if_pos holds, if_pos holds'] at both
  have balance := (custody_of_reachable reachable).le (q, q)
  have once := (books_of_reachable reachable).keeps.registrations_le (q, q)
  omega

end Reachable

/-! ## Every report says what the sink said -/

structure RowsReported (s : State R) : Prop where
  quiet : ∀ p ∈ s.decoders, p.reportsDryRun = false
  unanswered : ∀ q ∈ s.line, rowsOf q s.shared.history = 0
  unregistered : ∀ q, (q, q) ∉ registeredRanges s.shared.history → rowsOf q s.shared.history = 0
  reports : ∀ report, s.Reports report →
    report.rowsWritten = rowsOf report.range.1.val s.shared.history

theorem rowsReported_start (cfg : Config) : RowsReported (State.start cfg : State R) where
  quiet p member := by
    rw [List.eq_of_mem_replicate member]
    rfl
  unanswered _ _ := rfl
  unregistered _ _ := rfl
  reports report held := by
    rcases held with queued | ⟨p, inPool, held⟩
    · cases queued
    · rw [List.eq_of_mem_replicate inPool] at held
      cases held

theorem mem_line_of_writer {s : State R} {i : Nat} {p : WriterPoint R} {q : Nat}
    (present : s.writers[i]? = some p) (holds : q ∈ p.line) : q ∈ s.line :=
  List.mem_append_left _ (List.mem_flatMap.mpr ⟨p, List.mem_of_getElem? present, holds⟩)

theorem commit_low [TypedRecords R] {cfg : Config} {s : State R} {i : Nat} {p : WriterPoint R}
    {unit : SinkCommitEnvelope R} (reachable : (machine R cfg).Reachable s)
    (present : s.writers[i]? = some p) (holds : unit.holding ∈ p.holdings) :
    unit.place = unit.range.1.val := by
  have inWriters : unit.holding ∈ s.writers.flatMap WriterPoint.holdings :=
    List.mem_flatMap.mpr ⟨p, List.mem_of_getElem? present, holds⟩
  have aligned := aligned_of_reachable reachable _ (List.mem_append_right _ inWriters)
  rw [SinkCommitEnvelope.place, of_decide_eq_true aligned]

theorem rowsOf_returned (q : Nat) (unit : SinkCommitEnvelope R) (result : SinkCommitResult)
    (history : List Event) :
    rowsOf q (.sinkWriteReturned unit.commit.identity (.ok result) :: history) =
      (if unit.place = q then result.rowsWritten else 0) + rowsOf q history := by
  rw [rowsOf, total_cons, Event.rowsOf, SinkCommitEnvelope.place, rowsOf]

/-- The sink's `Ok` is for a unit in line, which leaves the line. -/
theorem Writes.leaves_line [TypedRecords R] {cfg : Config} {s s' : State R} {action : Action R}
    {i attempt : Nat} {unit : SinkCommitEnvelope R} {result : SinkCommitResult}
    (writes : Writes s s' action i attempt unit result)
    (reachable : (machine R cfg).Reachable s) (taken : step cfg s action = some s') :
    unit.place ∈ s.line ∧ unit.place ∉ s'.line := by
  refine ⟨mem_line_of_writer writes.present (List.mem_singleton_self _), fun still => ?_⟩
  have later : (machine R cfg).Reachable s' := .step action reachable taken
  have inPool : WriterPoint.reportingCommitted ⟨unit.range, result.rowsWritten⟩ unit.reservation ∈
      s'.writers := by
    rw [writes.after]
    exact List.mem_of_getElem? (present_set writes.present _)
  refine line_not_reported later still (Or.inr ⟨_, inPool, rfl⟩) ?_
  exact (commit_low reachable writes.present (List.mem_singleton_self _)).symm

theorem RowsReported.step [TypedRecords R] {cfg : Config} (live : cfg.dryRun = false)
    {s s' : State R} {action : Action R} (rows : RowsReported s)
    (reachable : (machine R cfg).Reachable s) (taken : step cfg s action = some s') :
    RowsReported s' := by
  obtain ⟨quiet, made⟩ := reports_step live rows.quiet taken
  obtain ⟨new, moves⟩ := lineStep_of_step taken
  have later : (machine R cfg).Reachable s' := .step action reachable taken
  have ordered := (books_of_reachable later).keeps.ordered
  have known : ∀ q, (q, q) ∉ registeredRanges s'.shared.history →
      (q, q) ∉ registeredRanges s.shared.history := by
    intro q absent member
    rw [moves.registered] at absent
    exact absent (List.mem_append_left _ member)
  -- a unit that joins the line was not registered before
  have fresh : ∀ q ∈ new, (q, q) ∉ registeredRanges s.shared.history := by
    intro q isNew member
    rw [moves.registered] at ordered
    have below := (List.pairwise_append.mp ordered).2.2 (q, q) member (q, q)
      (List.mem_map_of_mem isNew)
    exact Nat.lt_irrefl q below
  have before : ∀ q ∈ s'.line, rowsOf q s.shared.history = 0 := by
    intro q member
    rcases moves.members q member with old | isNew
    · exact rows.unanswered q old
    · exact rows.unregistered q (fresh q isNew)
  rcases rowsOf_step taken with same | ⟨i, attempt, unit, result, writes⟩
  · refine ⟨quiet, fun q member => ?_, fun q absent => ?_, fun report held => ?_⟩
    · rw [same, before q member]
    · rw [same, rows.unregistered q (known q absent)]
    · rw [same]
      rcases made report held with old | ⟨i, attempt, unit, result, rfl, present, rfl⟩ |
        ⟨i, attempt, unit, error, rfl, present, rfl⟩
      · exact rows.reports report old
      · obtain ⟨attempt', unit', writes⟩ := writes_of_step taken
        have unchanged := same unit'.place
        rw [writes.history, rowsOf_returned, if_pos rfl] at unchanged
        have inLine := mem_line_of_writer present (List.mem_singleton_self _)
        have sameUnit := writes.present.symm.trans present
        cases sameUnit
        have low := commit_low reachable present (List.mem_singleton_self _)
        rw [← low, rows.unanswered _ inLine]
        simp only
        omega
      · have inLine := mem_line_of_writer present (List.mem_singleton_self _)
        have low := commit_low reachable present (List.mem_singleton_self _)
        rw [← low]
        exact (rows.unanswered _ inLine).symm
  · obtain ⟨inLine, left⟩ := writes.leaves_line reachable taken
    have others : ∀ q, q ≠ unit.place →
        rowsOf q s'.shared.history = rowsOf q s.shared.history := by
      intro q differs
      rw [writes.history, rowsOf_returned, if_neg (Ne.symm differs), Nat.zero_add]
    have registered : (unit.place, unit.place) ∈ registeredRanges s.shared.history :=
      (List.mem_filter.mp (line_waits reachable inLine)).1
    refine ⟨quiet, fun q member => ?_, fun q absent => ?_, fun report held => ?_⟩
    · rw [others q fun same => left (same ▸ member), before q member]
    · rw [others q, rows.unregistered q (known q absent)]
      rintro rfl
      exact known _ absent registered
    · rcases made report held with old | ⟨j, attempt', unit', result', isWrite, present, rfl⟩ |
        ⟨j, attempt', unit', error, isCheck, present, rfl⟩
      · rw [others _ (line_not_reported reachable inLine old)]
        exact rows.reports report old
      · rw [writes.action] at isWrite
        cases isWrite
        have sameUnit := writes.present.symm.trans present
        cases sameUnit
        have low := commit_low reachable present (List.mem_singleton_self _)
        rw [← low, writes.history, rowsOf_returned, if_pos rfl, rows.unanswered _ inLine]
        rfl
      · rw [writes.action] at isCheck
        cases isCheck

theorem rowsReported_of_reachable [TypedRecords R] {cfg : Config} (live : cfg.dryRun = false)
    {s : State R} (reachable : (machine R cfg).Reachable s) : RowsReported s :=
  reachable.invariant (rowsReported_start cfg) fun _ _ _ before rows taken =>
    rows.step live before taken

end OpendataIngest.Runtime.Pipeline
