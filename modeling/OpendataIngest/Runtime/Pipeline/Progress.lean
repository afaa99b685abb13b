import OpendataIngest.Runtime.Pipeline.CleanExit
import OpendataIngest.Runtime.Pipeline.Places

/-!
# Bounded queues do not deadlock

A unit in a queue holds a permit, and so does the component that is about to send one.
There are as many permits as a queue has slots, so a send finds room.  Whoever waits for
a permit, for bytes or for a message then waits for a component that can move.
-/

set_option autoImplicit false

namespace OpendataIngest.Runtime.Pipeline

open MachineInt Pool AckCoordinator

variable {R : Type}

/-! ## Room in the queues -/

theorem total_permits_units {A : Type} (holding : A → Holding)
    (one : ∀ unit, (holding unit).permits = 1) (units : List A) :
    total Holding.permits (units.map holding) = units.length := by
  rw [total_map, total_congr _ (fun _ => 1) units fun unit _ => one unit]
  simp [total]

/-- Every queued unit and every component with a unit holds one permit. -/
theorem queued_le_permits (s : State R) :
    s.shared.descriptors.length + s.shared.fetched.length + s.shared.sinkCommits.length +
      total Holding.permits s.actor.point.holdings +
      total (fun p => total Holding.permits p.holdings) s.fetchers +
      total (fun p => total Holding.permits p.holdings) s.decoders +
      total (fun p => total Holding.permits p.holdings) s.writers ≤
    total Holding.permits s.holdings := by
  rw [State.total_holdings]
  simp only [Shared.holdings, total_append]
  rw [total_permits_units AdmittedDescriptor.holding fun _ => rfl,
    total_permits_units FetchedBatch.holding fun _ => rfl,
    total_permits_units SinkCommitEnvelope.holding fun _ => rfl]
  omega

section Room

variable {cfg : Config} {s : State R} (accounts : Accounts cfg s)
include accounts

theorem room_for_descriptor {unit : AdmittedDescriptor} {rest : List AdmittedDescriptor}
    (sending : s.actor.point = .sending (unit :: rest)) :
    s.shared.descriptors.length < cfg.depth := by
  have queued := queued_le_permits s
  have permits := accounts.permits
  have own : 1 ≤ total Holding.permits s.actor.point.holdings := by
    rw [sending]
    simp [ActorPoint.holdings, AdmittedDescriptor.holding]
  omega

theorem room_for_fetched {unit : FetchedBatch} (sending : .sending unit ∈ s.fetchers) :
    s.shared.fetched.length < cfg.depth := by
  have queued := queued_le_permits s
  have permits := accounts.permits
  have own := weight_le_total (fun p : FetchPoint => total Holding.permits p.holdings) _ _ sending
  have one : total Holding.permits (FetchPoint.sending unit).holdings = 1 := rfl
  omega

theorem room_for_sinkCommit {unit : SinkCommitEnvelope R} (sending : .sending unit ∈ s.decoders) :
    s.shared.sinkCommits.length < cfg.depth := by
  have queued := queued_le_permits s
  have permits := accounts.permits
  have own := weight_le_total (fun p : DecodePoint R => total Holding.permits p.holdings) _ _
    sending
  have one : total Holding.permits (DecodePoint.sending unit).holdings = 1 := rfl
  omega

end Room

/-! ## Moves of a component -/

def FetchAction.isProgress : FetchAction → Bool
  | .abort => false
  | .kill => false
  | .panic _ => false
  | _ => true

def DecodeAction.isProgress : DecodeAction R → Bool
  | .abort => false
  | .panic _ => false
  | _ => true

def WriterAction.isProgress : WriterAction → Bool
  | .abort => false
  | .panic _ => false
  | _ => true

/-- A component moves on its own, or because the buffer, the sink or a timer answers.
Failures and the supervisor's signals do not count. -/
def Action.isProgress : Action R → Bool
  | .actor _ => true
  | .fetch _ action => action.isProgress
  | .decode _ action => action.isProgress
  | .writer _ action => action.isProgress
  | .join => true
  | _ => false

/-- Some component does not wait for another one. -/
def State.Advances [TypedRecords R] (cfg : Config) (s : State R) : Prop :=
  ∃ action s', Action.isProgress action = true ∧ step cfg s action = some s'

section Moves

variable [TypedRecords R] {cfg : Config} {s : State R}

theorem advances_of_actor {action : ActorAction} {a' : Actor} {sh' : Shared R}
    (moves : ActorStep cfg s.shutdown s.fetchersGone s.decodersGone s.writersGone s.actor s.shared
      action a' sh') : s.Advances cfg :=
  ⟨.actor action, _, rfl, Transition.taken (.actor moves.taken)⟩

theorem advances_of_fetcher {action : FetchAction} {p p' : FetchPoint} {sh' : Shared R}
    (member : p ∈ s.fetchers)
    (moves : FetchStep cfg s.killed s.decodersGone s.shared p action p' sh')
    (progress : action.isProgress = true) : s.Advances cfg := by
  obtain ⟨i, present⟩ := List.mem_iff_getElem?.mp member
  exact ⟨.fetch i action, _, progress, Transition.taken (.fetch present moves.taken)⟩

theorem advances_of_decoder {action : DecodeAction R} {p p' : DecodePoint R} {sh' : Shared R}
    (member : p ∈ s.decoders)
    (moves : DecodeStep cfg s.fetchersGone s.writersGone s.shared p action p' sh')
    (progress : action.isProgress = true) : s.Advances cfg := by
  obtain ⟨i, present⟩ := List.mem_iff_getElem?.mp member
  exact ⟨.decode i action, _, progress, Transition.taken (.decode present moves.taken)⟩

theorem advances_of_writer {action : WriterAction} {p p' : WriterPoint R} {sh' : Shared R}
    (member : p ∈ s.writers) (moves : WriterStep cfg s.decodersGone s.shared p action p' sh')
    (progress : action.isProgress = true) : s.Advances cfg := by
  obtain ⟨i, present⟩ := List.mem_iff_getElem?.mp member
  exact ⟨.writer i action, _, progress, Transition.taken (.writer present moves.taken)⟩

/-! ## Workers

A worker that has not failed moves, unless it waits for a message or, with a report, for
room in the completion channel. -/

theorem fetcher_advances {p : FetchPoint} (accounts : Accounts cfg s) (member : p ∈ s.fetchers)
    (alive : p.hasExited = false) (notFatal : p.isFatal = false)
    (work : s.shared.descriptors ≠ [] ∨ s.shared.descriptorClosed = true ∨ p ≠ .recv) :
    s.Advances cfg := by
  cases p with
  | recv =>
      cases queue : s.shared.descriptors with
      | nil =>
          have closed : s.shared.descriptorClosed = true := by simpa [queue] using work
          exact advances_of_fetcher member (.leaves queue closed) rfl
      | cons unit rest => exact advances_of_fetcher member (.takes unit rest queue) rfl
  | fetching unit =>
      exact advances_of_fetcher member (.fetches unit
        (.ok ⟨[], unit.descriptor.sequence, unit.descriptor.location, []⟩) _ rfl) rfl
  | sending unit =>
      by_cases gone : s.decodersGone = true
      · exact advances_of_fetcher member (.cutOff unit gone) rfl
      · have room := room_for_fetched accounts member
        exact advances_of_fetcher member (.sends unit gone room) rfl
  | reportingFatal error reservation => cases notFatal
  | exited result => cases alive

theorem decoder_advances {p : DecodePoint R} (accounts : Accounts cfg s)
    (member : p ∈ s.decoders) (alive : p.hasExited = false) (notFatal : p.isFatal = false)
    (reports : ∀ report reservation, p = .reportingDryRun report reservation →
      s.shared.completionClosed = true ∨ s.shared.completions.length < cfg.depth)
    (work : s.shared.fetched ≠ [] ∨ s.fetchersGone = true ∨ p ≠ .recv) : s.Advances cfg := by
  cases p with
  | recv =>
      cases queue : s.shared.fetched with
      | nil =>
          have gone : s.fetchersGone = true := by simpa [queue] using work
          exact advances_of_decoder member (.leaves queue gone) rfl
      | cons unit rest => exact advances_of_decoder member (.takes unit rest queue) rfl
  | decoding unit =>
      let decoder : Decoder R := ⟨fun _ => true, fun _ => .error (.decoder "")⟩
      have rejects : checkDecoded decoder unit = .error (.decoder "") := by
        unfold checkDecoded
        cases unit.sourceBatch.entries.head? <;> rfl
      have failed : decodeOne cfg decoder unit s.shared.counters =
          (.error (.decoder ""), unit.reservation, s.shared.counters) := by
        rw [decodeOne, rejects]
      exact advances_of_decoder member (.decodeFails unit decoder _ _ _ failed) rfl
  | sending unit =>
      by_cases gone : s.writersGone = true
      · exact advances_of_decoder member (.cutOff unit gone) rfl
      · have room := room_for_sinkCommit accounts member
        exact advances_of_decoder member (.sends unit gone room) rfl
  | reportingDryRun report reservation =>
      by_cases closed : s.shared.completionClosed = true
      · exact advances_of_decoder member (.dryRunUnheard report reservation closed) rfl
      · have room := (reports report reservation rfl).resolve_left closed
        exact advances_of_decoder member (.reportsDryRun report reservation closed room) rfl
  | releasingBytes reservation =>
      exact advances_of_decoder member (.releasesBytes reservation) rfl
  | releasingPermit => exact advances_of_decoder member .releasesPermit rfl
  | reportingFatal error reservation => cases notFatal
  | exited result => cases alive

theorem writer_advances {p : WriterPoint R} (member : p ∈ s.writers)
    (alive : p.hasExited = false) (notFatal : p.isFatal = false)
    (reports : ∀ report reservation, p = .reportingCommitted report reservation →
      s.shared.completionClosed = true ∨ s.shared.completions.length < cfg.depth)
    (work : s.shared.sinkCommits ≠ [] ∨ s.decodersGone = true ∨ p ≠ .recv) :
    s.Advances cfg := by
  cases p with
  | recv =>
      cases queue : s.shared.sinkCommits with
      | nil =>
          have gone : s.decodersGone = true := by simpa [queue] using work
          exact advances_of_writer member (.leaves queue gone) rfl
      | cons unit rest => exact advances_of_writer member (.takes unit rest queue) rfl
  | writing attempt unit => exact advances_of_writer member (.writes attempt unit ⟨0, 0⟩) rfl
  | checking attempt unit error => exact advances_of_writer member (.finds attempt unit error) rfl
  | backingOff attempt unit => exact advances_of_writer member (.wakes attempt unit) rfl
  | reportingCommitted report reservation =>
      by_cases closed : s.shared.completionClosed = true
      · exact advances_of_writer member (.commitUnheard report reservation closed) rfl
      · have room := (reports report reservation rfl).resolve_left closed
        exact advances_of_writer member (.reportsCommit report reservation closed room) rfl
  | releasingBytes reservation =>
      exact advances_of_writer member (.releasesBytes reservation) rfl
  | releasingPermit => exact advances_of_writer member .releasesPermit rfl
  | reportingFatal error reservation => cases notFatal
  | exited result => cases alive

/-! ## Units that wait in the pipeline -/

/-- A worker that is still there, out of a pool that is not gone. -/
theorem exists_alive {A : Type} {exited : A → Bool} {pool : List A}
    (present : ¬ pool.all exited = true) : ∃ p ∈ pool, exited p = false := by
  by_contra none
  refine present (List.all_eq_true.mpr fun p member => ?_)
  by_contra alive
  exact none ⟨p, member, by simpa using alive⟩

/-- A reachable state of an accepted configuration, before any worker has failed. -/
structure Healthy (cfg : Config) (s : State R) : Prop where
  accounts : Accounts cfg s
  orderly : Orderly s
  custody : Custody s
  books : Books cfg s.actor s.shared.history
  noFailure : s.shared.workerFailed = false
  depth : 0 < cfg.depth

namespace Healthy

variable (healthy : Healthy cfg s)
include healthy

omit [TypedRecords R] in
theorem fetcher_notFatal (p : FetchPoint) (member : p ∈ s.fetchers) : p.isFatal = false := by
  by_contra fatal
  have failed := healthy.orderly.fetchFatal p member (by simpa using fatal)
  simp [healthy.noFailure] at failed

omit [TypedRecords R] in
theorem decoder_notFatal (p : DecodePoint R) (member : p ∈ s.decoders) : p.isFatal = false := by
  by_contra fatal
  have failed := healthy.orderly.decodeFatal p member (by simpa using fatal)
  simp [healthy.noFailure] at failed

omit [TypedRecords R] in
theorem writer_notFatal (p : WriterPoint R) (member : p ∈ s.writers) : p.isFatal = false := by
  by_contra fatal
  have failed := healthy.orderly.writeFatal p member (by simpa using fatal)
  simp [healthy.noFailure] at failed

omit [TypedRecords R] in
/-- With nothing in flight no worker has a report; otherwise an empty completion channel
has room for it. -/
theorem report_has_room (settled : s.actor.inFlight = 0 ∨ s.shared.completions = [])
    {h : Holding} (member : h ∈ s.holdings) {range : Range} (holds : h.custody = some range) :
    s.shared.completions.length < cfg.depth := by
  rcases settled with drained | empty
  · have waiting := healthy.custody.unprocessed healthy.books.keeps member holds
    have counted := List.length_pos_of_mem waiting
    rw [← healthy.books.inFlight, drained] at counted
    cases counted
  · rw [empty]
    exact healthy.depth

theorem fetcher_moves {p : FetchPoint} (member : p ∈ s.fetchers) (alive : p.hasExited = false)
    (work : s.shared.descriptors ≠ [] ∨ s.shared.descriptorClosed = true ∨ p ≠ .recv) :
    s.Advances cfg :=
  fetcher_advances healthy.accounts member alive (healthy.fetcher_notFatal p member) work

theorem decoder_moves (settled : s.actor.inFlight = 0 ∨ s.shared.completions = [])
    {p : DecodePoint R} (member : p ∈ s.decoders) (alive : p.hasExited = false)
    (work : s.shared.fetched ≠ [] ∨ s.fetchersGone = true ∨ p ≠ .recv) : s.Advances cfg := by
  refine decoder_advances healthy.accounts member alive (healthy.decoder_notFatal p member) ?_ work
  rintro report reservation rfl
  have held : reportingHolding report reservation ∈ s.decoders.flatMap DecodePoint.holdings :=
    List.mem_flatMap.mpr ⟨_, member, List.mem_singleton_self _⟩
  exact Or.inr (healthy.report_has_room settled (h := reportingHolding report reservation)
    (by simp [State.holdings, held]) rfl)

theorem writer_moves (settled : s.actor.inFlight = 0 ∨ s.shared.completions = [])
    {p : WriterPoint R} (member : p ∈ s.writers) (alive : p.hasExited = false)
    (work : s.shared.sinkCommits ≠ [] ∨ s.decodersGone = true ∨ p ≠ .recv) :
    s.Advances cfg := by
  refine writer_advances member alive (healthy.writer_notFatal p member) ?_ work
  rintro report reservation rfl
  have held : reportingHolding report reservation ∈ s.writers.flatMap WriterPoint.holdings :=
    List.mem_flatMap.mpr ⟨_, member, List.mem_singleton_self _⟩
  exact Or.inr (healthy.report_has_room settled (h := reportingHolding report reservation)
    (by simp [State.holdings, held]) rfl)

/-- Whatever is in a worker's queue or hands, some worker moves. -/
theorem advances_of_unit (intact : Intact s.shared)
    (settled : s.actor.inFlight = 0 ∨ s.shared.completions = []) {h : Holding}
    (member : h ∈ s.holdings) (notActor : h ∉ s.actor.point.holdings)
    (notReport : h ∉ s.shared.completions.flatMap WriteCompletion.holdings) :
    s.Advances cfg := by
  simp only [State.holdings, Shared.holdings, List.mem_append, notActor, notReport, or_false]
    at member
  rcases member with
    ((((inDescriptors | inFetched) | inSinkCommits) | inFetcher) | inDecoder) | inWriter
  · have nonempty : s.shared.descriptors ≠ [] := by
      rintro empty
      simp [empty] at inDescriptors
    obtain ⟨p, isWorker, alive⟩ := exists_alive fun gone =>
      nonempty (healthy.orderly.descriptors_read intact gone).2
    exact healthy.fetcher_moves isWorker alive (Or.inl nonempty)
  · have nonempty : s.shared.fetched ≠ [] := by
      rintro empty
      simp [empty] at inFetched
    obtain ⟨p, isWorker, alive⟩ := exists_alive fun gone =>
      nonempty (healthy.orderly.fetched_read intact gone).2
    exact healthy.decoder_moves settled isWorker alive (Or.inl nonempty)
  · have nonempty : s.shared.sinkCommits ≠ [] := by
      rintro empty
      simp [empty] at inSinkCommits
    obtain ⟨p, isWorker, alive⟩ := exists_alive fun gone =>
      nonempty (healthy.orderly.sinkCommits_read intact gone).2
    exact healthy.writer_moves settled isWorker alive (Or.inl nonempty)
  · obtain ⟨p, isWorker, holds⟩ := List.mem_flatMap.mp inFetcher
    cases p with
    | recv => cases holds
    | exited result => cases holds
    | _ =>
        refine healthy.fetcher_moves isWorker rfl (Or.inr (Or.inr fun idle => ?_))
        cases idle
  · obtain ⟨p, isWorker, holds⟩ := List.mem_flatMap.mp inDecoder
    cases p with
    | recv => cases holds
    | exited result => cases holds
    | _ =>
        refine healthy.decoder_moves settled isWorker rfl (Or.inr (Or.inr fun idle => ?_))
        cases idle
  · obtain ⟨p, isWorker, holds⟩ := List.mem_flatMap.mp inWriter
    cases p with
    | recv => cases holds
    | exited result => cases holds
    | _ =>
        refine healthy.writer_moves settled isWorker rfl (Or.inr (Or.inr fun idle => ?_))
        cases idle

/-! ## The actor at its `select!` -/

omit healthy [TypedRecords R] in
theorem report_weighs_nothing {h : Holding}
    (member : h ∈ s.shared.completions.flatMap WriteCompletion.holdings) :
    h.permits = 0 ∧ h.held = 0 := by
  obtain ⟨message, _, holds⟩ := List.mem_flatMap.mp member
  cases message with
  | committed report =>
      rw [List.mem_singleton.mp holds]
      exact ⟨rfl, rfl⟩
  | fatal error => cases holds

/-- The actor waits for a completion, and none has arrived. -/
theorem advances_in_flight (intact : Intact s.shared) {permit : Bool}
    (select : s.actor.point = .select permit) (busy : 0 < s.actor.inFlight)
    (empty : s.shared.completions = []) : s.Advances cfg := by
  rw [healthy.books.inFlight] at busy
  obtain ⟨range, waiting⟩ := List.exists_mem_of_length_pos busy
  obtain ⟨place, present⟩ := places_singleton healthy.custody healthy.books.keeps intact waiting
  have counted := length_places s range
  rw [present] at counted
  obtain ⟨h, member, holds⟩ := exists_of_total_pos (custodyOf range) s.holdings (by
    rw [← counted]
    exact Nat.one_pos)
  have custody : h.custody = some range := by
    by_contra other
    simp [custodyOf, other] at holds
  refine healthy.advances_of_unit intact (Or.inr empty) member ?_ ?_
  · rw [select]
    intro own
    cases permit with
    | false => cases own
    | true =>
        rw [List.mem_singleton.mp own] at custody
        cases custody
  · rw [empty]
    exact List.not_mem_nil

/-- The actor waits for a permit. -/
theorem advances_without_permit (intact : Intact s.shared) (drained : s.actor.inFlight = 0)
    (select : s.actor.point = .select false) (none : s.shared.freePermits = 0) :
    s.Advances cfg := by
  have permits := healthy.accounts.permits
  have depth := healthy.depth
  obtain ⟨h, member, holds⟩ := exists_of_total_pos Holding.permits s.holdings (by omega)
  refine healthy.advances_of_unit intact (Or.inl drained) member ?_ fun isReport => ?_
  · rw [select]
    exact List.not_mem_nil
  · have weightless := report_weighs_nothing isReport
    omega

/-- The actor has its permit and waits for bytes. -/
theorem advances_without_bytes (intact : Intact s.shared) (drained : s.actor.inFlight = 0)
    (select : s.actor.point = .select true) (fits : cfg.estimate ≤ cfg.capacity)
    (full : ¬ s.shared.counters.fitsSaturating cfg.capacity cfg.estimate = true) :
    s.Advances cfg := by
  have bytes := healthy.accounts.bytes
  have width := healthy.accounts.width
  have busy : s.shared.counters.inFlight ≠ 0 := by
    intro empty
    refine full (decide_eq_true ?_)
    rw [empty, saturatingAdd]
    omega
  obtain ⟨h, member, holds⟩ := exists_of_total_pos Holding.held s.holdings (by omega)
  refine healthy.advances_of_unit intact (Or.inl drained) member ?_ fun isReport => ?_
  · rw [select]
    intro own
    rw [List.mem_singleton.mp own] at holds
    cases holds
  · have weightless := report_weighs_nothing isReport
    omega

theorem advances_at_select (intact : Intact s.shared) (fits : cfg.estimate ≤ cfg.capacity)
    {permit : Bool} (select : s.actor.point = .select permit) : s.Advances cfg := by
  by_cases busy : 0 < s.actor.inFlight
  · cases queue : s.shared.completions with
    | nil => exact healthy.advances_in_flight intact select busy queue
    | cons message rest =>
        cases message with
        | committed report =>
            exact advances_of_actor (.receives permit report rest select queue busy)
        | fatal error =>
            exact advances_of_actor (.receivesFatal permit error rest select queue busy)
  · have drained : s.actor.inFlight = 0 := Nat.eq_zero_of_not_pos busy
    cases isOpen : s.actor.admissionOpen with
    | false =>
        by_cases finished : cfg.dryRun = false → s.actor.source.pendingDurableAck = none
        · exact advances_of_actor (.leaves permit select isOpen drained finished)
        · rw [Classical.not_imp] at finished
          obtain ⟨sequence, pending⟩ := Option.ne_none_iff_exists'.mp finished.2
          exact advances_of_actor
            (.finishes permit sequence select isOpen drained finished.1 pending)
    | true =>
        cases permit with
        | false =>
            by_cases available : 0 < s.shared.freePermits
            · exact advances_of_actor (.acquires select isOpen available)
            · exact healthy.advances_without_permit intact drained select
                (Nat.eq_zero_of_not_pos available)
        | true =>
            by_cases enough : s.shared.counters.fitsSaturating cfg.capacity cfg.estimate = true
            · exact advances_of_actor (.claims _ _ select isOpen (Or.inr enough) rfl)
            · exact healthy.advances_without_bytes intact drained select fits enough

/-! ## Every state -/

theorem advances_running (fits : cfg.estimate ≤ cfg.capacity)
    (running : s.actor.point.hasExited = false) : s.Advances cfg := by
  have intact : Intact s.shared := by
    refine ⟨healthy.noFailure, ?_, healthy.orderly.closed.trans running⟩
    by_contra aborted
    have exited := healthy.orderly.aborted (by simpa using aborted)
    rw [running] at exited
    cases exited
  cases point : s.actor.point with
  | select permit => exact healthy.advances_at_select intact fits point
  | measuring gate => exact advances_of_actor (.measures gate _ point rfl)
  | counting gate roomUnits => exact advances_of_actor (.counts gate roomUnits point)
  | extending gates extras =>
      cases extras with
      | zero => exact advances_of_actor (.enough gates point)
      | succ extras =>
          by_cases available : 0 < s.shared.freePermits
          · exact advances_of_actor (.takesPermit gates extras point available)
          · exact advances_of_actor (.noPermit gates extras point available)
  | extendingBytes gates extras =>
      cases attempt : s.shared.counters.tryReserve cfg.capacity cfg.estimate with
      | some claimed =>
          exact advances_of_actor (.takesBytes false gates extras _ _ point nofun attempt)
      | none => exact advances_of_actor (.noBytes false gates extras point (Or.inr attempt))
  | polling gates =>
      exact advances_of_actor (.admits (.ok []) gates [] point rfl (Nat.zero_le _))
  | sleeping => exact advances_of_actor (.wakes point)
  | sending rest =>
      cases rest with
      | nil => exact advances_of_actor (.sentAll point)
      | cons unit rest =>
          have room := room_for_descriptor healthy.accounts point
          by_cases closed : s.shared.descriptorClosed = true ∨ s.fetchersGone = true
          · exact advances_of_actor (.sendFails unit rest _ point closed rfl)
          · exact advances_of_actor (.sends unit rest point closed room)
  | flushing sequence frontier => exact advances_of_actor (.flushed sequence frontier point)
  | finalFlush sequence => exact advances_of_actor (.flushedLast sequence point)
  | exited result =>
      rw [point] at running
      cases running

/-- After the actor has returned the pools end one after the other, and then the run. -/
theorem advances_ending (exited : s.actor.point.hasExited = true) (notJoined : s.result = none) :
    s.Advances cfg := by
  have closed : s.shared.completionClosed = true := healthy.orderly.closed.trans exited
  by_cases fetchersGone : s.fetchersGone = true
  · by_cases decodersGone : s.decodersGone = true
    · by_cases writersGone : s.writersGone = true
      · cases point : s.actor.point with
        | exited result =>
            exact ⟨.join, _, rfl, by
              simp [step, point, notJoined, fetchersGone, decodersGone, writersGone]; rfl⟩
        | _ => simp [point, ActorPoint.hasExited] at exited
      · obtain ⟨p, isWorker, alive⟩ := exists_alive writersGone
        exact writer_advances isWorker alive (healthy.writer_notFatal p isWorker)
          (fun _ _ _ => Or.inl closed) (Or.inr (Or.inl decodersGone))
    · obtain ⟨p, isWorker, alive⟩ := exists_alive decodersGone
      exact decoder_advances healthy.accounts isWorker alive (healthy.decoder_notFatal p isWorker)
        (fun _ _ _ => Or.inl closed) (Or.inr (Or.inl fetchersGone))
  · obtain ⟨p, isWorker, alive⟩ := exists_alive fetchersGone
    exact healthy.fetcher_moves isWorker alive
      (Or.inr (Or.inl (healthy.orderly.exitClosed exited)))

end Healthy

end Moves

/-- Permits are conserved, so a send to a worker queue finds room; and until a worker fails
some component can move, as long as the run has not returned. -/
theorem bounded_queues_cannot_deadlock [TypedRecords R] (cfg : Config)
    (accepted : validateBackpressure cfg.source cfg.bp = .ok ()) (s : State R)
    (reachable : (machine R cfg).Reachable s) :
    s.shared.freePermits + total Holding.permits s.holdings = cfg.bp.maxInflightBatches.val ∧
    (∀ unit rest, s.actor.point = .sending (unit :: rest) →
      s.shared.descriptors.length < cfg.bp.maxInflightBatches.val) ∧
    (∀ unit, .sending unit ∈ s.fetchers →
      s.shared.fetched.length < cfg.bp.maxInflightBatches.val) ∧
    (∀ unit, .sending unit ∈ s.decoders →
      s.shared.sinkCommits.length < cfg.bp.maxInflightBatches.val) ∧
    (s.shared.workerFailed = false → (s.actor.admissionOpen = true ∨ 0 < s.actor.inFlight) →
      s.result = none → s.Advances cfg) := by
  have sized := (validateBackpressure_ok _ _).mp accepted
  have accounts := accounts_of_reachable reachable
  have depth := depth_of_sized sized
  rw [← depth]
  refine ⟨accounts.permits, fun unit rest sending => room_for_descriptor accounts sending,
    fun unit sending => room_for_fetched accounts sending,
    fun unit sending => room_for_sinkCommit accounts sending, fun noFailure _ notJoined => ?_⟩
  have healthy : Healthy cfg s :=
    ⟨accounts, orderly_of_reachable reachable, custody_of_reachable reachable,
      books_of_reachable reachable, noFailure, depth ▸ sized.batches_pos⟩
  cases exited : s.actor.point.hasExited with
  | false => exact healthy.advances_running sized.estimate_fits exited
  | true => exact healthy.advances_ending exited notJoined

/-- Both slots are taken, and the actor waits for a completion. -/
theorem bounded_queues_cannot_deadlock_full : ∃ s : State SizedRecords,
    s.shared.freePermits = 0 ∧ s.shared.descriptors.length = 2 ∧ s.Advances narrowConfig := by
  have full : ((machine SizedRecords narrowConfig).run (oversizeRun.take 10)).map (fun s =>
      (s.shared.freePermits, s.shared.descriptors.length, s.actor.inFlight,
        s.shared.workerFailed || s.result.isSome)) = some (0, 2, 2, false) := by
    decide
  obtain ⟨s, ran, values⟩ := Option.map_eq_some_iff.mp full
  simp only [Prod.mk.injEq, Bool.or_eq_false_iff] at values
  obtain ⟨none, queued, inFlight, noFailure, notJoined⟩ := values
  have reachable := (machine SizedRecords narrowConfig).run_reachable _ s ran
  refine ⟨s, none, queued, ?_⟩
  exact (bounded_queues_cannot_deadlock narrowConfig rfl s reachable).2.2.2.2 noFailure
    (Or.inr (by omega)) (by simpa using notJoined)

end OpendataIngest.Runtime.Pipeline
