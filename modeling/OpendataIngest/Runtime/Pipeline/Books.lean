import OpendataIngest.Runtime.Pipeline.ActorCases
import Mathlib.Data.List.Nodup

/-!
# The coordinator and the units agree

The history is the reference: the ranges it registers, in order, and the ranges it
marks.  The coordinator tracks exactly these, `in_flight` counts the registered ranges
that are not marked, and each of them is in the custody of one place.
-/

set_option autoImplicit false

namespace OpendataIngest.Runtime.Pipeline

open MachineInt Pool AckCoordinator

variable {R : Type}

/-! ## The ranges of a history -/

def Event.registered? : Event → Option Range
  | .registered sequence => some (sequence, sequence)
  | _ => none

/-- The registered ranges, oldest first. -/
def registeredRanges (history : List Event) : List Range :=
  (history.filterMap Event.registered?).reverse

def isMarked (history : List Event) (range : Range) : Bool :=
  decide (Event.markedCommitted range.1 range.2 ∈ history)

/-- The registered ranges whose completion the actor has not processed. -/
def unprocessed (history : List Event) : List Range :=
  (registeredRanges history).filter fun range => !isMarked history range

theorem registeredRanges_append (newer older : List Event) :
    registeredRanges (newer ++ older) = registeredRanges older ++ registeredRanges newer := by
  simp [registeredRanges]

theorem registeredRanges_registered (sequence : Nat) (history : List Event) :
    registeredRanges (.registered sequence :: history) =
      registeredRanges history ++ [(sequence, sequence)] := by
  simp [registeredRanges, Event.registered?]

theorem isMarked_registered (sequence : Nat) (history : List Event) :
    isMarked (.registered sequence :: history) = isMarked history := by
  funext range
  simp [isMarked]

theorem registeredRanges_marked (low high : Nat) (history : List Event) :
    registeredRanges (.markedCommitted low high :: history) = registeredRanges history := by
  simp [registeredRanges, List.filterMap_cons, Event.registered?]

theorem isMarked_marked (low high : Nat) (history : List Event) :
    isMarked (.markedCommitted low high :: history) =
      addCommitted (isMarked history) (low, high) := by
  funext range
  simp only [isMarked, addCommitted, List.mem_cons, Event.markedCommitted.injEq,
    Bool.decide_or, Prod.ext_iff, Bool.or_comm]

theorem registrations_eq_count (range : Range) (history : List Event) :
    registrations range history = (registeredRanges history).count range := by
  rw [registeredRanges, List.count_reverse]
  induction history with
  | nil => rfl
  | cons event older ih =>
      rw [registrations] at ih
      rw [registrations, total_cons, ih]
      cases event with
      | registered sequence =>
          simp only [List.filterMap_cons, Event.registers, Event.registered?, List.count_cons,
            beq_iff_eq]
          omega
      | _ => simp [List.filterMap_cons, Event.registers, Event.registered?]

theorem marks_eq_zero_iff (range : Range) (history : List Event) :
    marks range history = 0 ↔ isMarked history range = false := by
  induction history with
  | nil => simp [marks, isMarked]
  | cons event older ih =>
      rw [marks, isMarked, decide_eq_false_iff_not] at ih
      rw [marks, isMarked, decide_eq_false_iff_not, total_cons, List.mem_cons, not_or, ← ih]
      cases event with
      | markedCommitted low high =>
          simp only [Event.marks, Event.markedCommitted.injEq, Nat.add_eq_zero_iff, Prod.ext_iff]
          constructor
          · rintro ⟨differs, rest⟩
            refine ⟨fun same => ?_, rest⟩
            rw [if_pos ⟨same.1.symm, same.2.symm⟩] at differs
            cases differs
          · rintro ⟨differs, rest⟩
            exact ⟨if_neg fun same => differs ⟨same.1.symm, same.2.symm⟩, rest⟩
      | _ => simp [Event.marks]

section Neutral

variable {events : List Event} (neutral : Neutral events) (older : List Event)
include neutral

theorem Neutral.registeredRanges_append :
    registeredRanges (events ++ older) = registeredRanges older := by
  have none : registeredRanges events = [] := by
    refine List.eq_nil_iff_forall_not_mem.mpr fun range member => ?_
    have counted := registrations_eq_count range events
    rw [registrations, (neutral range).2] at counted
    exact absurd (List.count_pos_iff.mpr member) (by omega)
  rw [Pipeline.registeredRanges_append, none, List.append_nil]

theorem Neutral.isMarked_append : isMarked (events ++ older) = isMarked older := by
  funext range
  have quiet := (marks_eq_zero_iff range events).mp (neutral range).1
  simp only [isMarked, decide_eq_false_iff_not] at quiet
  simp only [isMarked, List.mem_append, quiet, false_or]

theorem Neutral.unprocessed_append : unprocessed (events ++ older) = unprocessed older := by
  rw [unprocessed, neutral.registeredRanges_append, neutral.isMarked_append, unprocessed]

end Neutral

/-! ## The coordinator keeps the history -/

/-- The coordinator tracks the history, and has advanced as far as the marks allow.  All
ranges are above a baseline that has a successor. -/
def Keeps (cfg : Config) (c : AckCoordinator) (history : List Event) : Prop :=
  ∃ popped rest, popped ++ rest = registeredRanges history ∧
    Tracks cfg.baseline c popped rest (isMarked history) ∧
    (∀ range, rest.head? = some range → isMarked history range = false) ∧
    ∀ b, cfg.baseline = some b → b < u64Max → ∀ range ∈ registeredRanges history, b < range.1

section Keeps

variable {cfg : Config} {c : AckCoordinator} {history : List Event}

theorem Keeps.neutral (keeps : Keeps cfg c history) {events : List Event}
    (neutral : Neutral events) : Keeps cfg c (events ++ history) := by
  rw [Keeps, neutral.registeredRanges_append, neutral.isMarked_append]
  exact keeps

theorem Keeps.ordered (keeps : Keeps cfg c history) :
    (registeredRanges history).Pairwise fun left right => left.2 < right.1 := by
  obtain ⟨popped, rest, registered, tracks, _⟩ := keeps
  rw [← registered]
  exact contiguous_pairwise _ tracks.contiguous tracks.ordered

theorem Keeps.nodup (keeps : Keeps cfg c history) : (registeredRanges history).Nodup := by
  obtain ⟨popped, rest, registered, tracks, _⟩ := keeps
  have ordered := contiguous_pairwise _ tracks.contiguous tracks.ordered
  rw [← registered]
  refine ordered.imp_of_mem fun {left right} leftMember _ below => ?_
  rintro rfl
  have upright := (tracks.bounded left leftMember).1
  omega

theorem Keeps.registrations_le (keeps : Keeps cfg c history) (range : Range) :
    registrations range history ≤ 1 := by
  rw [registrations_eq_count]
  exact List.nodup_iff_count_le_one.mp keeps.nodup range

theorem registerPending_ok {c' : AckCoordinator} {low high : Nat}
    (registered : c.registerPending low high = (c', .ok ())) :
    c.registerRejection low high = none ∧
      c' = (c.absorbBaseline low).insertPending low high := by
  unfold registerPending at registered
  split at registered
  · simp at registered
  case h_2 accepted => exact ⟨accepted, (Prod.mk.inj registered).1.symm⟩

theorem registerPending_error {c' : AckCoordinator} {low high : Nat} {error : RuntimeError}
    (rejected : c.registerPending low high = (c', .error error)) : c' = c := by
  unfold registerPending at rejected
  split at rejected
  · exact (Prod.mk.inj rejected).1.symm
  · simp at rejected

theorem Keeps.register (keeps : Keeps cfg c history) {c' : AckCoordinator} {sequence : Nat}
    (bound : sequence ≤ u64Max)
    (registered : c.registerPending sequence sequence = (c', .ok ())) :
    Keeps cfg c' (.registered sequence :: history) ∧
      isMarked history (sequence, sequence) = false := by
  obtain ⟨popped, rest, ranges, tracks, settled, floor⟩ := keeps
  obtain ⟨accepted, rfl⟩ := registerPending_ok registered
  have unmarked := tracks.not_committed_of_accepted sequence sequence bound accepted
  refine ⟨⟨popped, rest ++ [(sequence, sequence)], ?_, ?_, ?_, ?_⟩, unmarked⟩
  · rw [registeredRanges_registered, ← ranges, List.append_assoc]
  · rw [isMarked_registered]
    exact tracks.register sequence sequence bound accepted
  · rw [isMarked_registered]
    intro range isHead
    cases rest with
    | nil =>
        cases isHead
        exact unmarked
    | cons head tail => exact settled range (by simpa using isHead)
  · intro b isBaseline small range member
    rw [registeredRanges_registered] at member
    rcases List.mem_append.mp member with early | isNew
    · exact floor b isBaseline small range early
    · rw [List.mem_singleton.mp isNew]
      exact tracks.above_baseline sequence sequence bound accepted b isBaseline small
        fun other inRanges => floor b isBaseline small other (ranges ▸ inRanges)

theorem Keeps.mark (keeps : Keeps cfg c history) {c' : AckCoordinator} {low high : Nat}
    (marked : c.markCommitted low high = (c', .ok ())) :
    Keeps cfg c'.advanceFrontier (.markedCommitted low high :: history) := by
  obtain ⟨popped, rest, ranges, tracks, _, floor⟩ := keeps
  have after := (tracks.mark c' low high marked).2.advance
  rw [← isMarked_marked] at after
  refine ⟨_, _, ?_, after, ?_, by rwa [registeredRanges_marked]⟩
  · rw [List.append_assoc, List.takeWhile_append_dropWhile, registeredRanges_marked, ranges]
  · intro range isHead
    have first := List.head?_dropWhile_not (isMarked (.markedCommitted low high :: history)) rest
    rw [isHead] at first
    simpa using first

/-- A registered range that is not marked can be marked. -/
theorem Keeps.mark_succeeds (keeps : Keeps cfg c history) {range : Range}
    (member : range ∈ unprocessed history) :
    ∃ c', c.markCommitted range.1 range.2 = (c', .ok ()) := by
  obtain ⟨popped, rest, ranges, tracks, _⟩ := keeps
  obtain ⟨registered, unmarked⟩ := List.mem_filter.mp member
  rw [← ranges] at registered
  refine tracks.mark_succeeds range ?_
  refine (List.mem_append.mp registered).resolve_left fun wasPopped => ?_
  rw [tracks.popped_committed range wasPopped] at unmarked
  cases unmarked

/-- `mark_committed` accepts the report of an unprocessed range. -/
theorem Keeps.not_rejected (keeps : Keeps cfg c history) {report : CommittedReport}
    (member : rangeOf report.range ∈ unprocessed history) {c' : AckCoordinator}
    {error : RuntimeError} :
    c.markCommitted report.range.1.val report.range.2.val ≠ (c', .error error) := by
  intro rejects
  obtain ⟨c'', accepts⟩ := keeps.mark_succeeds member
  rw [rangeOf] at accepts
  rw [accepts] at rejects
  cases rejects

/-- The unprocessed ranges are the pending entries that are not committed. -/
theorem Keeps.unprocessed_length (keeps : Keeps cfg c history) :
    (unprocessed history).length =
      (c.pending.entries.filter fun entry => !entry.2.sinkCommitted).length := by
  obtain ⟨popped, rest, ranges, tracks, _⟩ := keeps
  have nonePopped : popped.filter (fun range => !isMarked history range) = [] := by
    refine List.filter_eq_nil_iff.mpr fun range member => ?_
    rw [tracks.popped_committed range member]
    decide
  rw [unprocessed, ← ranges, List.filter_append, nonePopped, List.nil_append, tracks.pending_eq,
    List.filter_map, List.length_map]
  rfl

end Keeps

/-! ## Every admitted unit is in one place -/

/-- A range is in custody from its registration to its mark; a failure may lose it, and
nothing makes a second copy. -/
structure Custody (s : State R) : Prop where
  le : ∀ range, total (custodyOf range) s.holdings + marks range s.shared.history ≤
    registrations range s.shared.history
  eq : Intact s.shared → ∀ range, total (custodyOf range) s.holdings +
    marks range s.shared.history = registrations range s.shared.history

theorem custody_start (cfg : Config) : Custody (State.start cfg : State R) where
  le range := by
    rw [start_holdings]
    exact Nat.le_refl 0
  eq _ range := by
    rw [start_holdings]
    rfl

theorem intact_before [TypedRecords R] {cfg : Config} {s s' : State R} {action : Action R}
    (orderly : Orderly s) (taken : step cfg s action = some s') (intact : Intact s'.shared) :
    Intact s.shared := by
  cases transition_of_step taken with
  | actor moved =>
      have flow := stepActor_flow moved
      exact ⟨flow.workerFailed ▸ intact.workerFailed, flow.hardAbort ▸ intact.hardAbort,
        orderly.closed.trans flow.alive⟩
  | fetch _ moved => exact (stepFetch_flow moved).flags.intact intact
  | decode _ moved => exact (stepDecode_flow moved).flags.intact intact
  | writer _ moved => exact (stepWriter_flow moved).flags.intact intact
  | hardAborts => exact absurd intact (not_intact_of_hardAbort rfl)
  | _ => exact { intact with }

theorem Custody.step [TypedRecords R] {cfg : Config} {s s' : State R} {action : Action R}
    (custody : Custody s) (orderly : Orderly s) (accounts : Accounts cfg s)
    (taken : step cfg s action = some s') : Custody s' := by
  obtain ⟨old, new, settles⟩ := step_settles orderly accounts.sound taken
  refine ⟨fun range => ?_, fun intact range => ?_⟩
  · have before := custody.le range
    have moved := settles.custody.le range
    have weights := settles.exchange (custodyOf range)
    omega
  · have before := custody.eq (intact_before orderly taken intact) range
    have moved := settles.custody.eq intact range
    have weights := settles.exchange (custodyOf range)
    omega

theorem custody_of_reachable [TypedRecords R] {cfg : Config} {s : State R}
    (reachable : (machine R cfg).Reachable s) : Custody s :=
  reachable.invariant (custody_start cfg) fun _ _ _ before custody taken =>
    custody.step (orderly_of_reachable before) (accounts_of_reachable before) taken

/-! ## The actor's books -/

structure Books (cfg : Config) (a : Actor) (history : List Event) : Prop where
  keeps : Keeps cfg a.coordinator history
  inFlight : a.inFlight = (unprocessed history).length

theorem books_start (cfg : Config) : Books cfg (Actor.start cfg) [] where
  keeps := by
    refine ⟨[], [], rfl, ?_, nofun, fun _ _ _ => nofun⟩
    exact tracks_new cfg.source cfg.baseline
  inFlight := rfl

theorem Books.same {cfg : Config} {a a' : Actor} {history : List Event}
    (books : Books cfg a history) (events : List Event)
    (coordinator : a'.coordinator = a.coordinator) (inFlight : a'.inFlight = a.inFlight)
    (neutral : Neutral events) : Books cfg a' (events ++ history) where
  keeps := coordinator ▸ books.keeps.neutral neutral
  inFlight := by rw [inFlight, books.inFlight, neutral.unprocessed_append]

theorem unprocessed_registered {history : List Event} {sequence : Nat}
    (unmarked : isMarked history (sequence, sequence) = false) :
    unprocessed (.registered sequence :: history) =
      unprocessed history ++ [(sequence, sequence)] := by
  simp [unprocessed, registeredRanges_registered, isMarked_registered, unmarked]

theorem unprocessed_marked {cfg : Config} {c : AckCoordinator} {history : List Event}
    (keeps : Keeps cfg c history) {range : Range} (member : range ∈ unprocessed history) :
    (unprocessed (.markedCommitted range.1 range.2 :: history)).length =
      (unprocessed history).length - 1 := by
  have without : unprocessed (.markedCommitted range.1 range.2 :: history) =
      (unprocessed history).erase range := by
    have nodup : (unprocessed history).Nodup := keeps.nodup.filter _
    rw [nodup.erase_eq_filter, unprocessed, unprocessed, registeredRanges_marked,
      List.filter_filter]
    refine List.filter_congr fun other _ => ?_
    rw [isMarked_marked, addCommitted, Bool.not_or, Bool.and_comm, Prod.mk.eta, bne,
      beq_eq_decide]
  rw [without, List.length_erase_of_mem member]

/-- The register-all pass keeps the books, also when it stops at a rejected range. -/
theorem Registers.keeps {cfg : Config} {c last : AckCoordinator}
    {descriptors : List SourceBatchDescriptor} {sequences : List Nat}
    {answer : RuntimeResult Unit} (pass : Registers c descriptors last sequences answer)
    {history : List Event} (keeps : Keeps cfg c history) :
    Keeps cfg last ((sequences.map Event.registered).reverse ++ history) ∧
      (unprocessed ((sequences.map Event.registered).reverse ++ history)).length =
        (unprocessed history).length + sequences.length := by
  induction pass generalizing history with
  | done c => exact ⟨keeps, rfl⟩
  | stops rejected =>
      rw [registerPending_error rejected]
      exact ⟨keeps, rfl⟩
  | @goesOn c c' last descriptor rest sequences answer accepted later ih =>
      obtain ⟨after, unmarked⟩ := keeps.register (val_le_u64Max descriptor.sequence) accepted
      obtain ⟨tailKeeps, tailLength⟩ := ih after
      simp only [List.map_cons, List.reverse_cons, List.append_assoc, List.cons_append,
        List.nil_append, List.length_cons]
      refine ⟨tailKeeps, ?_⟩
      rw [tailLength, unprocessed_registered unmarked, List.length_append]
      simp only [List.length_cons, List.length_nil]
      omega

theorem admission_books {cfg : Config} {a : Actor} {sh : Shared R} (gates : List Reservation)
    (descriptors : List SourceBatchDescriptor) (books : Books cfg a sh.history) :
    Books cfg (admission a sh gates descriptors).1
      (admission a sh gates descriptors).2.history := by
  have handed : ∀ sequences, Neutral [.handedOut sequences] := fun _ _ => ⟨rfl, rfl⟩
  cases descriptors with
  | nil =>
      simp only [admission, dropGates_eq]
      have after : Books cfg { a with point := .sleeping } ([.handedOut []] ++ sh.history) :=
        books.same _ rfl rfl (handed _)
      exact after
  | cons first rest =>
      obtain ⟨keeps, length⟩ := (registers_registerAll a.coordinator (first :: rest)).keeps
        (books.keeps.neutral (handed ((first :: rest).map fun d => d.sequence.val)))
      rw [(handed _).unprocessed_append, ← books.inFlight] at length
      simp only [admission, dropGates_eq, recordRegistered_eq]
      split
      · exact ⟨keeps, length.symm⟩
      · exact ⟨keeps, length.symm⟩

/-- Whatever has the custody of a range, the range is registered and not yet marked. -/
theorem Custody.unprocessed {cfg : Config} {s : State R} (custody : Custody s)
    (keeps : Keeps cfg s.actor.coordinator s.shared.history) {h : Holding} (member : h ∈ s.holdings)
    {range : Range} (holds : h.custody = some range) : range ∈ unprocessed s.shared.history := by
  have counted := weight_le_total (custodyOf range) s.holdings h member
  rw [custodyOf, if_pos holds] at counted
  have balance := custody.le range
  have once := keeps.registrations_le range
  have unmarked := (marks_eq_zero_iff range s.shared.history).mp (by omega)
  refine List.mem_filter.mpr ⟨?_, by rw [unmarked]; rfl⟩
  rw [← List.count_pos_iff, ← registrations_eq_count]
  omega

theorem report_unprocessed {cfg : Config} {s : State R} (custody : Custody s)
    (keeps : Keeps cfg s.actor.coordinator s.shared.history) (report : CommittedReport)
    (member : .committed report ∈ s.shared.completions) :
    rangeOf report.range ∈ unprocessed s.shared.history := by
  have held : report.holding ∈ s.shared.completions.flatMap WriteCompletion.holdings :=
    List.mem_flatMap.mpr ⟨_, member, List.mem_singleton_self _⟩
  exact custody.unprocessed keeps (h := report.holding)
    (by simp [State.holdings, Shared.holdings, held]) rfl

theorem receiveCommitted_books {cfg : Config} {a : Actor} {sh : Shared R}
    {report : CommittedReport} (books : Books cfg a sh.history)
    (member : rangeOf report.range ∈ unprocessed sh.history) :
    Books cfg (receiveCommitted cfg a sh report).1
      (receiveCommitted cfg a sh report).2.history := by
  have received : Neutral [.completionReceived report.range.1.val report.range.2.val] :=
    fun _ => ⟨rfl, rfl⟩
  have seen := books.keeps.neutral received
  have stillOpen : rangeOf report.range ∈ unprocessed
      (.completionReceived report.range.1.val report.range.2.val :: sh.history) := by
    rw [← List.singleton_append, received.unprocessed_append]
    exact member
  have shape := receiveCommitted_cases cfg a sh report
  generalize receiveCommitted cfg a sh report = moved at shape ⊢
  obtain ⟨a', sh'⟩ := moved
  cases shape with
  | rejected c error rejects => exact absurd rejects (books.keeps.not_rejected member)
  | marked c marks acks =>
      have markedBooks : Books cfg (a.marked c report)
          (.markedCommitted report.range.1.val report.range.2.val ::
            .completionReceived report.range.1.val report.range.2.val :: sh.history) := by
        refine ⟨seen.mark marks, ?_⟩
        have fewer := unprocessed_marked seen stillOpen
        rw [received.unprocessed_append, ← books.inFlight] at fewer
        exact fewer.symm
      cases acks with
      | silent => exact markedBooks.same [] rfl rfl fun _ => ⟨rfl, rfl⟩
      | deferred frontier =>
          exact markedBooks.same [.ackThrough frontier] rfl rfl fun _ => ⟨rfl, rfl⟩
      | flushes frontier =>
          exact markedBooks.same [.consumerAckCalled frontier, .ackThrough frontier] rfl
            rfl fun _ => ⟨rfl, rfl⟩

theorem Books.step [TypedRecords R] {cfg : Config} {s s' : State R} {action : Action R}
    (books : Books cfg s.actor s.shared.history) (accounts : Accounts cfg s)
    (custody : Custody s) (taken : step cfg s action = some s') :
    Books cfg s'.actor s'.shared.history := by
  have quiet : Neutral [] := fun _ => ⟨rfl, rfl⟩
  have returned : ∀ sequence answer, Neutral [.consumerAckReturned sequence answer] :=
    fun _ _ _ => ⟨rfl, rfl⟩
  cases step_cases accounts taken with
  | other sameActor events history fromSink =>
      rw [sameActor, history]
      exact books.same _ rfl rfl (neutral_of_fromSink fromSink)
  | actor shape =>
      generalize s'.actor = a', s'.shared = sh' at shape ⊢
      cases shape with
      | quiet same =>
          rw [same.history]
          exact books.same [] same.coordinator same.inFlight quiet
      | admits gates descriptors => exact admission_books gates descriptors books
      | receives permit report rest sh₁ select busy queue popped =>
          have member := report_unprocessed custody books.keeps report
            (by rw [queue]; exact List.mem_cons_self)
          have sameHistory : sh₁.history = s.shared.history := by
            rw [popped, cancelAdmission_eq]
          rw [← sameHistory] at member
          exact receiveCommitted_books (sameHistory ▸ books) member
      | flushed sequence frontier =>
          exact books.same [_] rfl rfl (returned sequence (.ok ()))
      | flushFailed sequence error =>
          exact books.same [_] rfl rfl (returned sequence (.error error))
      | flushedLast sequence =>
          exact books.same [_] rfl rfl (returned sequence (.ok ()))
      | finishes permit sequence =>
          rw [cancelAdmission_eq]
          exact books.same [.consumerAckCalled sequence] rfl rfl fun _ => ⟨rfl, rfl⟩
      | leaves permit =>
          rw [cancelAdmission_eq]
          exact books.same [] rfl rfl quiet

theorem books_of_reachable [TypedRecords R] {cfg : Config} {s : State R}
    (reachable : (machine R cfg).Reachable s) : Books cfg s.actor s.shared.history :=
  reachable.invariant (P := fun s => Books cfg s.actor s.shared.history) (books_start cfg)
    fun _ _ _ before books taken =>
      books.step (accounts_of_reachable before) (custody_of_reachable before) taken

end OpendataIngest.Runtime.Pipeline
