import OpendataIngest.Runtime.Pipeline.AckSafety

/-!
# The replay window under `EveryN`

After a crash the buffer hands out again what lies above the last durable ack.  The
ranges the frontier has passed by then are the replay window, and
`AckFlushPolicy::EveryN { n }` flushes to keep it below `n` ranges.

The actor counts its calls of `ack_through`.  A completion that fills a hole moves the
frontier over all the ranges that wait behind it, in one call.  Where every call passes
one range, or is flushed, the window is bounded as documented.
-/

set_option autoImplicit false

namespace OpendataIngest.Runtime.Pipeline

open MachineInt Pool AckCoordinator

variable {R : Type}

/-! ## The window -/

/-- The last sequence the consumer has accepted: in this run, or before it. -/
def durableFloor (cfg : Config) (history : List Event) : Option Nat :=
  (durableAcks history).getLast? <|> cfg.baseline

def isAbove (floor : Option Nat) (range : Range) : Bool :=
  floor.all fun sequence => decide (sequence < range.1)

def isPassed (frontier : Option Nat) (range : Range) : Bool :=
  frontier.any fun sequence => decide (range.2 ≤ sequence)

/-- The ranges at or below the frontier and above the last durable ack. -/
def replayWindow (cfg : Config) (c : AckCoordinator) (history : List Event) : List Range :=
  (registeredRanges history).filter fun range =>
    isPassed c.frontier range && isAbove (durableFloor cfg history) range

/-- Every completion received so far has been handled, and without an error. -/
def ActorPoint.handledAll : ActorPoint → Bool
  | .flushing _ _ => false
  | .exited (.error _) => false
  | _ => true

/-! ## The steps that count right -/

/-- The range at `low` is the first pending one, and the next is already committed. -/
def fillsHole (c : AckCoordinator) (low : Nat) : Bool :=
  match c.pending.entries with
  | first :: second :: _ => decide (first.1 = low) && second.2.sinkCommitted
  | _ => false

/-- A completion the actor receives fills no hole, or is followed by a flush. -/
def countsEachRange (cfg : Config) (s : State R) : Action R → Bool
  | .actor .receive =>
      match s.shared.completions with
      | .committed report :: _ =>
          !fillsHole s.actor.coordinator report.range.1.val ||
            shouldFlush cfg.options.ackFlushPolicy (nextGroups s.actor.groupsSinceFlush)
      | _ => true
  | _ => true

/-! ## The window follows the books -/

/-- The passed ranges are the popped ones. -/
theorem isPassed_tracks {baseline : Option Nat} {c : AckCoordinator} {popped rest : List Range}
    {committed : Range → Bool} (tracks : Tracks baseline c popped rest committed)
    (p : Range → Bool) :
    ((popped ++ rest).filter fun range => isPassed c.frontier range && p range) =
      popped.filter p := by
  have ordered := contiguous_pairwise _ tracks.contiguous tracks.ordered
  have isFrontier : c.frontier = popped.getLast?.map Prod.snd := tracks.frontier_eq
  rcases List.eq_nil_or_concat' popped with empty | ⟨earlier, last, shape⟩
  · have noFrontier : c.frontier = none := by
      rw [isFrontier, empty]
      rfl
    simp [empty, noFrontier, isPassed]
  · have atLast : c.frontier = some last.2 := by
      rw [isFrontier, shape, List.getLast?_concat]
      rfl
    have passes : ∀ range ∈ popped, isPassed c.frontier range = true := by
      intro range member
      rw [shape] at member ordered
      have upright := tracks.bounded last (by simp [shape])
      rcases List.mem_append.mp member with early | isLast
      · have below := (List.pairwise_append.mp (List.pairwise_append.mp ordered).1).2.2 range
          early last (List.mem_singleton_self last)
        simp only [atLast, isPassed, Option.any_some, decide_eq_true_eq]
        omega
      · rw [List.mem_singleton.mp isLast, atLast]
        simp [isPassed]
    have waits : ∀ range ∈ rest, isPassed c.frontier range = false := by
      intro range member
      have upright := tracks.bounded range (List.mem_append_right _ member)
      have above := (List.pairwise_append.mp ordered).2.2 last (by simp [shape]) range member
      simp only [atLast, isPassed, Option.any_some, decide_eq_false_iff_not]
      omega
    have keepsPopped : (popped.filter fun range => isPassed c.frontier range && p range) =
        popped.filter p := by
      refine List.filter_congr fun range member => ?_
      rw [passes range member, Bool.true_and]
    have dropsRest : (rest.filter fun range => isPassed c.frontier range && p range) = [] := by
      refine List.filter_eq_nil_iff.mpr fun range member => ?_
      rw [waits range member]
      simp
    rw [List.filter_append, keepsPopped, dropsRest, List.append_nil]

/-- Events that register and flush nothing leave the window alone. -/
theorem replayWindow_append (cfg : Config) {c c' : AckCoordinator} {events history : List Event}
    (frontier : c'.frontier = c.frontier) (unregistered : registeredRanges events = [])
    (unflushed : durableAcks events = []) :
    replayWindow cfg c' (events ++ history) = replayWindow cfg c history := by
  rw [replayWindow, registeredRanges_append, unregistered, List.append_nil, durableFloor,
    durableAcks_append, unflushed, List.append_nil, frontier]
  rfl

/-- With every ack flushed, nothing would be replayed. -/
theorem replayWindow_settled {cfg : Config} {a : Actor} {history : List Event}
    (acked : AckBooks cfg a history) (settled : outstanding a = none) :
    replayWindow cfg a.coordinator history = [] := by
  have sameLast := (acked.paid settled).2
  refine List.filter_eq_nil_iff.mpr fun range member => ?_
  have single := (mem_registeredRanges.mp member).1
  cases isFrontier : a.coordinator.frontier with
  | none => simp [isPassed]
  | some frontier =>
      -- the floor is at the frontier, or at a baseline the frontier is not above
      obtain ⟨floor, isFloor, above⟩ : ∃ floor, durableFloor cfg history = some floor ∧
          frontier ≤ floor := by
        rw [durableFloor, sameLast]
        cases isLast : (acks history).getLast? with
        | some sequence =>
            have same := acked.exact sequence isLast
            rw [isFrontier] at same
            cases same
            exact ⟨frontier, rfl, Nat.le_refl _⟩
        | none =>
            by_contra noFloor
            have ahead : ∀ b, cfg.baseline = some b → b < frontier := by
              intro b isBaseline
              by_contra behind
              exact noFloor ⟨b, by simpa using isBaseline, Nat.le_of_not_lt behind⟩
            rw [acked.reached frontier isFrontier ahead] at isLast
            cases isLast
      simp only [isFloor, isPassed, isAbove, Option.any_some, Option.all_some, Bool.and_eq_true,
        decide_eq_true_eq]
      omega

/-- The sequences an admission registers are above the frontier. -/
theorem Registers.above {c last : AckCoordinator} {descriptors : List SourceBatchDescriptor}
    {sequences : List Nat} {answer : RuntimeResult Unit}
    (pass : Registers c descriptors last sequences answer) :
    ∀ sequence ∈ sequences, isPassed c.frontier (sequence, sequence) = false := by
  induction pass with
  | done c => exact nofun
  | stops rejected => exact nofun
  | @goesOn c c' last descriptor rest sequences answer accepted later ih =>
      intro sequence member
      rcases List.mem_cons.mp member with rfl | later
      · obtain ⟨registers, _⟩ := registerPending_ok accepted
        obtain ⟨_, _, _, fresh, _⟩ := registerRejection_eq_none _ _ _ registers
        unfold alreadyAcked at fresh
        cases isFrontier : c.ackedFrontier with
        | none => simp [isPassed, AckCoordinator.frontier, isFrontier]
        | some frontier => simpa [isPassed, AckCoordinator.frontier, isFrontier] using fresh
      · rw [← registerPending_frontier accepted]
        exact ih sequence later

theorem replayWindow_admission (cfg : Config) {c c' : AckCoordinator} {history : List Event}
    {sequences handed : List Nat} (frontier : c'.frontier = c.frontier)
    (above : ∀ sequence ∈ sequences, isPassed c.frontier (sequence, sequence) = false) :
    replayWindow cfg c' ((sequences.map Event.registered).reverse ++
      .handedOut handed :: history) = replayWindow cfg c history := by
  have free := ackFree_registered sequences handed
  have added : registeredRanges ((sequences.map Event.registered).reverse ++
      [.handedOut handed]) = sequences.map fun sequence => (sequence, sequence) := by
    simp [registeredRanges, List.filterMap_reverse, List.filterMap_map, Function.comp_def,
      Event.registered?]
  rw [List.append_cons, replayWindow, registeredRanges_append, added, durableFloor,
    free.durableAcks_append, frontier, List.filter_append]
  have none : ((sequences.map fun sequence => (sequence, sequence)).filter fun range =>
      isPassed c.frontier range && isAbove (durableFloor cfg history) range) = [] := by
    refine List.filter_eq_nil_iff.mpr fun range member => ?_
    obtain ⟨sequence, inSequences, rfl⟩ := List.mem_map.mp member
    rw [above sequence inSequences]
    simp
  exact (congrArg _ none).trans (List.append_nil _)

/-! ## One completion -/

/-- A completion that fills no hole moves the frontier over one range at most. -/
theorem takeWhile_le_one {baseline : Option Nat} {c : AckCoordinator} {popped rest : List Range}
    {committed : Range → Bool} (tracks : Tracks baseline c popped rest committed)
    (settled : ∀ range, rest.head? = some range → committed range = false) {low : Nat}
    (high : Nat)
    (noHole : fillsHole c low = false) :
    (rest.takeWhile (addCommitted committed (low, high))).length ≤ 1 := by
  cases rest with
  | nil => exact Nat.zero_le 1
  | cons first tail =>
      have waited := settled first rfl
      by_cases isFirst : first = (low, high)
      · cases tail with
        | nil =>
            rw [List.takeWhile_cons]
            split
            all_goals simp
        | cons second later =>
            have notYet : committed second = false := by
              simpa [fillsHole, tracks.pending_eq, pendingEntry, isFirst] using noHole
            have apart : second ≠ (low, high) := by
              intro isSecond
              have ordered := contiguous_pairwise _ tracks.contiguous tracks.ordered
              have below := (List.pairwise_cons.mp (List.pairwise_append.mp ordered).2.1).1
                second List.mem_cons_self
              have upright := tracks.ordered second (by simp)
              rw [isFirst, isSecond] at below
              rw [isSecond] at upright
              omega
            have stops : addCommitted committed (low, high) second = false := by
              simp [addCommitted, notYet, apart]
            rw [List.takeWhile_cons]
            split
            · simp [stops]
            · simp
      · have stops : addCommitted committed (low, high) first = false := by
          simp [addCommitted, waited, isFirst]
        simp [stops]

theorem replayWindow_mark {cfg : Config} {c c' : AckCoordinator} {history : List Event}
    (keeps : Keeps cfg c history) {low high : Nat}
    (marked : c.markCommitted low high = (c', .ok ())) (noHole : fillsHole c low = false) :
    (replayWindow cfg c'.advanceFrontier (.markedCommitted low high :: history)).length ≤
      (replayWindow cfg c history).length + 1 := by
  obtain ⟨popped, rest, ranges, tracks, settled, _⟩ := keeps
  have after := (tracks.mark c' low high marked).2.advance
  have onePassed := takeWhile_le_one tracks settled high noHole
  have floor : durableFloor cfg (.markedCommitted low high :: history) =
      durableFloor cfg history := by
    simp [durableFloor, durableAcks, Event.durableAck?, List.filterMap_cons]
  have window := isPassed_tracks after (isAbove (durableFloor cfg history))
  rw [List.append_assoc, List.takeWhile_append_dropWhile, ranges] at window
  rw [replayWindow, registeredRanges_marked, floor, window, replayWindow, ← ranges,
    isPassed_tracks tracks, List.filter_append, List.length_append]
  have fewer := List.length_filter_le (isAbove (durableFloor cfg history))
    (rest.takeWhile (addCommitted (isMarked history) (low, high)))
  omega

/-! ## Every step -/

/-- The flush counter is an upper bound of the window, and below the next flush. -/
structure Counted (cfg : Config) (n : U32) (a : Actor) (history : List Event) : Prop where
  covers : (replayWindow cfg a.coordinator history).length ≤ a.groupsSinceFlush
  below : a.groupsSinceFlush < max n.val 1

theorem counted_start (cfg : Config) (n : U32) : Counted cfg n (Actor.start cfg) [] where
  covers := Nat.le_refl 0
  below := by
    change 0 < max n.val 1
    omega

section Steps

variable {cfg : Config} {n : U32} {a a' : Actor} {history : List Event}

theorem counted_settled (acked : AckBooks cfg a history) (settled : outstanding a = none)
    (below : a.groupsSinceFlush < max n.val 1) : Counted cfg n a history where
  covers := by
    rw [replayWindow_settled acked settled]
    exact Nat.zero_le _
  below := below

theorem nextGroups_of_waits {groups : Nat} (below : groups < max n.val 1)
    (waits : shouldFlush (.everyN n) (nextGroups groups) = false) :
    nextGroups groups = groups + 1 ∧ groups + 1 < max n.val 1 := by
  have bound := n.isLt
  simp only [shouldFlush, decide_eq_false_iff_not, Nat.not_le, ge_iff_le] at waits
  unfold nextGroups at waits ⊢
  omega

/-- A step that acks nothing: the frontier stays at the last ack, or nothing was ever
acked. -/
theorem Counted.unacked (counted : Counted cfg n a history) (before : AckBooks cfg a history)
    (events : List Event) (after : AckBooks cfg a' (events ++ history)) (free : AckFree events)
    (unregistered : registeredRanges events = [])
    (groups : a'.groupsSinceFlush = a.groupsSinceFlush) : Counted cfg n a' (events ++ history) := by
  have below : a'.groupsSinceFlush < max n.val 1 := groups ▸ counted.below
  cases isLast : (acks history).getLast? with
  | none =>
      have noAcks : acks (events ++ history) = [] := by
        rw [free.acks_append]
        exact List.getLast?_eq_none_iff.mp isLast
      refine counted_settled after ?_ below
      cases owes : outstanding a' with
      | none => rfl
      | some sequence =>
          obtain ⟨earlier, shape, _⟩ := after.owed sequence owes
          rw [noAcks] at shape
          exact absurd shape.symm (by simp)
  | some sequence =>
      have same : a'.coordinator.frontier = a.coordinator.frontier := by
        rw [before.exact sequence isLast]
        exact after.exact sequence (by rw [free.acks_append, isLast])
      refine ⟨?_, below⟩
      rw [replayWindow_append cfg same unregistered free.2, groups]
      exact counted.covers

/-- A completion whose ack waits for a later flush. -/
theorem Counted.deferred (counted : Counted cfg n a history)
    (keeps : Keeps cfg a.coordinator history) {c : AckCoordinator} {low high : Nat}
    (marked : a.coordinator.markCommitted low high = (c, .ok ()))
    (noHole : fillsHole a.coordinator low = false)
    (waits : shouldFlush (.everyN n) (nextGroups a.groupsSinceFlush) = false)
    (events : List Event) (unregistered : registeredRanges events = [])
    (unflushed : durableAcks events = [])
    (frontier : a'.coordinator.frontier = c.advanceFrontier.frontier)
    (groups : a'.groupsSinceFlush = nextGroups a.groupsSinceFlush) :
    Counted cfg n a' (events ++ .markedCommitted low high :: history) := by
  obtain ⟨next, below⟩ := nextGroups_of_waits counted.below waits
  have grows := replayWindow_mark keeps marked noHole
  have covers := counted.covers
  refine ⟨?_, ?_⟩
  · rw [replayWindow_append cfg frontier unregistered unflushed, groups, next]
    omega
  · rw [groups, next]
    exact below

theorem receiveCommitted_counted {sh : Shared R} {report : CommittedReport}
    (policy : cfg.options.ackFlushPolicy = .everyN n) (live : cfg.dryRun = false)
    (counted : Counted cfg n a sh.history) (acked : AckBooks cfg a sh.history)
    (keeps : Keeps cfg a.coordinator sh.history) (idle : a.point.isFlushing = false)
    (member : rangeOf report.range ∈ unprocessed sh.history)
    (counts : fillsHole a.coordinator report.range.1.val = false ∨
      shouldFlush (.everyN n) (nextGroups a.groupsSinceFlush) = true)
    (handled : (receiveCommitted cfg a sh report).1.point.handledAll = true) :
    Counted cfg n (receiveCommitted cfg a sh report).1
      (receiveCommitted cfg a sh report).2.history := by
  have after := receiveCommitted_acks live acked keeps idle member
  have received : Neutral [.completionReceived report.range.1.val report.range.2.val] :=
    fun _ => ⟨rfl, rfl⟩
  have shape := receiveCommitted_cases cfg a sh report
  generalize receiveCommitted cfg a sh report = moved at shape handled after ⊢
  obtain ⟨a', sh'⟩ := moved
  cases shape with
  | rejected c error => cases handled
  | marked c marks acks =>
      cases acks with
      | silent =>
          exact counted.unacked acked [.markedCommitted _ _, .completionReceived _ _]
            after ⟨rfl, rfl⟩ rfl rfl
      | deferred frontier _ reached ahead waits =>
          have notDue : shouldFlush (.everyN n) (nextGroups a.groupsSinceFlush) = false :=
            policy ▸ waits
          have noHole := counts.resolve_right (by simp [notDue])
          have seen : Counted cfg n a
              ([.completionReceived report.range.1.val report.range.2.val] ++ sh.history) :=
            counted.unacked acked _ (acked.kept _ rfl rfl rfl rfl acked.calling ⟨rfl, rfl⟩)
              ⟨rfl, rfl⟩ rfl rfl
          exact seen.deferred (keeps.neutral received) marks noHole notDue
            [.ackThrough frontier] rfl rfl rfl rfl
      | flushes frontier => cases handled

end Steps

theorem admission_counted {cfg : Config} {n : U32} {a : Actor} {sh : Shared R}
    (gates : List Reservation) (descriptors : List SourceBatchDescriptor)
    (counted : Counted cfg n a sh.history) :
    Counted cfg n (admission a sh gates descriptors).1
      (admission a sh gates descriptors).2.history := by
  have groups : (admission a sh gates descriptors).1.groupsSinceFlush = a.groupsSinceFlush := by
    cases descriptors with
    | nil => rfl
    | cons first rest =>
        simp only [admission]
        split
        all_goals rfl
  have frontier : (admission a sh gates descriptors).1.coordinator.frontier =
      a.coordinator.frontier := by
    cases descriptors with
    | nil => rfl
    | cons first rest =>
        simp only [admission]
        split
        all_goals exact (registers_registerAll a.coordinator (first :: rest)).frontier
  refine ⟨?_, groups ▸ counted.below⟩
  have above := (registers_registerAll a.coordinator descriptors).above
  rw [admission_history, replayWindow_admission cfg frontier above, groups]
  exact counted.covers

theorem ActorPoint.Plain.handledAll {point : ActorPoint} (plain : point.Plain)
    (running : point.hasExited = false) : point.handledAll = true := by
  cases point with
  | flushing sequence frontier => exact plain.elim
  | exited result => cases running
  | _ => rfl

theorem counted_step [TypedRecords R] {cfg : Config} {n : U32} {s s' : State R}
    {action : Action R} (policy : cfg.options.ackFlushPolicy = .everyN n)
    (live : cfg.dryRun = false) (reachable : (machine R cfg).Reachable s)
    (counted : s.actor.point.handledAll = true → Counted cfg n s.actor s.shared.history)
    (allowed : countsEachRange cfg s action = true) (taken : step cfg s action = some s')
    (handled : s'.actor.point.handledAll = true) : Counted cfg n s'.actor s'.shared.history := by
  have acked := ackBooks_of_reachable live reachable
  have after := ackBooks_of_reachable live (.step action reachable taken)
  have books := books_of_reachable reachable
  have handledAt : ∀ point, s.actor.point = point → point.handledAll = true →
      Counted cfg n s.actor s.shared.history := by
    intro point isPoint isHandled
    exact counted (by rw [isPoint, isHandled])
  cases step_cases (accounts_of_reachable reachable) taken with
  | other sameActor events history fromSink =>
      rw [sameActor] at handled
      rw [history] at after ⊢
      have unregistered := (neutral_of_fromSink fromSink).registeredRanges_append []
      rw [List.append_nil] at unregistered
      exact (counted handled).unacked acked _ after (ackFree_of_fromSink fromSink) unregistered
        (by rw [sameActor])
  | actor shape isActor =>
      generalize s'.actor = a', s'.shared = sh' at shape after handled ⊢
      cases shape with
      | quiet same before running =>
          rw [same.history] at after ⊢
          exact (counted (before.handledAll running)).unacked acked [] after
            ⟨rfl, rfl⟩ rfl same.groupsSinceFlush
      | admits gates descriptors polling =>
          exact admission_counted gates descriptors (handledAt _ polling rfl)
      | receives permit report rest sh₁ select busy queue popped received =>
          have member := report_unprocessed (custody_of_reachable reachable) books.keeps report
            (by rw [queue]; exact List.mem_cons_self)
          have sameHistory : sh₁.history = s.shared.history := by
            rw [popped, cancelAdmission_eq]
          have counts : fillsHole s.actor.coordinator report.range.1.val = false ∨
              shouldFlush (.everyN n) (nextGroups s.actor.groupsSinceFlush) = true := by
            rw [isActor, received] at allowed
            simpa [countsEachRange, queue, policy] using allowed
          have before := handledAt _ select rfl
          rw [← sameHistory] at member acked before
          exact receiveCommitted_counted policy live before acked (sameHistory ▸ books.keeps)
            (by rw [select]; rfl) member counts handled
      | flushed sequence frontier flushing =>
          refine counted_settled after (acked.calling (by rw [flushing]; rfl)) ?_
          change 0 < max n.val 1
          omega
      | flushFailed sequence error => cases handled
      | flushedLast sequence flushing =>
          exact counted_settled after (acked.calling (by rw [flushing]; rfl))
            (handledAt _ flushing rfl).below
      | finishes permit sequence select =>
          rw [cancelAdmission_eq] at after ⊢
          exact (handledAt _ select rfl).unacked acked [.consumerAckCalled sequence]
            after ⟨rfl, rfl⟩ rfl rfl
      | leaves permit select =>
          rw [cancelAdmission_eq] at after ⊢
          exact (handledAt _ select rfl).unacked acked [] after ⟨rfl, rfl⟩ rfl rfl

/-- In a live run under `EveryN { n }` in which every completion fills no hole or is
followed by a flush, fewer than `max(n, 1)` ranges would be replayed whenever the actor has
handled what it received. -/
theorem replay_window_bounded [TypedRecords R] (cfg : Config) (live : cfg.dryRun = false)
    (n : U32) (policy : cfg.options.ackFlushPolicy = .everyN n) (s : State R)
    (reachable : ((machine R cfg).restrict (countsEachRange cfg)).Reachable s)
    (handled : s.actor.point.handledAll = true) :
    (replayWindow cfg s.actor.coordinator s.shared.history).length < max n.val 1 := by
  have counted : s.actor.point.handledAll = true → Counted cfg n s.actor s.shared.history := by
    refine reachable.invariant (P := fun s => s.actor.point.handledAll = true →
      Counted cfg n s.actor s.shared.history) (fun _ => counted_start cfg n) ?_
    intro s action s' before counted taken isHandled
    obtain ⟨allowed, steps⟩ := Machine.restrict_step.mp taken
    exact counted_step policy live before.unrestricted counted allowed steps isHandled
  exact Nat.lt_of_le_of_lt (counted handled).covers (counted handled).below

/-! ## Two batches -/

/-- `narrowConfig` with a flush after two ranges. -/
def everyTwoConfig : Config :=
  { narrowConfig with options := { narrowConfig.options with ackFlushPolicy := .everyN 2 } }

/-- Batches 0 and 1 are admitted together and written by one writer each. -/
def twoWritesRun : List (Action SizedRecords) :=
  [.actor .acquirePermit, .actor .reserveBytes, .actor .readRoom, .actor .readPermits,
    .actor .tryAcquire, .actor (.tryReserve false), .actor .tryAcquire,
    .actor (.nextDescriptors (.ok [⟨0, "a", []⟩, ⟨1, "b", []⟩])), .actor .send, .actor .send,
    .actor .send,
    .fetch 0 .take, .fetch 0 (.answer (.ok ⟨[], 0, "a", []⟩)), .fetch 0 .send,
    .decode 0 .take, .decode 0 (.decode (sizedDecoder 1)), .decode 0 .send, .writer 0 .take,
    .fetch 0 .take, .fetch 0 (.answer (.ok ⟨[], 1, "b", []⟩)), .fetch 0 .send,
    .decode 0 .take, .decode 0 (.decode (sizedDecoder 1)), .decode 0 .send, .writer 1 .take]

/-- The writer's batch is written, reported and handled by the actor. -/
def completes (writer : Nat) : List (Action SizedRecords) :=
  [.writer writer (.write (.ok ⟨1, 1⟩)), .writer writer .report, .actor .receive]

/-- In order, the first ack waits for a second one. -/
theorem replay_window_bounded_in_order : ∃ s : State SizedRecords,
    ((machine SizedRecords everyTwoConfig).restrict
        (countsEachRange everyTwoConfig)).Reachable s ∧ s.actor.groupsSinceFlush = 1 ∧
      (replayWindow everyTwoConfig s.actor.coordinator s.shared.history).length < 2 := by
  have ends : (((machine SizedRecords everyTwoConfig).restrict
      (countsEachRange everyTwoConfig)).run (twoWritesRun ++ completes 0)).map
        (fun s => (s.actor.groupsSinceFlush, s.actor.point.handledAll)) = some (1, true) := by
    decide
  obtain ⟨s, ran, values⟩ := Option.map_eq_some_iff.mp ends
  obtain ⟨groups, handled⟩ := Prod.mk.inj values
  have reachable := Machine.run_reachable _ _ s ran
  exact ⟨s, reachable, groups,
    replay_window_bounded everyTwoConfig rfl 2 rfl s reachable handled⟩

/-- Batch 1 first: the completion of batch 0 moves the frontier over both, in one ack that
is not flushed. -/
theorem hole_filled_without_flush : ¬ ∀ (cfg : Config), cfg.dryRun = false →
    ∀ n : U32, cfg.options.ackFlushPolicy = .everyN n → ∀ s : State SizedRecords,
      (machine SizedRecords cfg).Reachable s → s.actor.point.handledAll = true →
        (replayWindow cfg s.actor.coordinator s.shared.history).length < max n.val 1 := by
  intro bounded
  have ends : ((machine SizedRecords everyTwoConfig).run
      (twoWritesRun ++ completes 1 ++ completes 0)).map
        (fun s => ((replayWindow everyTwoConfig s.actor.coordinator s.shared.history).length,
          s.actor.point.handledAll)) = some (2, true) := by
    decide
  obtain ⟨s, ran, values⟩ := Option.map_eq_some_iff.mp ends
  obtain ⟨length, handled⟩ := Prod.mk.inj values
  have reachable := Machine.run_reachable _ _ s ran
  have below := bounded everyTwoConfig rfl 2 rfl s reachable handled
  rw [length] at below
  exact absurd below (by decide)

end OpendataIngest.Runtime.Pipeline
