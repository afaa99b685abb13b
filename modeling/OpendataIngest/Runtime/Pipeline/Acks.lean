import OpendataIngest.Runtime.AckCoordinatorRuns
import OpendataIngest.Runtime.Pipeline.Books

/-!
# The ack stream

Three frontiers move at different times: the coordinator's, `last_ack_sent`, and the
sequence the buffer has durably acked.  `AckBooks` says how they are related in every
live run, over the acks and the successful flushes recorded in the history.
-/

set_option autoImplicit false

namespace OpendataIngest.Runtime.Pipeline

open MachineInt Pool AckCoordinator

variable {R : Type}

/-! ## The acks of a history -/

def Event.ackThrough? : Event → Option Nat
  | .ackThrough sequence => some sequence
  | _ => none

def Event.durableAck? : Event → Option Nat
  | .consumerAckReturned sequence (.ok _) => some sequence
  | _ => none

/-- The values passed to `BufferSource::ack_through`, oldest first. -/
def acks (history : List Event) : List Nat := (history.filterMap Event.ackThrough?).reverse

/-- The values the buffer's consumer has accepted, oldest first. -/
def durableAcks (history : List Event) : List Nat :=
  (history.filterMap Event.durableAck?).reverse

/-- Events that are no acks. -/
def AckFree (events : List Event) : Prop := acks events = [] ∧ durableAcks events = []

theorem acks_append (newer older : List Event) :
    acks (newer ++ older) = acks older ++ acks newer := by
  simp [acks]

theorem durableAcks_append (newer older : List Event) :
    durableAcks (newer ++ older) = durableAcks older ++ durableAcks newer := by
  simp [durableAcks]

theorem acks_append_of_none (events : List Event) (none : acks events = [])
    (older : List Event) : acks (events ++ older) = acks older := by
  rw [acks_append, none, List.append_nil]

theorem AckFree.acks_append {events : List Event} (free : AckFree events) (older : List Event) :
    acks (events ++ older) = acks older := acks_append_of_none events free.1 older

theorem AckFree.durableAcks_append {events : List Event} (free : AckFree events)
    (older : List Event) : durableAcks (events ++ older) = durableAcks older := by
  rw [Pipeline.durableAcks_append, free.2, List.append_nil]

theorem mem_acks {history : List Event} {sequence : Nat} :
    sequence ∈ acks history ↔ .ackThrough sequence ∈ history := by
  rw [acks, List.mem_reverse, List.mem_filterMap]
  constructor
  · rintro ⟨event, member, isAck⟩
    cases event with
    | ackThrough other =>
        cases isAck
        exact member
    | _ => cases isAck
  · intro member
    exact ⟨_, member, rfl⟩

theorem ackFree_of_fromSink {events : List Event}
    (fromSink : ∀ event ∈ events, event.fromSink = true) : AckFree events := by
  constructor
  all_goals
    refine List.reverse_eq_nil_iff.mpr (List.filterMap_eq_nil_iff.mpr fun event member => ?_)
    exact Event.of_fromSink event (fromSink event member) (fun _ => rfl) (fun _ _ => rfl)
      fun _ _ => rfl

theorem ackFree_registered (sequences : List Nat) (handed : List Nat) :
    AckFree ((sequences.map Event.registered).reverse ++ [.handedOut handed]) := by
  constructor
  all_goals
    refine List.reverse_eq_nil_iff.mpr (List.filterMap_eq_nil_iff.mpr fun event member => ?_)
    rcases List.mem_append.mp member with isRegistered | isHanded
    · obtain ⟨sequence, _, rfl⟩ := List.mem_map.mp (List.mem_reverse.mp isRegistered)
      rfl
    · rw [List.mem_singleton.mp isHanded]
      rfl

/-! ## The three frontiers -/

/-- The sequence that is acked in memory and not yet durable: the consumer is being
called with it, or it waits for the next flush. -/
def outstanding (a : Actor) : Option Nat :=
  match a.point with
  | .flushing sequence _ => some sequence
  | .finalFlush sequence => some sequence
  | _ => a.source.pendingDurableAck

def ActorPoint.isFlushing : ActorPoint → Bool
  | .flushing _ _ => true
  | .finalFlush _ => true
  | _ => false

theorem outstanding_of_not_flushing {a : Actor} (idle : a.point.isFlushing = false) :
    outstanding a = a.source.pendingDurableAck := by
  unfold outstanding
  split
  case h_1 sequence frontier flushing =>
    rw [flushing] at idle
    cases idle
  case h_2 sequence flushing =>
    rw [flushing] at idle
    cases idle
  case h_3 => rfl

theorem ActorPoint.Plain.not_flushing {point : ActorPoint} (plain : point.Plain) :
    point.isFlushing = false := by
  cases point with
  | flushing sequence frontier => exact plain.elim
  | finalFlush sequence => exact plain.elim
  | _ => rfl

structure AckBooks (cfg : Config) (a : Actor) (history : List Event) : Prop where
  increasing : (acks history).Pairwise (· < ·)
  aboveBaseline : ∀ sequence ∈ acks history, ∀ b, cfg.baseline = some b → b < sequence
  sent : a.lastAckSent = ((acks history).getLast? <|> cfg.baseline)
  lastAcked : a.source.lastAcked = a.lastAckSent
  exact : ∀ sequence, (acks history).getLast? = some sequence →
    a.coordinator.frontier = some sequence
  reached : ∀ frontier, a.coordinator.frontier = some frontier →
    (∀ b, cfg.baseline = some b → b < frontier) → (acks history).getLast? = some frontier
  calling : a.point.isFlushing = true → a.source.pendingDurableAck = none
  owed : ∀ sequence, outstanding a = some sequence → ∃ earlier,
    acks history = earlier ++ [sequence] ∧ (durableAcks history).Sublist earlier
  paid : outstanding a = none → (durableAcks history).Sublist (acks history) ∧
    (durableAcks history).getLast? = (acks history).getLast?

theorem ackBooks_start (cfg : Config) : AckBooks cfg (Actor.start cfg) [] where
  increasing := List.Pairwise.nil
  aboveBaseline := nofun
  sent := rfl
  lastAcked := rfl
  exact := nofun
  reached := nofun
  calling := nofun
  owed := nofun
  paid _ := ⟨List.nil_sublist _, rfl⟩

section Steps

variable {cfg : Config} {a a' : Actor} {history : List Event}

/-- A step that neither acks nor moves the frontier. -/
theorem AckBooks.kept (books : AckBooks cfg a history) (events : List Event)
    (frontier : a'.coordinator.frontier = a.coordinator.frontier)
    (lastAcked : a'.source.lastAcked = a.source.lastAcked)
    (lastAckSent : a'.lastAckSent = a.lastAckSent) (owes : outstanding a' = outstanding a)
    (calling : a'.point.isFlushing = true → a'.source.pendingDurableAck = none)
    (free : AckFree events) : AckBooks cfg a' (events ++ history) := by
  refine ⟨?_, ?_, ?_, ?_, ?_, ?_, calling, ?_, ?_⟩
  · rw [free.acks_append]
    exact books.increasing
  · rw [free.acks_append]
    exact books.aboveBaseline
  · rw [free.acks_append, lastAckSent]
    exact books.sent
  · rw [lastAcked, lastAckSent]
    exact books.lastAcked
  · rw [free.acks_append, frontier]
    exact books.exact
  · rw [free.acks_append, frontier]
    exact books.reached
  · rw [free.acks_append, free.durableAcks_append, owes]
    exact books.owed
  · rw [free.acks_append, free.durableAcks_append, owes]
    exact books.paid

/-- As `kept`, where no flush is under way. -/
theorem AckBooks.same (books : AckBooks cfg a history) (events : List Event)
    (frontier : a'.coordinator.frontier = a.coordinator.frontier) (source : a'.source = a.source)
    (lastAckSent : a'.lastAckSent = a.lastAckSent) (before : a.point.isFlushing = false)
    (after : a'.point.isFlushing = false) (free : AckFree events) :
    AckBooks cfg a' (events ++ history) := by
  refine books.kept events frontier (by rw [source]) lastAckSent ?_ ?_ free
  · rw [outstanding_of_not_flushing before, outstanding_of_not_flushing after, source]
  · intro flushing
    rw [after] at flushing
    cases flushing

theorem AckBooks.durable_sublist (books : AckBooks cfg a history) :
    (durableAcks history).Sublist (acks history) := by
  cases owes : outstanding a with
  | none => exact (books.paid owes).1
  | some sequence =>
      obtain ⟨earlier, shape, sublist⟩ := books.owed sequence owes
      rw [shape]
      exact sublist.trans (List.sublist_append_left _ _)

/-- The next ack is above every ack before it, and above the baseline. -/
theorem AckBooks.ahead (books : AckBooks cfg a history) {frontier : Nat}
    (ahead : shouldAck a.lastAckSent frontier = true) :
    (∀ sequence ∈ acks history, sequence < frontier) ∧
      ∀ b, cfg.baseline = some b → b < frontier := by
  rw [books.sent] at ahead
  rcases List.eq_nil_or_concat' (acks history) with empty | ⟨earlier, last, shape⟩
  · refine ⟨by simp [empty], fun b isBaseline => ?_⟩
    simpa [empty, isBaseline, shouldAck] using ahead
  · have above : last < frontier := by simpa [shape, shouldAck] using ahead
    refine ⟨fun sequence member => ?_, fun b isBaseline => ?_⟩
    · rw [shape] at member
      rcases List.mem_append.mp member with early | isLast
      · have increasing := books.increasing
        rw [shape] at increasing
        have below := (List.pairwise_append.mp increasing).2.2 sequence early last
          (List.mem_singleton_self last)
        omega
      · rw [List.mem_singleton.mp isLast]
        exact above
    · have below := books.aboveBaseline last (by simp [shape]) b isBaseline
      omega

/-- A new ack in memory, flushed at once or not. -/
theorem AckBooks.acked (books : AckBooks cfg a history) (events : List Event) {frontier : Nat}
    (isAhead : shouldAck a.lastAckSent frontier = true)
    (appended : acks events = [frontier]) (noFlush : durableAcks events = [])
    (reached : a'.coordinator.frontier = some frontier)
    (lastAcked : a'.source.lastAcked = some frontier) (sent : a'.lastAckSent = some frontier)
    (calling : a'.point.isFlushing = true → a'.source.pendingDurableAck = none)
    (owes : outstanding a' = some frontier) : AckBooks cfg a' (events ++ history) := by
  obtain ⟨aboveAcks, aboveBaseline⟩ := books.ahead isAhead
  have newAcks : acks (events ++ history) = acks history ++ [frontier] := by
    rw [acks_append, appended]
  have newDurable : durableAcks (events ++ history) = durableAcks history := by
    rw [durableAcks_append, noFlush, List.append_nil]
  refine ⟨?_, ?_, ?_, ?_, ?_, ?_, calling, ?_, ?_⟩
  · rw [newAcks]
    refine List.pairwise_append.mpr ⟨books.increasing, List.pairwise_singleton _ _, ?_⟩
    intro sequence member other isLast
    rw [List.mem_singleton.mp isLast]
    exact aboveAcks sequence member
  · rw [newAcks]
    intro sequence member
    rcases List.mem_append.mp member with early | isLast
    · exact books.aboveBaseline sequence early
    · rw [List.mem_singleton.mp isLast]
      exact aboveBaseline
  · rw [newAcks, sent, List.getLast?_concat]
    rfl
  · rw [lastAcked, sent]
  · intro sequence isLast
    rw [newAcks, List.getLast?_concat] at isLast
    rw [reached, isLast]
  · intro other isFrontier _
    rw [newAcks, List.getLast?_concat, ← isFrontier, reached]
  · intro sequence isOwed
    rw [owes] at isOwed
    cases isOwed
    exact ⟨acks history, newAcks, newDurable ▸ books.durable_sublist⟩
  · intro none
    rw [owes] at none
    cases none

/-- The consumer has accepted the outstanding sequence. -/
theorem AckBooks.flushed (books : AckBooks cfg a history) (events : List Event) {sequence : Nat}
    (owes : outstanding a = some sequence) (noAck : acks events = [])
    (flushed : durableAcks events = [sequence])
    (frontier : a'.coordinator.frontier = a.coordinator.frontier)
    (lastAcked : a'.source.lastAcked = a.source.lastAcked)
    (lastAckSent : a'.lastAckSent = a.lastAckSent) (settled : outstanding a' = none)
    (idle : a'.point.isFlushing = false) : AckBooks cfg a' (events ++ history) := by
  obtain ⟨earlier, shape, sublist⟩ := books.owed sequence owes
  have sameAcks : acks (events ++ history) = acks history := by
    rw [acks_append, noAck, List.append_nil]
  have newDurable : durableAcks (events ++ history) = durableAcks history ++ [sequence] := by
    rw [durableAcks_append, flushed]
  refine ⟨?_, ?_, ?_, ?_, ?_, ?_, ?_, ?_, ?_⟩
  · rw [sameAcks]
    exact books.increasing
  · rw [sameAcks]
    exact books.aboveBaseline
  · rw [sameAcks, lastAckSent]
    exact books.sent
  · rw [lastAcked, lastAckSent]
    exact books.lastAcked
  · rw [sameAcks, frontier]
    exact books.exact
  · rw [sameAcks, frontier]
    exact books.reached
  · intro flushing
    rw [idle] at flushing
    cases flushing
  · intro other isOwed
    rw [settled] at isOwed
    cases isOwed
  · intro _
    rw [sameAcks, newDurable, shape, List.getLast?_concat, List.getLast?_concat]
    exact ⟨List.Sublist.append sublist (List.Sublist.refl _), rfl⟩

end Steps

/-! ## The completion arm -/

theorem markCommitted_frontier {c c' : AckCoordinator} {low high : Nat}
    (marked : c.markCommitted low high = (c', .ok ())) : c'.frontier = c.frontier := by
  obtain ⟨entry, _, _, rfl⟩ := markCommitted_ok c c' low high marked
  rfl

theorem Keeps.frontier_le {cfg : Config} {c c' : AckCoordinator} {history : List Event}
    (keeps : Keeps cfg c history) {low high : Nat}
    (marked : c.markCommitted low high = (c', .ok ())) :
    History.FrontierLE c.frontier c'.advanceFrontier.frontier := by
  obtain ⟨popped, rest, _, tracks, _⟩ := keeps
  have tracksMarked := (tracks.mark c' low high marked).2
  rw [← markCommitted_frontier marked]
  exact History.advance_frontier_le tracksMarked

/-- The frontier moved and the ack block found nothing to send: it is at the last ack, or
not above the baseline. -/
theorem AckBooks.silent {cfg : Config} {a a' : Actor} {history : List Event}
    (books : AckBooks cfg a history) (events : List Event)
    (monotone : History.FrontierLE a.coordinator.frontier a'.coordinator.frontier)
    (idle : ∀ frontier, a'.coordinator.frontier = some frontier →
      shouldAck a.lastAckSent frontier = false)
    (source : a'.source = a.source) (lastAckSent : a'.lastAckSent = a.lastAckSent)
    (before : a.point.isFlushing = false) (after : a'.point.isFlushing = false)
    (free : AckFree events) : AckBooks cfg a' (events ++ history) := by
  have atLast : ∀ sequence, (acks history).getLast? = some sequence →
      a'.coordinator.frontier = some sequence := by
    intro sequence isLast
    obtain ⟨frontier, isFrontier, above⟩ := monotone sequence (books.exact sequence isLast)
    have notAhead := idle frontier isFrontier
    rw [books.sent, isLast] at notAhead
    have below : frontier ≤ sequence := by simpa [shouldAck] using notAhead
    rw [isFrontier, Nat.le_antisymm below above]
  have quiet : AckBooks cfg { a with point := .select false } (events ++ history) :=
    books.same events rfl rfl rfl before rfl free
  refine ⟨quiet.increasing, quiet.aboveBaseline, by rw [lastAckSent]; exact quiet.sent,
    by rw [source, lastAckSent]; exact quiet.lastAcked, ?_, ?_, ?_, ?_, ?_⟩
  · rw [free.acks_append]
    exact atLast
  · rw [free.acks_append]
    intro frontier isFrontier above
    cases isLast : (acks history).getLast? with
    | some sequence => rw [← isFrontier, atLast sequence isLast]
    | none =>
        have notAhead := idle frontier isFrontier
        rw [books.sent, isLast] at notAhead
        cases isBaseline : cfg.baseline with
        | none => simp [isBaseline, shouldAck] at notAhead
        | some b =>
            have below := above b isBaseline
            have notAbove : frontier ≤ b := by simpa [isBaseline, shouldAck] using notAhead
            omega
  · intro flushing
    rw [after] at flushing
    cases flushing
  · rw [outstanding_of_not_flushing after, source]
    exact quiet.owed
  · rw [outstanding_of_not_flushing after, source]
    exact quiet.paid

theorem receiveCommitted_acks {cfg : Config} {a : Actor} {sh : Shared R}
    {report : CommittedReport} (live : cfg.dryRun = false) (books : AckBooks cfg a sh.history)
    (keeps : Keeps cfg a.coordinator sh.history) (idle : a.point.isFlushing = false)
    (member : rangeOf report.range ∈ unprocessed sh.history) :
    AckBooks cfg (receiveCommitted cfg a sh report).1
      (receiveCommitted cfg a sh report).2.history := by
  have shape := receiveCommitted_cases cfg a sh report
  generalize receiveCommitted cfg a sh report = moved at shape ⊢
  obtain ⟨a', sh'⟩ := moved
  cases shape with
  | rejected c error rejects => exact absurd rejects (keeps.not_rejected member)
  | marked c marks acks =>
      cases acks with
      | silent nothing =>
          refine books.silent [.markedCommitted _ _, .completionReceived _ _]
            (keeps.frontier_le marks) ?_ rfl rfl idle rfl ⟨rfl, rfl⟩
          rcases nothing with dry | notAhead
          · rw [live] at dry
            cases dry
          · exact notAhead
      | deferred frontier _ reached ahead =>
          exact books.acked [.ackThrough frontier, .markedCommitted _ _,
            .completionReceived _ _] ahead rfl rfl reached rfl rfl nofun rfl
      | flushes frontier _ reached ahead =>
          exact books.acked [.consumerAckCalled frontier, .ackThrough frontier,
            .markedCommitted _ _, .completionReceived _ _] ahead rfl rfl reached rfl rfl
            (fun _ => rfl) rfl

/-! ## Every step -/

theorem registerPending_frontier {c c' : AckCoordinator} {low high : Nat}
    (registered : c.registerPending low high = (c', .ok ())) : c'.frontier = c.frontier := by
  rw [(registerPending_ok registered).2]
  simp only [AckCoordinator.frontier, insertPending, absorbBaseline]
  split_ifs
  all_goals rfl

theorem Registers.frontier {c last : AckCoordinator} {descriptors : List SourceBatchDescriptor}
    {sequences : List Nat} {answer : RuntimeResult Unit}
    (pass : Registers c descriptors last sequences answer) : last.frontier = c.frontier := by
  induction pass with
  | done c => rfl
  | stops rejected => rw [registerPending_error rejected]
  | goesOn accepted later ih => rw [ih, registerPending_frontier accepted]

theorem admission_acks {cfg : Config} {a : Actor} {sh : Shared R} (gates : List Reservation)
    (descriptors : List SourceBatchDescriptor) (books : AckBooks cfg a sh.history)
    (idle : a.point.isFlushing = false) :
    AckBooks cfg (admission a sh gates descriptors).1
      (admission a sh gates descriptors).2.history := by
  cases descriptors with
  | nil =>
      simp only [admission, dropGates_eq]
      exact books.same [.handedOut _] rfl rfl rfl idle rfl ⟨rfl, rfl⟩
  | cons first rest =>
      have frontier := (registers_registerAll a.coordinator (first :: rest)).frontier
      have free := ackFree_registered (registerAll a.coordinator (first :: rest)).2.1
        ((first :: rest).map fun d => d.sequence.val)
      simp only [admission, dropGates_eq, recordRegistered_eq, Shared.record]
      split
      all_goals
        simp only [exitActor]
        rw [List.append_cons]
        exact books.same _ frontier rfl rfl idle rfl free

theorem AckBooks.step [TypedRecords R] {cfg : Config} {s s' : State R} {action : Action R}
    (live : cfg.dryRun = false) (acked : AckBooks cfg s.actor s.shared.history)
    (books : Books cfg s.actor s.shared.history) (accounts : Accounts cfg s)
    (custody : Custody s) (taken : step cfg s action = some s') :
    AckBooks cfg s'.actor s'.shared.history := by
  have idleAt : ∀ point, s.actor.point = point → point.isFlushing = false →
      s.actor.point.isFlushing = false := by
    intro point isPoint idle
    rw [isPoint, idle]
  cases step_cases accounts taken with
  | other sameActor events history fromSink =>
      rw [sameActor, history]
      exact acked.kept _ rfl rfl rfl rfl acked.calling (ackFree_of_fromSink fromSink)
  | actor shape =>
      generalize s'.actor = a', s'.shared = sh' at shape ⊢
      cases shape with
      | quiet same before running after =>
          rw [same.history]
          exact acked.same [] (by rw [same.coordinator]) same.source same.lastAckSent
            before.not_flushing after.not_flushing ⟨rfl, rfl⟩
      | admits gates descriptors polling =>
          exact admission_acks gates descriptors acked (idleAt _ polling rfl)
      | receives permit report rest sh₁ select busy queue popped =>
          have member := report_unprocessed custody books.keeps report
            (by rw [queue]; exact List.mem_cons_self)
          have sameHistory : sh₁.history = s.shared.history := by
            rw [popped, cancelAdmission_eq]
          rw [← sameHistory] at member acked books
          exact receiveCommitted_acks live acked books.keeps (idleAt _ select rfl) member
      | flushed sequence frontier flushing =>
          have owes : outstanding s.actor = some sequence := by
            rw [outstanding, flushing]
          have settled := acked.calling (by rw [flushing]; rfl)
          exact acked.flushed [.consumerAckReturned sequence (.ok ())] owes rfl rfl rfl
            rfl rfl settled rfl
      | flushFailed sequence error flushing =>
          have owes : outstanding s.actor = some sequence := by
            rcases flushing with ⟨frontier, flushing⟩ | flushing
            all_goals rw [outstanding, flushing]
          exact acked.kept [.consumerAckReturned sequence (.error error)] rfl rfl rfl
            owes.symm nofun ⟨rfl, rfl⟩
      | flushedLast sequence flushing =>
          have owes : outstanding s.actor = some sequence := by
            rw [outstanding, flushing]
          have settled := acked.calling (by rw [flushing]; rfl)
          exact acked.flushed [.consumerAckReturned sequence (.ok ())] owes rfl rfl rfl
            rfl rfl settled rfl
      | finishes permit sequence select closed drained isLive pending =>
          rw [cancelAdmission_eq]
          have owes : outstanding s.actor = some sequence := by
            rw [outstanding_of_not_flushing (idleAt _ select rfl), pending]
          exact acked.kept [.consumerAckCalled sequence] rfl rfl rfl owes.symm
            (fun _ => rfl) ⟨rfl, rfl⟩
      | leaves permit select =>
          rw [cancelAdmission_eq]
          exact acked.same [] rfl rfl rfl (idleAt _ select rfl) rfl ⟨rfl, rfl⟩

theorem ackBooks_of_reachable [TypedRecords R] {cfg : Config} {s : State R}
    (live : cfg.dryRun = false) (reachable : (machine R cfg).Reachable s) :
    AckBooks cfg s.actor s.shared.history :=
  reachable.invariant (P := fun s => AckBooks cfg s.actor s.shared.history) (ackBooks_start cfg)
    fun _ _ _ before acked taken => acked.step live (books_of_reachable before)
      (accounts_of_reachable before) (custody_of_reachable before) taken

end OpendataIngest.Runtime.Pipeline
