import OpendataIngest.Runtime.Pipeline.Acks
import OpendataIngest.Runtime.Pipeline.MemoryBound

/-!
# No ack before commit

An ack of `f` is covered when the sink has confirmed every admitted sequence up to `f`.
The argument goes from the sink's answers to the marks, from the marks to the frontier,
and from the frontier to the acks.
-/

set_option autoImplicit false

namespace OpendataIngest.Runtime.Pipeline

open MachineInt Pool AckCoordinator

variable {R : Type}

/-! ## Covered acks -/

def Event.acks? : Event → Option Nat
  | .ackThrough sequence => some sequence
  | .consumerAckCalled sequence => some sequence
  | _ => none

/-- Every sequence registered up to `sequence` is committed, and `sequence` is one of
them. -/
def Covered (history : List Event) (sequence : Nat) : Prop :=
  .registered sequence ∈ history ∧
    ∀ q, .registered q ∈ history → q ≤ sequence → CommitSeen history (q, q)

/-- Every ack was covered when it was made. -/
def AckSafe : List Event → Prop
  | [] => True
  | event :: older => AckSafe older ∧ ∀ sequence, event.acks? = some sequence →
      Covered older sequence

theorem mem_registeredRanges {history : List Event} {range : Range} :
    range ∈ registeredRanges history ↔ range.1 = range.2 ∧ .registered range.1 ∈ history := by
  rw [registeredRanges, List.mem_reverse, List.mem_filterMap]
  constructor
  · rintro ⟨event, member, isRegistered⟩
    cases event with
    | registered sequence =>
        cases isRegistered
        exact ⟨rfl, member⟩
    | _ => cases isRegistered
  · rintro ⟨single, member⟩
    exact ⟨_, member, congrArg some (Prod.ext rfl single)⟩

/-- A sequence registered later is above one registered earlier. -/
theorem later_registered_above {newer older : List Event}
    (ordered : (registeredRanges (newer ++ older)).Pairwise fun left right => left.2 < right.1)
    {early late : Nat} (isEarly : .registered early ∈ older) (isLate : .registered late ∈ newer) :
    early < late := by
  rw [registeredRanges_append] at ordered
  exact (List.pairwise_append.mp ordered).2.2 (early, early)
    (mem_registeredRanges.mpr ⟨rfl, isEarly⟩) (late, late)
    (mem_registeredRanges.mpr ⟨rfl, isLate⟩)

theorem Covered.extend {older : List Event} {sequence : Nat}
    (covered : Covered older sequence) (newer : List Event)
    (ordered : (registeredRanges (newer ++ older)).Pairwise fun left right => left.2 < right.1) :
    Covered (newer ++ older) sequence := by
  refine ⟨List.mem_append_right newer covered.1, fun q registered below => ?_⟩
  rcases List.mem_append.mp registered with isLate | isEarly
  · have above := later_registered_above ordered covered.1 isLate
    omega
  · exact (covered.2 q isEarly below).mono newer

theorem AckSafe.at_split {newer older : List Event} {event : Event}
    (safe : AckSafe (newer ++ event :: older)) {sequence : Nat}
    (isAck : event.acks? = some sequence) : Covered older sequence := by
  induction newer with
  | nil => exact safe.2 sequence isAck
  | cons first rest ih => exact ih safe.1

theorem AckSafe.covered {history : List Event} (safe : AckSafe history)
    (ordered : (registeredRanges history).Pairwise fun left right => left.2 < right.1)
    {event : Event} {sequence : Nat} (isAck : event.acks? = some sequence)
    (member : event ∈ history) : Covered history sequence := by
  obtain ⟨newer, older, rfl⟩ := List.append_of_mem member
  rw [List.append_cons] at ordered ⊢
  exact (safe.at_split isAck).extend _ ordered

theorem AckSafe.append {events history : List Event} (safe : AckSafe history)
    (none : ∀ event ∈ events, event.acks? = none) : AckSafe (events ++ history) := by
  induction events with
  | nil => exact safe
  | cons first rest ih =>
      refine ⟨ih fun event member => none event (List.mem_cons_of_mem first member), ?_⟩
      intro sequence isAck
      rw [none first List.mem_cons_self] at isAck
      cases isAck

/-! ## From marks to acks -/

/-- The ranges up to the frontier are marked, and the frontier is a registered sequence. -/
theorem Keeps.frontier_covered {cfg : Config} {c : AckCoordinator} {history : List Event}
    (keeps : Keeps cfg c history) {frontier : Nat} (reached : c.frontier = some frontier)
    (committed : ∀ range, isMarked history range = true → CommitSeen history range) :
    Covered history frontier := by
  obtain ⟨popped, rest, ranges, tracks, _⟩ := keeps
  obtain ⟨top, isLast, highEq⟩ : ∃ top, popped.getLast? = some top ∧ top.2 = frontier := by
    rw [AckCoordinator.frontier, tracks.frontier_eq] at reached
    simpa using reached
  have topMember : top ∈ registeredRanges history := by
    rw [← ranges]
    exact List.mem_append_left rest (List.mem_of_getLast? isLast)
  obtain ⟨single, registered⟩ := mem_registeredRanges.mp topMember
  rw [single, highEq] at registered
  refine ⟨registered, fun q isRegistered below => committed (q, q) ?_⟩
  have member : (q, q) ∈ popped ++ rest := by
    rw [ranges]
    exact mem_registeredRanges.mpr ⟨rfl, isRegistered⟩
  rcases List.mem_append.mp member with early | late
  · exact tracks.popped_committed (q, q) early
  · have above := contiguous_append_low_lt popped rest tracks.contiguous tracks.ordered top isLast
      (q, q) late
    simp only at above
    omega

/-- What a live run keeps: acks are covered, and marks have the sink's confirmation. -/
structure Confirmed (history : List Event) : Prop where
  safe : AckSafe history
  committed : ∀ range, isMarked history range = true → CommitSeen history range

theorem confirmed_start : Confirmed [] where
  safe := trivial
  committed _ marked := by cases marked

theorem Confirmed.append {history : List Event} (confirmed : Confirmed history)
    (events : List Event) (none : ∀ event ∈ events, event.acks? = none)
    (sameMarks : isMarked (events ++ history) = isMarked history) :
    Confirmed (events ++ history) where
  safe := confirmed.safe.append none
  committed range marked := by
    rw [sameMarks] at marked
    exact (confirmed.committed range marked).mono events

theorem Confirmed.marked {history : List Event} (confirmed : Confirmed history) (range : Range)
    (seen : CommitSeen history range) :
    Confirmed (.markedCommitted range.1 range.2 :: history) where
  safe := ⟨confirmed.safe, nofun⟩
  committed other isMarked := by
    rw [isMarked_marked, addCommitted, Bool.or_eq_true, decide_eq_true_iff] at isMarked
    rcases isMarked with early | rfl
    · exact (confirmed.committed other early).mono [_]
    · exact seen.mono [_]

theorem Confirmed.acked {history : List Event} (confirmed : Confirmed history) (event : Event)
    (covered : ∀ sequence, event.acks? = some sequence → Covered history sequence)
    (neutral : Neutral [event]) : Confirmed (event :: history) where
  safe := ⟨confirmed.safe, covered⟩
  committed range marked := by
    rw [← List.singleton_append, neutral.isMarked_append] at marked
    exact (confirmed.committed range marked).mono [event]

theorem receiveCommitted_confirmed {cfg : Config} {a : Actor} {sh : Shared R}
    {report : CommittedReport} (confirmed : Confirmed sh.history)
    (keeps : Keeps cfg a.coordinator sh.history)
    (member : rangeOf report.range ∈ unprocessed sh.history)
    (seen : CommitSeen sh.history (rangeOf report.range)) :
    Confirmed (receiveCommitted cfg a sh report).2.history := by
  have received : Neutral [.completionReceived report.range.1.val report.range.2.val] :=
    fun _ => ⟨rfl, rfl⟩
  have shape := receiveCommitted_cases cfg a sh report
  generalize receiveCommitted cfg a sh report = moved at shape ⊢
  obtain ⟨a', sh'⟩ := moved
  cases shape with
  | rejected c error rejects => exact absurd rejects (keeps.not_rejected member)
  | marked c marks acks =>
      have keepsMarked := (keeps.neutral received).mark marks
      have after : Confirmed (.markedCommitted report.range.1.val report.range.2.val ::
          .completionReceived report.range.1.val report.range.2.val :: sh.history) :=
        (confirmed.append [_] (by simp [Event.acks?]) (received.isMarked_append _)).marked
          (rangeOf report.range) (seen.mono [_])
      cases acks with
      | silent => exact after
      | deferred frontier _ reached =>
          refine after.acked (.ackThrough frontier) ?_ fun _ => ⟨rfl, rfl⟩
          rintro sequence ⟨⟩
          exact keepsMarked.frontier_covered reached after.committed
      | flushes frontier _ reached =>
          have covered := keepsMarked.frontier_covered reached after.committed
          have ackedOnce := after.acked (.ackThrough frontier)
            (by rintro sequence ⟨⟩; exact covered) fun _ => ⟨rfl, rfl⟩
          refine ackedOnce.acked (.consumerAckCalled frontier) ?_ fun _ => ⟨rfl, rfl⟩
          rintro sequence ⟨⟩
          exact covered.extend [.ackThrough frontier] keepsMarked.ordered

/-- What an answer of the buffer adds to the history. -/
theorem admission_history (a : Actor) (sh : Shared R) (gates : List Reservation)
    (descriptors : List SourceBatchDescriptor) :
    (admission a sh gates descriptors).2.history =
      ((registerAll a.coordinator descriptors).2.1.map Event.registered).reverse ++
        .handedOut (descriptors.map fun d => d.sequence.val) :: sh.history := by
  cases descriptors with
  | nil =>
      simp only [admission, dropGates_eq]
      rfl
  | cons first rest =>
      simp only [admission, dropGates_eq, recordRegistered_eq, Shared.record]
      split
      all_goals rfl

theorem admission_events {sequences handed : List Nat} {event : Event}
    (member : event ∈ (sequences.map Event.registered).reverse ++ [.handedOut handed]) :
    (∃ sequence ∈ sequences, event = .registered sequence) ∨ event = .handedOut handed := by
  rcases List.mem_append.mp member with isRegistered | isHanded
  · obtain ⟨sequence, inList, rfl⟩ := List.mem_map.mp (List.mem_reverse.mp isRegistered)
    exact Or.inl ⟨sequence, inList, rfl⟩
  · exact Or.inr (List.mem_singleton.mp isHanded)

theorem isMarked_admission (sequences handed : List Nat) (history : List Event) :
    isMarked ((sequences.map Event.registered).reverse ++ [.handedOut handed] ++ history) =
      isMarked history := by
  funext range
  have absent : Event.markedCommitted range.1 range.2 ∉
      (sequences.map Event.registered).reverse ++ [.handedOut handed] := by
    intro member
    rcases admission_events member with ⟨_, _, isRegistered⟩ | isHanded
    · cases isRegistered
    · cases isHanded
  refine decide_eq_decide.mpr ?_
  rw [List.mem_append, or_iff_right absent]

theorem Confirmed.step [TypedRecords R] {cfg : Config} {s s' : State R} {action : Action R}
    (live : cfg.dryRun = false) (confirmed : Confirmed s.shared.history)
    (acked : AckBooks cfg s.actor s.shared.history)
    (books : Books cfg s.actor s.shared.history) (accounts : Accounts cfg s)
    (custody : Custody s) (taken : step cfg s action = some s') :
    Confirmed s'.shared.history := by
  have returned : ∀ sequence answer,
      Confirmed (.consumerAckReturned sequence answer :: s.shared.history) :=
    fun sequence answer => confirmed.acked _ nofun fun _ => ⟨rfl, rfl⟩
  cases step_cases accounts taken with
  | other sameActor events history fromSink =>
      rw [history]
      refine confirmed.append _ (fun event member => ?_)
        ((neutral_of_fromSink fromSink).isMarked_append _)
      exact Event.of_fromSink event (fromSink event member) (fun _ => rfl) (fun _ _ => rfl)
        fun _ _ => rfl
  | actor shape =>
      generalize s'.actor = a', s'.shared = sh' at shape ⊢
      cases shape with
      | quiet same =>
          rw [same.history]
          exact confirmed
      | admits gates descriptors =>
          rw [admission_history, List.append_cons]
          refine confirmed.append _ (fun event member => ?_) (isMarked_admission _ _ _)
          rcases admission_events member with ⟨_, _, rfl⟩ | rfl
          all_goals rfl
      | receives permit report rest sh₁ select busy queue popped =>
          have inQueue : .committed report ∈ s.shared.completions := by
            rw [queue]
            exact List.mem_cons_self
          have sameHistory : sh₁.history = s.shared.history := by
            rw [popped, cancelAdmission_eq]
          have held : report.holding ∈ s.holdings := by
            have inChannel : report.holding ∈
                s.shared.completions.flatMap WriteCompletion.holdings :=
              List.mem_flatMap.mpr ⟨_, inQueue, List.mem_singleton_self _⟩
            simp [State.holdings, Shared.holdings, inChannel]
          refine receiveCommitted_confirmed (sameHistory ▸ confirmed) (sameHistory ▸ books.keeps)
            (sameHistory ▸ report_unprocessed custody books.keeps report inQueue) ?_
          rw [sameHistory]
          exact (accounts.sound _ held).evidence live rfl _ rfl
      | flushed sequence => exact returned sequence _
      | flushFailed sequence error => exact returned sequence _
      | flushedLast sequence => exact returned sequence _
      | finishes permit sequence select closed drained isLive pending =>
          rw [cancelAdmission_eq]
          refine confirmed.acked (.consumerAckCalled sequence) ?_ fun _ => ⟨rfl, rfl⟩
          rintro other ⟨⟩
          have idle : s.actor.point.isFlushing = false := by
            rw [select]
            rfl
          have owes : outstanding s.actor = some sequence := by
            rw [outstanding_of_not_flushing idle, pending]
          obtain ⟨earlier, shape, _⟩ := acked.owed sequence owes
          have inAcks : sequence ∈ acks s.shared.history := by simp [shape]
          exact confirmed.safe.covered books.keeps.ordered rfl (mem_acks.mp inAcks)
      | leaves permit =>
          rw [cancelAdmission_eq]
          exact confirmed

theorem confirmed_of_reachable [TypedRecords R] {cfg : Config} {s : State R}
    (live : cfg.dryRun = false) (reachable : (machine R cfg).Reachable s) :
    Confirmed s.shared.history := by
  refine reachable.invariant (P := fun s => Confirmed s.shared.history) confirmed_start ?_
  intro s action s' before confirmed taken
  exact confirmed.step live (ackBooks_of_reachable live before) (books_of_reachable before)
    (accounts_of_reachable before) (custody_of_reachable before) taken

/-! ## Dry runs -/

/-- The calls a dry run must not make. -/
def Event.isOutward : Event → Bool
  | .sinkWriteCalled _ => true
  | .ackThrough _ => true
  | .consumerAckCalled _ => true
  | _ => false

def DecodePoint.isSending : DecodePoint R → Bool
  | .sending _ => true
  | _ => false

def WriterPoint.isIdle : WriterPoint R → Bool
  | .recv => true
  | .exited _ => true
  | _ => false

/-- Nothing reaches the sink stage of a dry run. -/
structure Dry (s : State R) : Prop where
  sinkCommits : s.shared.sinkCommits = []
  decoders : ∀ p ∈ s.decoders, p.isSending = false
  writers : ∀ p ∈ s.writers, p.isIdle = true
  silent : ∀ event ∈ s.shared.history, event.isOutward = false

theorem dry_start (cfg : Config) : Dry (State.start cfg : State R) where
  sinkCommits := rfl
  decoders p member := by
    rw [List.eq_of_mem_replicate member]
    rfl
  writers p member := by
    rw [List.eq_of_mem_replicate member]
    rfl
  silent := nofun

theorem stepFetch_history {cfg : Config} {killed decodersGone : Bool} {sh sh' : Shared R}
    {p p' : FetchPoint} {action : FetchAction}
    (taken : stepFetch cfg killed decodersGone sh p action = some (p', sh')) :
    sh'.history = sh.history := by
  cases fetchStep_of_stepFetch taken with
  | panics _ message alive =>
      obtain ⟨k, free, dropped⟩ := dropHeld_eq sh.fail p.reservation?
      rw [dropped]
      rfl
  | _ => rfl

theorem decodeOne_dry [TypedRecords R] {cfg : Config} (dry : cfg.dryRun = true)
    {decoder : Decoder R} {unit : FetchedBatch} {k : Counters Stage} {commit : SinkCommit R}
    {range : U64 × U64} {reservation : Reservation} {k' : Counters Stage}
    (decoded : decodeOne cfg decoder unit k = (.ok (.live commit range), reservation, k')) :
    False := by
  unfold decodeOne at decoded
  split at decoded
  · cases decoded
  · simp only [dry, if_true] at decoded
    split_ifs at decoded
    all_goals cases decoded

theorem stepDecode_dry [TypedRecords R] {cfg : Config} (dry : cfg.dryRun = true)
    {fetchersGone writersGone : Bool} {sh sh' : Shared R} {p p' : DecodePoint R}
    {action : DecodeAction R} (notSending : p.isSending = false)
    (taken : stepDecode cfg fetchersGone writersGone sh p action = some (p', sh')) :
    p'.isSending = false ∧ sh'.sinkCommits = sh.sinkCommits ∧ sh'.history = sh.history := by
  cases decodeStep_of_stepDecode taken with
  | decodes unit decoder commit range reservation k decoded =>
      exact (decodeOne_dry dry decoded).elim
  | cutOff | sends => cases notSending
  | panics _ message alive =>
      obtain ⟨k, free, dropped⟩ := dropHeld_eq sh.fail p.reservation?
      rw [dropped]
      exact ⟨rfl, rfl, rfl⟩
  | _ => exact ⟨rfl, rfl, rfl⟩

/-- A writer with nothing to read can only leave. -/
theorem stepWriter_dry {cfg : Config} {decodersGone : Bool} {sh sh' : Shared R}
    {p p' : WriterPoint R} {action : WriterAction} (idle : p.isIdle = true)
    (empty : sh.sinkCommits = [])
    (taken : stepWriter cfg decodersGone sh p action = some (p', sh')) :
    p'.isIdle = true ∧ sh'.sinkCommits = sh.sinkCommits ∧ sh'.history = sh.history := by
  cases writerStep_of_stepWriter taken with
  | takes unit rest queue =>
      rw [empty] at queue
      cases queue
  | retries _ _ attempt unit error event answered left =>
      cases answered with
      | write => cases idle
      | check => cases idle
  | givesUp _ _ attempt unit error event answered spent =>
      cases answered with
      | write => cases idle
      | check => cases idle
  | abandons _ unit message inRetry aborting =>
      cases inRetry with
      | writing => cases idle
      | checking => cases idle
      | backingOff => cases idle
  | leaves | aborts => exact ⟨rfl, rfl, rfl⟩
  | panics _ message alive =>
      obtain ⟨k, free, dropped⟩ := dropHeld_eq sh.fail p.reservation?
      rw [dropped]
      exact ⟨rfl, rfl, rfl⟩
  | _ => cases idle

/-- The actor of a dry run records no call. -/
theorem ActorCase.dry {cfg : Config} (dry : cfg.dryRun = true) {a a' : Actor}
    {sh sh' : Shared R} {action : ActorAction} (shape : ActorCase cfg a sh action a' sh') :
    ∀ event ∈ sh'.history, event ∈ sh.history ∨ event.isOutward = false := by
  have recorded : ∀ (other : Event) (older : List Event), other.isOutward = false →
      ∀ event ∈ other :: older, event ∈ older ∨ event.isOutward = false := by
    intro other older quiet event member
    rcases List.mem_cons.mp member with rfl | early
    · exact Or.inr quiet
    · exact Or.inl early
  cases shape with
  | quiet same =>
      rw [same.history]
      exact fun event member => Or.inl member
  | admits gates descriptors =>
      rw [admission_history, List.append_cons]
      intro event member
      rcases List.mem_append.mp member with admitted | early
      · rcases admission_events admitted with ⟨_, _, rfl⟩ | rfl
        all_goals exact Or.inr rfl
      · exact Or.inl early
  | receives permit report rest sh₁ select busy queue popped =>
      have sameHistory : sh₁.history = sh.history := by
        rw [popped, cancelAdmission_eq]
      rw [← sameHistory]
      have shape := receiveCommitted_cases cfg a sh₁ report
      generalize receiveCommitted cfg a sh₁ report = moved at shape ⊢
      obtain ⟨a', sh'⟩ := moved
      cases shape with
      | rejected c error => exact recorded _ _ rfl
      | marked c marks acks =>
          cases acks with
          | silent =>
              intro event member
              rcases recorded _ _ rfl event member with early | quiet
              · exact recorded _ _ rfl event early
              · exact Or.inr quiet
          | deferred frontier live =>
              rw [dry] at live
              cases live
          | flushes frontier live =>
              rw [dry] at live
              cases live
  | flushed sequence => exact recorded _ _ rfl
  | flushFailed sequence error => exact recorded _ _ rfl
  | flushedLast sequence => exact recorded _ _ rfl
  | finishes permit sequence select closed drained live =>
      rw [dry] at live
      cases live
  | leaves permit =>
      rw [cancelAdmission_eq]
      exact fun event member => Or.inl member

theorem Dry.step [TypedRecords R] {cfg : Config} {s s' : State R} {action : Action R}
    (isDry : cfg.dryRun = true) (dry : Dry s) (taken : step cfg s action = some s') : Dry s' := by
  cases transition_of_step taken with
  | actor moved =>
      refine ⟨(stepActor_flow moved).sinkCommits.trans dry.sinkCommits, dry.decoders, dry.writers,
        fun event member => ?_⟩
      rcases (stepActor_cases moved).dry isDry event member with early | quiet
      · exact dry.silent event early
      · exact quiet
  | fetch present moved =>
      have history := stepFetch_history moved
      exact ⟨(stepFetch_flow moved).queues.2.trans dry.sinkCommits, dry.decoders, dry.writers,
        history ▸ dry.silent⟩
  | decode present moved =>
      obtain ⟨notSending, queue, history⟩ := stepDecode_dry isDry
        (dry.decoders _ (List.mem_of_getElem? present)) moved
      refine ⟨queue.trans dry.sinkCommits, fun q member => ?_, dry.writers, history ▸ dry.silent⟩
      rcases List.mem_or_eq_of_mem_set member with old | rfl
      · exact dry.decoders q old
      · exact notSending
  | writer present moved =>
      obtain ⟨idle, queue, history⟩ := stepWriter_dry
        (dry.writers _ (List.mem_of_getElem? present)) dry.sinkCommits moved
      refine ⟨queue.trans dry.sinkCommits, dry.decoders, fun q member => ?_, history ▸ dry.silent⟩
      rcases List.mem_or_eq_of_mem_set member with old | rfl
      · exact dry.writers q old
      · exact idle
  | discardsSinkCommit queue =>
      rw [dry.sinkCommits] at queue
      cases queue
  | _ => exact { dry with }

theorem dry_of_reachable [TypedRecords R] {cfg : Config} {s : State R}
    (isDry : cfg.dryRun = true) (reachable : (machine R cfg).Reachable s) : Dry s :=
  reachable.invariant (dry_start cfg) fun _ _ _ _ dry taken => dry.step isDry taken

/-! ## The contract -/

/-- In a live run, when the actor acks `f` or the consumer is called with `f`, the sink has
already confirmed every sequence up to `f` that the run admits.  A dry run calls neither
the sink nor an ack. -/
theorem no_ack_before_commit [TypedRecords R] (cfg : Config) (s : State R)
    (reachable : (machine R cfg).Reachable s) :
    (cfg.dryRun = false → ∀ newer older event f, s.shared.history = newer ++ event :: older →
      (event = .ackThrough f ∨ event = .consumerAckCalled f) →
      ∀ q, .registered q ∈ s.shared.history → q ≤ f → CommitSeen older (q, q)) ∧
    (cfg.dryRun = true → ∀ event ∈ s.shared.history,
      (∀ identity, event ≠ .sinkWriteCalled identity) ∧ (∀ f, event ≠ .ackThrough f) ∧
        ∀ f, event ≠ .consumerAckCalled f) := by
  constructor
  · intro live newer older event f split isAck q registered below
    have ordered := (books_of_reachable reachable).keeps.ordered
    have safe := (confirmed_of_reachable live reachable).safe
    rw [split] at ordered safe registered
    have isAcks : event.acks? = some f := by
      rcases isAck with rfl | rfl
      all_goals rfl
    have covered := safe.at_split isAcks
    rw [List.append_cons] at ordered registered
    rcases List.mem_append.mp registered with late | early
    · have above := later_registered_above ordered covered.1 late
      omega
    · exact covered.2 q early below
  · intro isDry event member
    have quiet := (dry_of_reachable isDry reachable).silent event member
    refine ⟨?_, ?_, ?_⟩
    all_goals
      rintro value rfl
      cases quiet

/-- One batch through the whole pipeline. -/
def commitRun : List (Action SizedRecords) :=
  [.actor .acquirePermit, .actor .reserveBytes, .actor .readRoom, .actor .readPermits,
    .actor .tryAcquire, .actor (.tryReserve false), .actor .tryAcquire,
    .actor (.nextDescriptors (.ok [⟨0, "a", []⟩])), .actor .send, .actor .send,
    .fetch 0 .take, .fetch 0 (.answer (.ok ⟨[], 0, "a", []⟩)), .fetch 0 .send,
    .decode 0 .take, .decode 0 (.decode (sizedDecoder 1)), .decode 0 .send,
    .writer 0 .take, .writer 0 (.write (.ok ⟨1, 1⟩)), .writer 0 .report, .actor .receive]

theorem no_ack_before_commit_one_batch : ∃ (s : State SizedRecords) (newer older : List Event),
    (machine SizedRecords narrowConfig).Reachable s ∧
      s.shared.history = newer ++ .ackThrough 0 :: older ∧ CommitSeen older (0, 0) := by
  have acked : ((machine SizedRecords narrowConfig).run commitRun).map (fun s =>
      decide (Event.ackThrough 0 ∈ s.shared.history) &&
        decide (Event.registered 0 ∈ s.shared.history)) = some true := by
    decide
  obtain ⟨s, ran, values⟩ := Option.map_eq_some_iff.mp acked
  simp only [Bool.and_eq_true, decide_eq_true_iff] at values
  have reachable := (machine SizedRecords narrowConfig).run_reachable _ s ran
  obtain ⟨newer, older, split⟩ := List.append_of_mem values.1
  refine ⟨s, newer, older, reachable, split, ?_⟩
  exact (no_ack_before_commit narrowConfig s reachable).1 rfl newer older _ 0 split (Or.inl rfl) 0
    values.2 (Nat.le_refl 0)

end OpendataIngest.Runtime.Pipeline
