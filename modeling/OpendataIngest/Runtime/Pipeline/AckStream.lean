import OpendataIngest.Runtime.Pipeline.AckSafety

/-!
# The ack stream is exact and monotone

The values passed to `ack_through` are the frontiers the coordinator reaches above the
baseline, each once and in order.  Successful flushes make a part of them durable, and a
failed flush leaves the source as it found it.
-/

set_option autoImplicit false

namespace OpendataIngest.Runtime

namespace BufferSource

/-- `flush_acks` as a whole, on the consumer's answer to the call it makes. -/
def flushAcks (b : BufferSource) (answer : Except BoxError Unit) :
    BufferSource × RuntimeResult Unit :=
  match b.flushCall with
  | (taken, some sequence) => taken.flushReturn sequence answer
  | (taken, none) => (taken, .ok ())

theorem flushCall_injective {b other : BufferSource} (same : b.flushCall = other.flushCall) :
    b = other := by
  obtain ⟨id, manifestPath, lastAcked, pending⟩ := b
  obtain ⟨id', manifestPath', lastAcked', pending'⟩ := other
  simp only [flushCall, Prod.mk.injEq, BufferSource.mk.injEq] at same ⊢
  exact ⟨same.1.1, same.1.2.1, same.1.2.2.1, same.2⟩

/-- A failed flush leaves the source as it was. -/
theorem flushAcks_error {b : BufferSource} {answer : Except BoxError Unit} {e : RuntimeError}
    (failed : (b.flushAcks answer).2 = .error e) : (b.flushAcks answer).1 = b := by
  obtain ⟨id, manifestPath, lastAcked, pending⟩ := b
  cases pending with
  | none => cases failed
  | some sequence =>
      cases answer with
      | ok _ => cases failed
      | error _ => rfl

end BufferSource

namespace Pipeline

open MachineInt Pool AckCoordinator

variable {R : Type}

/-- A step makes at most one ack. -/
theorem acks_step [TypedRecords R] {cfg : Config} {s s' : State R} {action : Action R}
    (accounts : Accounts cfg s) (taken : step cfg s action = some s') :
    acks s'.shared.history = acks s.shared.history ∨
      ∃ f, acks s'.shared.history = acks s.shared.history ++ [f] := by
  cases step_cases accounts taken with
  | other sameActor events history fromSink =>
      left
      rw [history, (ackFree_of_fromSink fromSink).acks_append]
  | actor shape =>
      generalize s'.actor = a', s'.shared = sh' at shape ⊢
      cases shape with
      | quiet same =>
          left
          rw [same.history]
      | admits gates descriptors =>
          left
          rw [admission_history, List.append_cons, (ackFree_registered _ _).acks_append]
      | receives permit report rest sh₁ select busy queue popped =>
          have sameHistory : sh₁.history = s.shared.history := by
            rw [popped, cancelAdmission_eq]
          rw [← sameHistory]
          have shape := receiveCommitted_cases cfg s.actor sh₁ report
          generalize receiveCommitted cfg s.actor sh₁ report = moved at shape ⊢
          obtain ⟨a', sh'⟩ := moved
          cases shape with
          | rejected c error =>
              exact Or.inl (acks_append_of_none [.completionReceived _ _] rfl _)
          | marked c marks acked =>
              cases acked with
              | silent =>
                  left
                  exact acks_append_of_none
                    [.markedCommitted _ _, .completionReceived _ _] rfl _
              | deferred frontier =>
                  right
                  exact ⟨frontier, acks_append
                    [.ackThrough frontier, .markedCommitted _ _, .completionReceived _ _] _⟩
              | flushes frontier =>
                  right
                  exact ⟨frontier, acks_append [.consumerAckCalled frontier,
                    .ackThrough frontier, .markedCommitted _ _, .completionReceived _ _] _⟩
      | flushed sequence =>
          exact Or.inl (acks_append_of_none [.consumerAckReturned sequence _] rfl _)
      | flushFailed sequence error =>
          exact Or.inl (acks_append_of_none [.consumerAckReturned sequence _] rfl _)
      | flushedLast sequence =>
          exact Or.inl (acks_append_of_none [.consumerAckReturned sequence _] rfl _)
      | finishes permit sequence =>
          rw [cancelAdmission_eq]
          exact Or.inl (acks_append_of_none [.consumerAckCalled sequence] rfl _)
      | leaves permit =>
          left
          rw [cancelAdmission_eq]
          rfl

/-- When a flush fails, the source is the one `flush_acks` was called on. -/
theorem flushFailed_restores [TypedRecords R] {cfg : Config} {s s' : State R} {e : BoxError}
    (acked : AckBooks cfg s.actor s.shared.history)
    (taken : step cfg s (.actor (.flushed (.error e))) = some s') :
    ∃ sequence, outstanding s.actor = some sequence ∧
      s'.actor.source.flushCall = (s.actor.source, some sequence) := by
  obtain ⟨⟨a', sh'⟩, moved, rfl⟩ := Option.map_eq_some_iff.mp taken
  have restored : ∀ sequence, s.actor.source.pendingDurableAck = none →
      ({ s.actor.source with pendingDurableAck := some sequence } : BufferSource).flushCall =
        (s.actor.source, some sequence) := by
    intro sequence settled
    simp only [BufferSource.flushCall, Prod.mk.injEq, and_true]
    rw [← settled]
  cases actorStep_of_stepActor moved with
  | flushFails sequence _ at_flushing =>
      rcases at_flushing with ⟨frontier, flushing⟩ | flushing
      · refine ⟨sequence, by rw [outstanding, flushing], restored sequence ?_⟩
        exact acked.calling (by rw [flushing]; rfl)
      · refine ⟨sequence, by rw [outstanding, flushing], restored sequence ?_⟩
        exact acked.calling (by rw [flushing]; rfl)

theorem durable_le_lastAcked {cfg : Config} {a : Actor} {history : List Event}
    (acked : AckBooks cfg a history) {f : Nat} (durable : f ∈ durableAcks history) :
    ∃ top, a.source.lastAcked = some top ∧ f ≤ top := by
  have member := acked.durable_sublist.subset durable
  have last := List.getLast?_eq_some_getLast (List.ne_nil_of_mem member)
  obtain ⟨earlier, shape⟩ := List.getLast?_eq_some_iff.mp last
  refine ⟨(acks history).getLast (List.ne_nil_of_mem member), ?_, ?_⟩
  · rw [acked.lastAcked, acked.sent, last]
    rfl
  · have increasing := acked.increasing
    rw [shape] at member increasing
    rcases List.mem_append.mp member with early | isLast
    · exact Nat.le_of_lt ((List.pairwise_append.mp increasing).2.2 f early _
        (List.mem_singleton_self _))
    · exact Nat.le_of_eq (List.mem_singleton.mp isLast)

/-- The acks of a live run increase strictly, are above the baseline, and are the frontiers
the coordinator reaches; no advance is missed.  The durable acks are some of them.  A failed
flush leaves the source as it was, and a durable ack never exceeds the one in memory. -/
theorem ack_stream_exact [TypedRecords R] (cfg : Config) (live : cfg.dryRun = false)
    (s : State R) (reachable : (machine R cfg).Reachable s) :
    (acks s.shared.history).Pairwise (· < ·) ∧
    (∀ f ∈ acks s.shared.history, ∀ b, cfg.baseline = some b → b < f) ∧
    (∀ action s', step cfg s action = some s' →
      acks s'.shared.history = acks s.shared.history ∨
      ∃ f, acks s'.shared.history = acks s.shared.history ++ [f] ∧
        s'.actor.coordinator.frontier = some f) ∧
    (∀ f, s.actor.coordinator.frontier = some f → (∀ b, cfg.baseline = some b → b < f) →
      (acks s.shared.history).getLast? = some f ∧ s.actor.lastAckSent = some f) ∧
    (durableAcks s.shared.history).Sublist (acks s.shared.history) ∧
    (durableAcks s.shared.history).Pairwise (· < ·) ∧
    (∀ (b : BufferSource) answer e, (b.flushAcks answer).2 = .error e →
      (b.flushAcks answer).1 = b) ∧
    (∀ e s', step cfg s (.actor (.flushed (.error e))) = some s' →
      ∃ f, outstanding s.actor = some f ∧ s'.actor.source.flushCall = (s.actor.source, some f) ∧
        ∀ found : BufferSource, found.flushCall = (s.actor.source, some f) →
          s'.actor.source = found) ∧
    ∀ f ∈ durableAcks s.shared.history, ∃ top, s.actor.source.lastAcked = some top ∧ f ≤ top := by
  have acked := ackBooks_of_reachable live reachable
  refine ⟨acked.increasing, acked.aboveBaseline, ?_, ?_, acked.durable_sublist,
    acked.increasing.sublist acked.durable_sublist,
    fun b answer e failed => BufferSource.flushAcks_error failed, ?_,
    fun f durable => durable_le_lastAcked acked durable⟩
  · intro action s' taken
    have after := ackBooks_of_reachable live (.step action reachable taken)
    rcases acks_step (accounts_of_reachable reachable) taken with same | ⟨f, appended⟩
    · exact Or.inl same
    · exact Or.inr ⟨f, appended, after.exact f (by rw [appended, List.getLast?_concat])⟩
  · intro f isFrontier above
    have last := acked.reached f isFrontier above
    refine ⟨last, ?_⟩
    rw [acked.sent, last]
    rfl
  · intro e s' taken
    obtain ⟨f, owes, restored⟩ := flushFailed_restores acked taken
    refine ⟨f, owes, restored, fun found wasFound => ?_⟩
    exact BufferSource.flushCall_injective (restored.trans wasFound.symm)

/-- The first batch of a live run is acked, and the flush of that ack fails. -/
theorem ack_stream_exact_failed_flush : ∃ s s' : State SizedRecords,
    step narrowConfig s (.actor (.flushed (.error "fenced"))) = some s' ∧
      (acks s.shared.history).getLast? = some 0 ∧
      s'.actor.source.flushCall = (s.actor.source, some 0) := by
  have fails : ((machine SizedRecords narrowConfig).run
      (commitRun ++ [.actor (.flushed (.error "fenced"))])).map
        (fun s => s.actor.coordinator.frontier) = some (some 0) := by
    decide
  obtain ⟨s', ran, isFrontier'⟩ := Option.map_eq_some_iff.mp fails
  obtain ⟨s, before, taken⟩ := (machine SizedRecords narrowConfig).run_snoc commitRun
    (.actor (.flushed (.error "fenced"))) s' ran
  have reaches : ((machine SizedRecords narrowConfig).run commitRun).map
      (fun s => (s.actor.coordinator.frontier, outstanding s.actor)) = some (some 0, some 0) := by
    decide
  rw [before] at reaches
  simp only [Option.map_some, Option.some.injEq, Prod.mk.injEq] at reaches
  have reachable := (machine SizedRecords narrowConfig).run_reachable _ s before
  obtain ⟨_, _, _, reached, _, _, _, restores, _⟩ :=
    ack_stream_exact narrowConfig rfl s reachable
  obtain ⟨f, owes, restored, _⟩ := restores "fenced" s' taken
  rw [reaches.2] at owes
  cases owes
  exact ⟨s, s', taken, (reached 0 reaches.1 nofun).1, restored⟩

end Pipeline

end OpendataIngest.Runtime
