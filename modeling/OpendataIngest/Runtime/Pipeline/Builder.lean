import OpendataIngest.Runtime.AckCoordinators
import OpendataIngest.Runtime.Pipeline.AckSafety
import OpendataIngest.Runtime.Pipeline.MemoryBound

/-!
# What the builder lets through

`RuntimeBuilder::build`, and why it refuses an estimate above the byte capacity: such a
run never gets past its first reservation.  The overrides stand in the order in which the
hash map yields them.
-/

set_option autoImplicit false

namespace OpendataIngest.Runtime.Pipeline

open MachineInt Pool

variable {R : Type}

/-! ## Building -/

/-- What `BufferSource::new` is given. -/
structure SourceParts where
  id : SourceId
  manifestPath : String
  lastAckedSequence : Option U64

/-- The sink is known by its id. -/
structure RuntimeBuilder (R : Type) where
  source : Option SourceParts
  decoder : Option (Decoder R)
  sink : Option SinkId
  options : RuntimeOptions
  testFetchKillswitch : Bool

/-- A `Runtime` before its run; `budget` is the capacity of its byte budget. -/
structure BuiltRuntime (R : Type) where
  config : Config
  decoder : Decoder R
  coordinators : AckCoordinators
  budget : Nat

def required {A : Type} (part : Option A) (message : String) : RuntimeResult A :=
  match part with
  | some value => .ok value
  | none => .error (.config message)

def validateOverrides : List (SourceId × SourceBackpressureOptions) → RuntimeResult Unit
  | [] => .ok ()
  | (source, bp) :: rest => do
      validateBackpressure source bp
      validateOverrides rest

def RuntimeBuilder.build (b : RuntimeBuilder R) : RuntimeResult (BuiltRuntime R) := do
  let source ← required b.source "no source configured"
  let decoder ← required b.decoder "no decoder configured"
  let sink ← required b.sink "no sink configured"
  let primary := b.options.backpressureFor source.id
  validateBackpressure source.id primary
  validateOverrides b.options.sourceOverrides
  let registered := AckCoordinators.new.registerSource source.id source.lastAckedSequence
  registered.2
  .ok {
    config := ⟨source.id, sink, source.manifestPath, source.lastAckedSequence, b.options,
      b.testFetchKillswitch⟩
    decoder := decoder
    coordinators := registered.1
    budget := primary.maxInflightBytes.val }

/-- The configuration that a builder with all its parts describes. -/
def RuntimeBuilder.config (b : RuntimeBuilder R) (source : SourceParts) (sink : SinkId) : Config :=
  ⟨source.id, sink, source.manifestPath, source.lastAckedSequence, b.options,
    b.testFetchKillswitch⟩

theorem validateOverrides_ok (overrides : List (SourceId × SourceBackpressureOptions)) :
    validateOverrides overrides = .ok () ↔ ∀ entry ∈ overrides, Sized entry.2 := by
  induction overrides with
  | nil => simp [validateOverrides]
  | cons entry rest ih =>
      rw [List.forall_mem_cons, ← validateBackpressure_ok entry.1, ← ih, validateOverrides]
      cases validateBackpressure entry.1 entry.2 with
      | error e => simp [bind, Except.bind]
      | ok value => simp [bind, Except.bind]

/-- The checks of a builder that has its three parts. -/
theorem build_of_parts {b : RuntimeBuilder R} {source : SourceParts} {decoder : Decoder R}
    {sink : SinkId} (hasSource : b.source = some source) (hasDecoder : b.decoder = some decoder)
    (hasSink : b.sink = some sink) :
    b.build = (validateBackpressure source.id (b.config source sink).bp).bind fun _ =>
      (validateOverrides b.options.sourceOverrides).bind fun _ => .ok {
        config := b.config source sink
        decoder := decoder
        coordinators := (AckCoordinators.new.registerSource source.id
          source.lastAckedSequence).1
        budget := (b.config source sink).capacity } := by
  simp only [RuntimeBuilder.build, hasSource, hasDecoder, hasSink, required, bind, Except.bind]
  rfl

/-! ## A starved run -/

def FetchPoint.idle : FetchPoint → Bool
  | .recv => true
  | .exited _ => true
  | _ => false

def ActorPoint.isSelect : ActorPoint → Bool
  | .select _ => true
  | _ => false

def DecodePoint.idle : DecodePoint R → Bool
  | .recv => true
  | .exited _ => true
  | _ => false

def WriterPoint.idle : WriterPoint R → Bool
  | .recv => true
  | .exited _ => true
  | _ => false

/-- Nothing was ever admitted: the actor waits in its `select!` or has left cleanly, and no
worker has anything to do. -/
structure Starved (s : State R) : Prop where
  waits : (∃ permit, s.actor.point = .select permit) ∨ s.actor.point = .exited (.ok ())
  drained : s.actor.inFlight = 0
  unacked : s.actor.source.pendingDurableAck = none
  descriptors : s.shared.descriptors = []
  fetched : s.shared.fetched = []
  sinkCommits : s.shared.sinkCommits = []
  completions : s.shared.completions = []
  unaborted : s.shared.hardAbort = false
  silent : s.shared.history = []
  fetchers : ∀ p ∈ s.fetchers, p.idle = true
  decoders : ∀ p ∈ s.decoders, p.idle = true
  writers : ∀ p ∈ s.writers, p.idle = true

theorem starved_start (cfg : Config) : Starved (State.start cfg : State R) where
  waits := Or.inl ⟨false, rfl⟩
  drained := rfl
  unacked := rfl
  descriptors := rfl
  fetched := rfl
  sinkCommits := rfl
  completions := rfl
  unaborted := rfl
  silent := rfl
  fetchers p member := by rw [List.eq_of_mem_replicate member]; rfl
  decoders p member := by rw [List.eq_of_mem_replicate member]; rfl
  writers p member := by rw [List.eq_of_mem_replicate member]; rfl

section Idle

variable {cfg : Config} {sh sh' : Shared R}

/-- A worker without work can only end. -/
theorem stepFetch_idle {killed decodersGone : Bool} {p p' : FetchPoint} {action : FetchAction}
    (idle : p.idle = true) (empty : sh.descriptors = [])
    (taken : stepFetch cfg killed decodersGone sh p action = some (p', sh')) :
    p'.idle = true ∧ (sh' = sh ∨ sh' = sh.fail) := by
  cases fetchStep_of_stepFetch taken with
  | takes unit rest queue =>
      rw [empty] at queue
      cases queue
  | leaves | aborts => exact ⟨rfl, Or.inl rfl⟩
  | isKilled => exact ⟨rfl, Or.inr rfl⟩
  | panics p message alive =>
      cases p with
      | recv => exact ⟨rfl, Or.inr rfl⟩
      | exited result => cases alive
      | _ => cases idle
  | _ => cases idle

theorem stepDecode_idle [TypedRecords R] {fetchersGone writersGone : Bool} {p p' : DecodePoint R}
    {action : DecodeAction R} (idle : p.idle = true) (empty : sh.fetched = [])
    (taken : stepDecode cfg fetchersGone writersGone sh p action = some (p', sh')) :
    p'.idle = true ∧ (sh' = sh ∨ sh' = sh.fail) := by
  cases decodeStep_of_stepDecode taken with
  | takes unit rest queue =>
      rw [empty] at queue
      cases queue
  | leaves | aborts => exact ⟨rfl, Or.inl rfl⟩
  | panics p message alive =>
      cases p with
      | recv => exact ⟨rfl, Or.inr rfl⟩
      | exited result => cases alive
      | _ => cases idle
  | _ => cases idle

theorem stepWriter_idle {decodersGone : Bool} {p p' : WriterPoint R} {action : WriterAction}
    (idle : p.idle = true) (empty : sh.sinkCommits = [])
    (taken : stepWriter cfg decodersGone sh p action = some (p', sh')) :
    p'.idle = true ∧ (sh' = sh ∨ sh' = sh.fail) := by
  cases writerStep_of_stepWriter taken with
  | takes unit rest queue =>
      rw [empty] at queue
      cases queue
  | leaves | aborts => exact ⟨rfl, Or.inl rfl⟩
  | retries p action attempt unit error event answered left
  | givesUp p action attempt unit error event answered spent =>
      cases answered with
      | write => cases idle
      | check => cases idle
  | abandons p unit message inRetry =>
      cases inRetry with
      | writing => cases idle
      | checking => cases idle
      | backingOff => cases idle
  | panics p message alive =>
      cases p with
      | recv => exact ⟨rfl, Or.inr rfl⟩
      | exited result => cases alive
      | _ => cases idle
  | _ => cases idle

/-- The estimate alone fills the budget. -/
theorem not_fits (tooLarge : cfg.capacity < cfg.estimate) (k : Counters Stage) :
    ¬ (cfg.estimate = 0 ∨ k.fitsSaturating cfg.capacity cfg.estimate = true) := by
  have small : cfg.estimate ≤ u64Max := Nat.le_of_lt_succ cfg.bp.estimatedMaxBatchBytes.isLt
  rintro (empty | fits)
  · omega
  · have within : saturatingAdd k.inFlight cfg.estimate ≤ cfg.capacity := of_decide_eq_true fits
    unfold saturatingAdd at within
    omega

variable {s s' : State R}

theorem Starved.set {s s' : State R} (starved : Starved s) (sameActor : s'.actor = s.actor)
    (shared : s'.shared = s.shared ∨ s'.shared = s.shared.fail)
    (fetchers : ∀ p ∈ s'.fetchers, p.idle = true) (decoders : ∀ p ∈ s'.decoders, p.idle = true)
    (writers : ∀ p ∈ s'.writers, p.idle = true) : Starved s' := by
  obtain ⟨waits, drained, unacked, descriptors, fetched, sinkCommits, completions, unaborted,
    silent, _, _, _⟩ := starved
  rcases shared with same | failed
  · exact ⟨sameActor ▸ waits, sameActor ▸ drained, sameActor ▸ unacked, same ▸ descriptors,
      same ▸ fetched, same ▸ sinkCommits, same ▸ completions, same ▸ unaborted, same ▸ silent,
      fetchers, decoders, writers⟩
  · exact ⟨sameActor ▸ waits, sameActor ▸ drained, sameActor ▸ unacked, failed ▸ descriptors,
      failed ▸ fetched, failed ▸ sinkCommits, failed ▸ completions, failed ▸ unaborted,
      failed ▸ silent, fetchers, decoders, writers⟩

theorem idle_set {A : Type} {idle : A → Bool} {pool : List A} {i : Nat} {p' : A}
    (all : ∀ p ∈ pool, idle p = true) (moved : idle p' = true) :
    ∀ p ∈ pool.set i p', idle p = true := by
  intro p member
  rcases List.mem_or_eq_of_mem_set member with old | rfl
  · exact all p old
  · exact moved

theorem Starved.actor (tooLarge : cfg.capacity < cfg.estimate) (starved : Starved s) {a' : Actor}
    {sh' : Shared R} {action : ActorAction} {shutdown fetchersGone decodersGone writersGone : Bool}
    (taken : stepActor cfg shutdown fetchersGone decodersGone writersGone s.actor s.shared action =
      some (a', sh')) : Starved { s with actor := a', shared := sh' } := by
  obtain ⟨waits, drained, unacked, descriptors, fetched, sinkCommits, completions, unaborted,
    silent, fetchers, decoders, writers⟩ := starved
  -- only the points `select` and a clean exit are left
  have away : ∀ point : ActorPoint, s.actor.point = point → point.isSelect = false →
      point.hasExited = false → False := by
    intro point at_point notSelect running
    rcases waits with ⟨permit, select⟩ | exited
    · rw [← at_point, select] at notSelect
      cases notSelect
    · rw [← at_point, exited] at running
      cases running
  cases actorStep_of_stepActor taken with
  | aborts permit error at_select aborting =>
      rw [unaborted] at aborting
      cases aborting
  | closes permit at_select =>
      rw [cancelAdmission_eq]
      exact ⟨Or.inl ⟨false, rfl⟩, drained, unacked, descriptors, fetched, sinkCommits, completions,
        unaborted, silent, fetchers, decoders, writers⟩
  | receives permit report rest at_select queue =>
      rw [completions] at queue
      cases queue
  | receivesFatal permit error rest at_select queue =>
      rw [completions] at queue
      cases queue
  | workersGone permit error at_select queue busy => omega
  | acquires at_select =>
      exact ⟨Or.inl ⟨true, rfl⟩, drained, unacked, descriptors, fetched, sinkCommits, completions,
        unaborted, silent, fetchers, decoders, writers⟩
  | claims gate k at_select isOpen fits => exact absurd fits (not_fits tooLarge _)
  | finishes permit sequence at_select closed drained live pending =>
      rw [unacked] at pending
      cases pending
  | leaves permit at_select =>
      rw [cancelAdmission_eq]
      exact ⟨Or.inr rfl, drained, unacked, descriptors, fetched, sinkCommits, rfl, unaborted,
        silent, fetchers, decoders, writers⟩
  | flushFails sequence error at_flushing =>
      rcases at_flushing with ⟨frontier, flushing⟩ | flushing
      · exact (away _ flushing rfl rfl).elim
      · exact (away _ flushing rfl rfl).elim
  | measures gate roomUnits at_point | counts gate roomUnits at_point | enough gates at_point
  | takesPermit gates extras at_point | noPermit gates extras at_point
  | takesBytes raced gates extras extra k at_point | noBytes raced gates extras at_point
  | pollFails answer gates error at_point | admits answer gates descriptors at_point
  | wakes at_point | sentAll at_point | sendFails unit rest error at_point
  | sends unit rest at_point | flushed sequence frontier at_point
  | flushedLast sequence at_point => exact (away _ at_point rfl rfl).elim

theorem Starved.step [TypedRecords R] (tooLarge : cfg.capacity < cfg.estimate)
    (starved : Starved s) {action : Action R} (taken : Pipeline.step cfg s action = some s') :
    Starved s' := by
  cases transition_of_step taken with
  | actor moved => exact starved.actor tooLarge moved
  | fetch present moved =>
      obtain ⟨idle, shared⟩ := stepFetch_idle (starved.fetchers _ (List.mem_of_getElem? present))
        starved.descriptors moved
      exact starved.set rfl shared (idle_set starved.fetchers idle) starved.decoders
        starved.writers
  | decode present moved =>
      obtain ⟨idle, shared⟩ := stepDecode_idle (starved.decoders _ (List.mem_of_getElem? present))
        starved.fetched moved
      exact starved.set rfl shared starved.fetchers (idle_set starved.decoders idle)
        starved.writers
  | writer present moved =>
      obtain ⟨idle, shared⟩ := stepWriter_idle (starved.writers _ (List.mem_of_getElem? present))
        starved.sinkCommits moved
      exact starved.set rfl shared starved.fetchers starved.decoders
        (idle_set starved.writers idle)
  | shutsDown | kills | joins =>
      exact starved.set rfl (Or.inl rfl) starved.fetchers starved.decoders starved.writers
  | hardAborts failed =>
      rcases starved.waits with ⟨permit, select⟩ | exited
      · rw [select] at failed
        cases failed
      · rw [exited] at failed
        cases failed
  | discardsDescriptor queue =>
      rw [starved.descriptors] at queue
      cases queue
  | discardsFetched queue =>
      rw [starved.fetched] at queue
      cases queue
  | discardsSinkCommit queue =>
      rw [starved.sinkCommits] at queue
      cases queue

theorem starved_of_reachable [TypedRecords R] (tooLarge : cfg.capacity < cfg.estimate)
    (reachable : (machine R cfg).Reachable s) : Starved s :=
  reachable.invariant (P := Starved) (starved_start cfg) fun _ _ _ _ starved taken =>
    starved.step tooLarge taken

end Idle

/-! ## A run that is fed -/

/-- The actor has a gate and is about to ask the buffer. -/
inductive Gated : ActorPoint → Prop where
  | extending (gates : List Reservation) (extras : Nat) (nonempty : gates ≠ []) :
      Gated (.extending gates extras)
  | extendingBytes (gates : List Reservation) (extras : Nat) (nonempty : gates ≠ []) :
      Gated (.extendingBytes gates extras)
  | polling (gates : List Reservation) (nonempty : gates ≠ []) : Gated (.polling gates)

def ActorPoint.extensions : ActorPoint → Nat
  | .extending _ extras => 2 * extras + 1
  | .extendingBytes _ extras => 2 * extras + 2
  | _ => 0

def HasHandedOut (sequence : Nat) (s : State R) : Prop :=
  ∃ sequences, .handedOut sequences ∈ s.shared.history ∧ sequence ∈ sequences

/-- Nothing is under way, and the actor may admit. -/
structure AtRest (s : State R) : Prop where
  select : s.actor.point = .select false
  isOpen : s.actor.admissionOpen = true
  unheld : s.holdings = []

theorem atRest_start (cfg : Config) : AtRest (State.start cfg : State R) :=
  ⟨rfl, rfl, start_holdings cfg⟩

section Fed

variable {cfg : Config} {s : State R} [TypedRecords R]

theorem actor_taken {a' : Actor} {sh' : Shared R} {action : ActorAction}
    (moved : ActorStep cfg s.shutdown s.fetchersGone s.decodersGone s.writersGone s.actor s.shared
      action a' sh') :
    (machine R cfg).step s (.actor action) = some { s with actor := a', shared := sh' } :=
  Transition.taken (.actor moved.taken)

/-- Whatever the extensions find, the actor asks the buffer. -/
theorem Gated.asks (gated : Gated s.actor.point) : (machine R cfg).CanReach
    (fun s => ∃ gates, gates ≠ [] ∧ s.actor.point = .polling gates) s := by
  refine Machine.canReach_of_rank (P := fun s => Gated s.actor.point)
    (fun s => s.actor.point.extensions) ?_ s gated
  intro s gated
  cases at_point : s.actor.point with
  | polling gates =>
      rw [at_point] at gated
      cases gated with
      | polling _ nonempty => exact Or.inl ⟨gates, nonempty, rfl⟩
  | extending gates extras =>
      right
      rw [at_point] at gated
      cases gated with
      | extending _ _ nonempty =>
          cases extras with
          | zero =>
              exact ⟨_, _, actor_taken (.enough gates at_point), .polling gates nonempty,
                Nat.succ_pos _⟩
          | succ extras =>
              by_cases available : 0 < s.shared.freePermits
              · refine ⟨_, _, actor_taken (.takesPermit gates extras at_point available),
                  .extendingBytes gates extras nonempty, ?_⟩
                simp only [ActorPoint.extensions]
                omega
              · exact ⟨_, _, actor_taken (.noPermit gates extras at_point available),
                  .polling gates nonempty, Nat.succ_pos _⟩
  | extendingBytes gates extras =>
      right
      rw [at_point] at gated
      cases gated with
      | extendingBytes _ _ nonempty =>
          cases reserved : s.shared.counters.tryReserve cfg.capacity cfg.estimate with
          | some claimed =>
              obtain ⟨extra, k⟩ := claimed
              exact ⟨_, _, actor_taken (.takesBytes false gates extras extra k at_point (by simp)
                reserved), .extending _ extras (by simp), Nat.lt_succ_self _⟩
          | none =>
              exact ⟨_, _, actor_taken (.noBytes false gates extras at_point (Or.inr reserved)),
                .polling gates nonempty, Nat.succ_pos _⟩
  | _ =>
      rw [at_point] at gated
      cases gated

/-- An actor that asks the buffer can be given a descriptor. -/
theorem hands_out (descriptor : BatchDescriptor) {gates : List Reservation} (nonempty : gates ≠ [])
    (polling : s.actor.point = .polling gates) :
    (machine R cfg).CanReach (HasHandedOut descriptor.sequence.val) s := by
  have fits : 1 ≤ gates.length := List.length_pos_iff.mpr nonempty
  refine .cons (actor_taken (.admits (.ok [descriptor]) gates _ polling rfl fits)) ⟨[], _, rfl, ?_⟩
  refine ⟨[descriptor.sequence.val], ?_, List.mem_singleton.mpr rfl⟩
  dsimp only
  rw [admission_history]
  exact List.mem_append_right _ List.mem_cons_self

omit [TypedRecords R] in
/-- At rest there is a permit, and the budget is empty. -/
theorem AtRest.room (rest : AtRest s) (accounts : Accounts cfg s) :
    0 < s.shared.freePermits ∧ s.shared.counters.inFlight = 0 := by
  have permits := accounts.permits
  have bytes := accounts.bytes
  have width := accounts.width
  rw [rest.unheld] at permits bytes
  have depth : 0 < cfg.depth := Nat.lt_of_lt_of_le Nat.one_pos (Nat.le_max_right _ 1)
  have none : total Holding.permits [] = 0 := rfl
  have noBytes : total Holding.held [] = 0 := rfl
  omega

theorem AtRest.feeds (rest : AtRest s) (reachable : (machine R cfg).Reachable s)
    (fits : cfg.estimate ≤ cfg.capacity) (descriptor : BatchDescriptor) :
    (machine R cfg).CanReach (HasHandedOut descriptor.sequence.val) s := by
  obtain ⟨available, empty⟩ := rest.room (accounts_of_reachable reachable)
  refine .cons (actor_taken (.acquires rest.select rest.isOpen available)) ?_
  have within : cfg.estimate = 0 ∨
      s.shared.counters.fitsSaturating cfg.capacity cfg.estimate = true := by
    right
    simp only [Counters.fitsSaturating, saturatingAdd, empty, decide_eq_true_eq]
    omega
  refine .cons (actor_taken (.claims _ _ rfl rest.isOpen within rfl)) ?_
  refine .cons (actor_taken (.measures _ _ rfl rfl)) ?_
  refine .cons (actor_taken (.counts _ _ rfl)) ?_
  refine (Gated.asks (.extending _ _ (by simp))).trans fun s asking => ?_
  obtain ⟨gates, nonempty, polling⟩ := asking
  exact hands_out descriptor nonempty polling

end Fed

/-! ## Results -/

/-- The text of the refusal. -/
def wouldDeadlock (cfg : Config) : String :=
  s!"source {cfg.source}: estimated_max_batch_bytes " ++
    s!"({cfg.estimate}) > max_inflight_bytes " ++
    s!"({cfg.capacity}); admission would deadlock on " ++
    "SourceByteBudget::reserve. Raise max_inflight_bytes or lower " ++
    "estimated_max_batch_bytes so the pessimistic reservation fits."

theorem take_registered (source : SourceId) (baseline : Option U64) :
    ((AckCoordinators.new.registerSource source baseline).1.take source).2 =
      some (AckCoordinator.new source (baseline.map Fin.val)) := by
  have fresh : source ∉ AckCoordinators.new.coordinators := AList.notMem_empty source
  simp only [AckCoordinators.registerSource, if_neg fresh]
  exact AList.lookup_insert _

theorem build_ok {b : RuntimeBuilder R} {source : SourceParts} {decoder : Decoder R} {sink : SinkId}
    (hasSource : b.source = some source) (hasDecoder : b.decoder = some decoder)
    (hasSink : b.sink = some sink) {runtime : BuiltRuntime R} :
    b.build = .ok runtime ↔ (Sized (b.config source sink).bp ∧
      ∀ entry ∈ b.options.sourceOverrides, Sized entry.2) ∧ runtime = {
        config := b.config source sink
        decoder := decoder
        coordinators := (AckCoordinators.new.registerSource source.id
          source.lastAckedSequence).1
        budget := (b.config source sink).capacity } := by
  rw [build_of_parts hasSource hasDecoder hasSink, ← validateBackpressure_ok source.id,
    ← validateOverrides_ok]
  cases validateBackpressure source.id (b.config source sink).bp with
  | error e => simp [Except.bind]
  | ok value =>
      cases validateOverrides b.options.sourceOverrides with
      | error e => simp [Except.bind]
      | ok value' => simp [Except.bind, eq_comm]

theorem build_refused {b : RuntimeBuilder R} {source : SourceParts} {decoder : Decoder R}
    {sink : SinkId} (hasSource : b.source = some source) (hasDecoder : b.decoder = some decoder)
    (hasSink : b.sink = some sink)
    (tooLarge : (b.config source sink).capacity < (b.config source sink).estimate) :
    b.build = .error (.config (wouldDeadlock (b.config source sink))) := by
  have refused : validateBackpressure source.id (b.config source sink).bp =
      .error (.config (wouldDeadlock (b.config source sink))) := if_pos tooLarge
  rw [build_of_parts hasSource hasDecoder hasSink, refused]
  rfl

/-- A run can admit whenever nothing is under way, just if the estimate fits. -/
theorem feeds_iff [TypedRecords R] (cfg : Config) :
    (∀ s, (machine R cfg).Reachable s → AtRest s → ∀ descriptor : BatchDescriptor,
      (machine R cfg).CanReach (HasHandedOut descriptor.sequence.val) s) ↔
    cfg.estimate ≤ cfg.capacity := by
  constructor
  · intro feeds
    by_contra tooLarge
    obtain ⟨actions, s, ran, sequences, handed, _⟩ :=
      feeds _ .start (atRest_start cfg) ⟨0, "", []⟩
    have starved := starved_of_reachable (Nat.lt_of_not_le tooLarge)
      ((machine R cfg).run_reachable actions s ran)
    rw [starved.silent] at handed
    cases handed
  · intro fits s reachable rest descriptor
    exact rest.feeds reachable fits descriptor

/-- The builder refuses what could never admit a batch, and builds only what always can. -/
theorem build_refuses_starving_runtimes [TypedRecords R] (b : RuntimeBuilder R)
    {source : SourceParts} {decoder : Decoder R} {sink : SinkId}
    (hasSource : b.source = some source) (hasDecoder : b.decoder = some decoder)
    (hasSink : b.sink = some sink) :
    ((∃ runtime, b.build = .ok runtime) ↔ Sized (b.config source sink).bp ∧
      ∀ entry ∈ b.options.sourceOverrides, Sized entry.2) ∧
    (∀ runtime, b.build = .ok runtime → runtime.config = b.config source sink ∧
      runtime.budget = runtime.config.capacity ∧
      (runtime.coordinators.take runtime.config.source).2 =
        some (Actor.start runtime.config).coordinator ∧
      ∀ s, (machine R runtime.config).Reachable s → AtRest s → ∀ descriptor : BatchDescriptor,
        (machine R runtime.config).CanReach (HasHandedOut descriptor.sequence.val) s) ∧
    ((∃ s, (machine R (b.config source sink)).Reachable s ∧ AtRest s ∧
        ∃ descriptor : BatchDescriptor, ¬ (machine R (b.config source sink)).CanReach
          (HasHandedOut descriptor.sequence.val) s) →
      b.build = .error (.config (wouldDeadlock (b.config source sink))) ∧
      ∀ s, (machine R (b.config source sink)).Reachable s → Starved s) := by
  refine ⟨?_, ?_, ?_⟩
  · constructor
    · rintro ⟨runtime, built⟩
      exact ((build_ok hasSource hasDecoder hasSink).mp built).1
    · intro sized
      exact ⟨_, (build_ok hasSource hasDecoder hasSink).mpr ⟨sized, rfl⟩⟩
  · intro runtime built
    obtain ⟨⟨sized, _⟩, rfl⟩ := (build_ok hasSource hasDecoder hasSink).mp built
    exact ⟨rfl, rfl, take_registered _ _, (feeds_iff _).mpr sized.estimate_fits⟩
  · rintro ⟨s, reachable, rest, descriptor, stuck⟩
    have tooLarge : (b.config source sink).capacity < (b.config source sink).estimate := by
      by_contra fits
      exact stuck (rest.feeds reachable (Nat.le_of_not_lt fits) descriptor)
    exact ⟨build_refused hasSource hasDecoder hasSink tooLarge,
      fun s reachable => starved_of_reachable tooLarge reachable⟩

/-- A builder with the default options. -/
def defaultBuilder (decoder : Decoder R) : RuntimeBuilder R where
  source := some ⟨⟨"buffer"⟩, "manifest", none⟩
  decoder := some decoder
  sink := some ⟨"clickhouse_logs"⟩
  options := RuntimeOptions.default
  testFetchKillswitch := false

theorem build_refuses_starving_runtimes_default :
    ∃ runtime, (defaultBuilder (sizedDecoder 0)).build = .ok runtime ∧
      runtime.budget = 256 * 1024 * 1024 := by
  have results := build_refuses_starving_runtimes (defaultBuilder (sizedDecoder 0)) rfl rfl rfl
  obtain ⟨runtime, built⟩ := results.1.mpr ⟨⟨by decide, by decide, by decide, by decide⟩,
    by simp [defaultBuilder, RuntimeOptions.default]⟩
  obtain ⟨isConfig, budget, _⟩ := results.2.1 runtime built
  rw [isConfig] at budget
  exact ⟨runtime, built, budget⟩

end OpendataIngest.Runtime.Pipeline
