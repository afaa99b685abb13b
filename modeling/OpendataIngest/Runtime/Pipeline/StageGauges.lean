import OpendataIngest.Runtime.ByteBudgetStages
import OpendataIngest.Runtime.Pipeline.MemoryBound

/-!
# The gauges of the stages

`runtime_stage_inflight_bytes{stage=…}` shows the counter of each stage.  A reservation is
attached to a stage when a worker of the stage receives its unit, and stays so in the queue
behind that worker.  In every reachable state each counter is the number of bytes held by the
units that are in its stage.

The states are those between whole operations: `attach_stage`, `reconcile` and the drop of a
reservation change two atomics each and are taken whole here, and so are the four loads of
`emit_stage_inflight_gauges`.  Between the atomics of one operation the counters are behind by
its bytes.
-/

set_option autoImplicit false

namespace OpendataIngest.Runtime.Pipeline

open MachineInt Pool

variable {R : Type}

/-! ## The units of each stage -/

/-- The gates of the admission arm, and the units it has not yet sent. -/
def ActorPoint.reservations : ActorPoint → List Reservation
  | .measuring gate => [gate]
  | .counting gate _ => [gate]
  | .extending gates _ => gates
  | .extendingBytes gates _ => gates
  | .polling gates => gates
  | .sending rest => rest.map AdmittedDescriptor.reservation
  | _ => []

def FetchPoint.reservations : FetchPoint → List Reservation
  | .fetching unit => [unit.reservation]
  | .sending unit => [unit.reservation]
  | .reportingFatal _ reservation => [reservation]
  | _ => []

def DecodePoint.reservations : DecodePoint R → List Reservation
  | .decoding unit => [unit.reservation]
  | .sending unit => [unit.reservation]
  | .reportingDryRun _ reservation => [reservation]
  | .releasingBytes reservation => [reservation]
  | .reportingFatal _ reservation => [reservation]
  | _ => []

def WriterPoint.reservations : WriterPoint R → List Reservation
  | .writing _ unit => [unit.reservation]
  | .checking _ unit _ => [unit.reservation]
  | .backingOff _ unit => [unit.reservation]
  | .reportingCommitted _ reservation => [reservation]
  | .releasingBytes reservation => [reservation]
  | .reportingFatal _ reservation => [reservation]
  | _ => []

def State.reservationsAt (s : State R) : Stage → List Reservation
  | .source =>
      s.actor.point.reservations ++ s.shared.descriptors.map AdmittedDescriptor.reservation
  | .fetch =>
      s.fetchers.flatMap FetchPoint.reservations ++ s.shared.fetched.map FetchedBatch.reservation
  | .decode =>
      s.decoders.flatMap DecodePoint.reservations ++
        s.shared.sinkCommits.map SinkCommitEnvelope.reservation
  | .sinkDispatch => s.writers.flatMap WriterPoint.reservations

/-- `emit_stage_inflight_gauges`: the values it sets, by the label of the stage. -/
def emitStageInflightGauges (k : Counters Stage) : List (String × Int64) :=
  [("source", Int64.ofNat (k.stage .source)), ("fetch", Int64.ofNat (k.stage .fetch)),
    ("decode", Int64.ofNat (k.stage .decode)),
    ("sink_dispatch", Int64.ofNat (k.stage .sinkDispatch))]

/-! ## What a step does to them -/

def Shared.reservations (sh : Shared R) : List Reservation :=
  sh.descriptors.map AdmittedDescriptor.reservation ++
    sh.fetched.map FetchedBatch.reservation ++
    sh.sinkCommits.map SinkCommitEnvelope.reservation

structure AtStage (stage : Stage) (r : Reservation) : Prop where
  attached : r.stage = some stage
  small : r.held ≤ u64Max

/-- The queue behind a worker belongs to the worker's stage. -/
structure Shared.Placed (sh : Shared R) : Prop where
  descriptors : ∀ unit ∈ sh.descriptors, AtStage .source unit.reservation
  fetched : ∀ unit ∈ sh.fetched, AtStage .fetch unit.reservation
  sinkCommits : ∀ unit ∈ sh.sinkCommits, AtStage .decode unit.reservation

/-- A step of a component of `stage` moves every counter with the reservations that move. -/
structure StageStep (stage : Stage) (sh sh' : Shared R) (before after : List Reservation) :
    Prop where
  counters : ∀ t, (sh'.counters.stage t +
      total (ByteReservation.heldAt t) (sh.reservations ++ before)) % 2 ^ 64 =
    (sh.counters.stage t +
      total (ByteReservation.heldAt t) (sh'.reservations ++ after)) % 2 ^ 64
  valid : AtomicBudget.Counters.Valid sh.counters → AtomicBudget.Counters.Valid sh'.counters
  queues : sh'.Placed
  own : ∀ r ∈ after, AtStage stage r

section Steps

variable {stage : Stage} {sh sh' : Shared R} {before after : List Reservation}
  (queues : sh'.Placed) (own : ∀ r ∈ after, AtStage stage r)
include queues own

/-- The counters stay, and so does every reservation. -/
theorem StageStep.still (counters : sh'.counters = sh.counters)
    (exchange : Exchange (sh.reservations ++ before) (sh'.reservations ++ after) [] []) :
    StageStep stage sh sh' before after where
  counters t := by
    have same := exchange (ByteReservation.heldAt t)
    simp only [total_nil, Nat.add_zero] at same
    rw [counters, same]
  valid valid := by
    rw [counters]
    exact valid
  queues := queues
  own := own

theorem StageStep.attaches (r : Reservation) (small : r.held ≤ u64Max) (new : Stage)
    (counters : sh'.counters = (r.attachStage new sh.counters).2)
    (exchange : Exchange (sh.reservations ++ before) (sh'.reservations ++ after) [r]
      [(r.attachStage new sh.counters).1]) :
    StageStep stage sh sh' before after where
  counters t := by
    have same := exchange (ByteReservation.heldAt t)
    have moved := r.attachStage_stage sh.counters small new t
    simp only [total_cons, total_nil] at same
    rw [counters]
    omega
  valid valid := by
    rw [counters]
    exact r.attachStage_valid sh.counters valid new
  queues := queues
  own := own

theorem StageStep.reconciles (r : Reservation) (small : r.held ≤ u64Max) (actual : Nat)
    (counters : sh'.counters = (r.reconcile actual sh.counters).2)
    (exchange : Exchange (sh.reservations ++ before) (sh'.reservations ++ after) [r]
      [(r.reconcile actual sh.counters).1]) :
    StageStep stage sh sh' before after where
  counters t := by
    have same := exchange (ByteReservation.heldAt t)
    have moved := r.reconcile_stage sh.counters small actual t
    simp only [total_cons, total_nil] at same
    rw [counters]
    omega
  valid valid := by
    rw [counters]
    exact r.reconcile_valid sh.counters valid actual
  queues := queues
  own := own

theorem StageStep.releases (r : Reservation) (small : r.held ≤ u64Max)
    (counters : sh'.counters = r.release sh.counters)
    (exchange : Exchange (sh.reservations ++ before) (sh'.reservations ++ after) [r] []) :
    StageStep stage sh sh' before after where
  counters t := by
    have same := exchange (ByteReservation.heldAt t)
    have moved := r.release_stage sh.counters small t
    simp only [total_cons, total_nil] at same
    rw [counters]
    omega
  valid valid := by
    rw [counters]
    exact r.release_valid sh.counters valid
  queues := queues
  own := own

end Steps

/-- A fresh reservation gets its stage. -/
theorem StageStep.reserves {sh sh' : Shared R} {before after : List Reservation}
    (queues : sh'.Placed) (own : ∀ r ∈ before, AtStage .source r) (r : Reservation)
    (k : Counters Stage) (small : r.held ≤ u64Max)
    (fresh : r.stage = none ∧ k.stage = sh.counters.stage)
    (valid : AtomicBudget.Counters.Valid sh.counters → AtomicBudget.Counters.Valid k)
    (counters : sh'.counters = (r.attachStage .source k).2)
    (same : sh'.reservations = sh.reservations)
    (grown : after = before ++ [(r.attachStage .source k).1]) :
    StageStep .source sh sh' before after where
  counters t := by
    have moved := r.attachStage_stage k small .source t
    have nothing : r.heldAt t = 0 := by
      rw [ByteReservation.heldAt, fresh.1]
      rfl
    rw [fresh.2, nothing] at moved
    rw [counters, same, grown]
    simp only [total_append, total_cons, total_nil]
    omega
  valid isValid := by
    rw [counters]
    exact r.attachStage_valid k (valid isValid) .source
  queues := queues
  own other member := by
    rw [grown] at member
    rcases List.mem_append.mp member with old | new
    · exact own other old
    · rw [List.mem_singleton.mp new]
      exact ⟨rfl, small⟩

theorem releaseAll_stage (gates : List Reservation) (k : Counters Stage)
    (small : ∀ gate ∈ gates, gate.held ≤ u64Max) (t : Stage) :
    ((releaseAll gates k).stage t + total (ByteReservation.heldAt t) gates) % 2 ^ 64 =
      k.stage t % 2 ^ 64 := by
  induction gates generalizing k with
  | nil => rfl
  | cons gate rest ih =>
      have tail := ih (gate.release k) fun other member =>
        small other (List.mem_cons_of_mem gate member)
      have head := gate.release_stage k (small gate List.mem_cons_self) t
      simp only [releaseAll, List.foldl_cons, total_cons] at tail ⊢
      omega

theorem releaseAll_valid (gates : List Reservation) (k : Counters Stage)
    (valid : AtomicBudget.Counters.Valid k) :
    AtomicBudget.Counters.Valid (releaseAll gates k) := by
  induction gates generalizing k with
  | nil => exact valid
  | cons gate rest ih => exact ih (gate.release k) (gate.release_valid k valid)

/-- The actor drops some of its gates. -/
theorem StageStep.releasesAll {sh sh' : Shared R} {before after : List Reservation}
    (queues : sh'.Placed) (own : ∀ r ∈ before, AtStage .source r)
    (gates : List Reservation) (counters : sh'.counters = releaseAll gates sh.counters)
    (same : sh'.reservations = sh.reservations)
    (split : Exchange before after gates []) (kept : ∀ r ∈ after, r ∈ before)
    (dropped : ∀ r ∈ gates, r ∈ before) : StageStep .source sh sh' before after where
  counters t := by
    have moved := releaseAll_stage gates sh.counters
      (fun gate member => (own gate (dropped gate member)).small) t
    have parts := split (ByteReservation.heldAt t)
    simp only [total_append, total_nil] at parts ⊢
    rw [counters, same]
    omega
  valid valid := by
    rw [counters]
    exact releaseAll_valid gates sh.counters valid
  queues := queues
  own r member := own r (kept r member)

theorem AtStage.attach {r : Reservation} (small : r.held ≤ u64Max) (new : Stage)
    (k : Counters Stage) : AtStage new (r.attachStage new k).1 :=
  ⟨rfl, small⟩

/-! ## Fetch workers -/

theorem stepFetch_stages {cfg : Config} {killed decodersGone : Bool} {sh sh' : Shared R}
    {p p' : FetchPoint} {action : FetchAction} (queues : sh.Placed)
    (own : ∀ r ∈ p.reservations, AtStage .fetch r)
    (taken : stepFetch cfg killed decodersGone sh p action = some (p', sh')) :
    StageStep .fetch sh sh' p.reservations p'.reservations := by
  have none : ∀ r ∈ ([] : List Reservation), AtStage .fetch r := nofun
  cases fetchStep_of_stepFetch taken with
  | takes unit rest queue =>
      have source := queues.descriptors unit (by rw [queue]; exact List.mem_cons_self)
      refine .attaches ⟨fun other member => queues.descriptors other ?_, queues.fetched,
        queues.sinkCommits⟩ (List.forall_mem_singleton.mpr (.attach source.small _ sh.counters))
        unit.reservation source.small .fetch rfl fun weight => ?_
      · rw [queue]
        exact List.mem_cons_of_mem _ member
      · simp only [Shared.reservations, queue, FetchPoint.reservations, List.map_cons,
          total_append, total_cons, total_nil]
        omega
  | fetches | fetchFails | cutOff => exact .still { queues with } own rfl fun _ => rfl
  | sends unit notGone room =>
      refine .still ⟨queues.descriptors, ?_, queues.sinkCommits⟩ none rfl fun weight => ?_
      · intro other member
        rcases List.mem_append.mp member with old | new
        · exact queues.fetched other old
        · rw [List.mem_singleton.mp new]
          exact own _ List.mem_cons_self
      · simp only [Shared.reservations, FetchPoint.reservations, List.map_append, List.map_cons,
          List.map_nil, total_append, total_cons, total_nil]
        omega
  | unheard error reservation | reports error reservation =>
      refine .releases { queues with } none reservation (own _ List.mem_cons_self).small rfl
        fun weight => ?_
      simp only [Shared.reservations, Shared.dropUnit, Shared.complete, FetchPoint.reservations,
        total_append, total_cons, total_nil]
      omega
  | abandons unit =>
      refine .releases { queues with } none unit.reservation (own _ List.mem_cons_self).small rfl
        fun weight => ?_
      simp only [Shared.reservations, Shared.dropUnit, FetchPoint.reservations, total_append,
        total_cons, total_nil]
      omega
  | leaves | aborts | isKilled => exact .still { queues with } none rfl fun _ => rfl
  | panics p message alive =>
      cases p with
      | recv => exact .still { queues with } none rfl fun _ => rfl
      | exited => cases alive
      | fetching | sending | reportingFatal =>
          refine .releases { queues with } none _ (own _ List.mem_cons_self).small rfl
            fun weight => ?_
          simp only [Shared.reservations, dropHeld, Shared.dropUnit, Shared.fail,
            FetchPoint.reservation?, FetchPoint.reservations, total_append, total_cons, total_nil]
          omega

/-! ## Decode workers -/

theorem stepDecode_stages [TypedRecords R] {cfg : Config} {fetchersGone writersGone : Bool}
    {sh sh' : Shared R} {p p' : DecodePoint R} {action : DecodeAction R} (queues : sh.Placed)
    (own : ∀ r ∈ p.reservations, AtStage .decode r)
    (taken : stepDecode cfg fetchersGone writersGone sh p action = some (p', sh')) :
    StageStep .decode sh sh' p.reservations p'.reservations := by
  have none : ∀ r ∈ ([] : List Reservation), AtStage .decode r := nofun
  cases decodeStep_of_stepDecode taken with
  | takes unit rest queue =>
      have source := queues.fetched unit (by rw [queue]; exact List.mem_cons_self)
      refine .attaches ⟨queues.descriptors, fun other member => queues.fetched other ?_,
        queues.sinkCommits⟩ (List.forall_mem_singleton.mpr (.attach source.small _ sh.counters))
        unit.reservation source.small .decode rfl fun weight => ?_
      · rw [queue]
        exact List.mem_cons_of_mem _ member
      · simp only [Shared.reservations, queue, DecodePoint.reservations, List.map_cons,
          total_append, total_cons, total_nil]
        omega
  | decodes unit decoder commit range reservation k decoded
  | decodesDry unit decoder range rowsWritten reservation k decoded =>
      obtain ⟨batch, _, _, rfl, rfl, _⟩ := decodeOne_ok decoded
      have before := own _ List.mem_cons_self
      have after : AtStage .decode
          (unit.reservation.reconcile (actualBytes batch) sh.counters).1 := by
        refine ⟨by rw [ByteReservation.reconcile_attached, before.attached], ?_⟩
        rw [ByteReservation.reconcile_held]
        exact Nat.le_of_lt_succ (wrap64_lt _)
      refine .reconciles { queues with } (List.forall_mem_singleton.mpr after) unit.reservation
        before.small (actualBytes batch) rfl fun weight => ?_
      simp only [Shared.reservations, DecodePoint.reservations, total_append, total_cons,
        total_nil]
      omega
  | decodeFails unit decoder error reservation k failed =>
      obtain ⟨rfl, rfl⟩ := decodeOne_error failed
      exact .still { queues with } own rfl fun _ => rfl
  | cutOff => exact .still { queues with } own rfl fun _ => rfl
  | sends unit notGone room =>
      refine .still ⟨queues.descriptors, queues.fetched, ?_⟩ none rfl fun weight => ?_
      · intro other member
        rcases List.mem_append.mp member with old | new
        · exact queues.sinkCommits other old
        · rw [List.mem_singleton.mp new]
          exact own _ List.mem_cons_self
      · simp only [Shared.reservations, DecodePoint.reservations, List.map_append, List.map_cons,
          List.map_nil, total_append, total_cons, total_nil]
        omega
  | reportsDryRun => exact .still { queues with } own rfl fun _ => rfl
  | dryRunUnheard _ reservation | unheard _ reservation | reports _ reservation =>
      refine .releases { queues with } none reservation (own _ List.mem_cons_self).small rfl
        fun weight => ?_
      simp only [Shared.reservations, Shared.dropUnit, Shared.complete, DecodePoint.reservations,
        total_append, total_cons, total_nil]
      omega
  | releasesBytes reservation =>
      refine .releases { queues with } none reservation (own _ List.mem_cons_self).small rfl
        fun weight => ?_
      simp only [Shared.reservations, DecodePoint.reservations, total_append, total_cons,
        total_nil]
      omega
  | abandons unit =>
      refine .releases { queues with } none unit.reservation (own _ List.mem_cons_self).small rfl
        fun weight => ?_
      simp only [Shared.reservations, Shared.dropUnit, DecodePoint.reservations, total_append,
        total_cons, total_nil]
      omega
  | releasesPermit | leaves | aborts => exact .still { queues with } none rfl fun _ => rfl
  | panics p message alive =>
      cases p with
      | recv | releasingPermit => exact .still { queues with } none rfl fun _ => rfl
      | exited => cases alive
      | _ =>
          refine .releases { queues with } none _ (own _ List.mem_cons_self).small rfl
            fun weight => ?_
          simp only [Shared.reservations, dropHeld, Shared.dropUnit, Shared.fail,
            DecodePoint.reservation?, DecodePoint.reservations, total_append, total_cons,
            total_nil]
          omega

/-! ## Writer workers -/

theorem stepWriter_stages {cfg : Config} {decodersGone : Bool} {sh sh' : Shared R}
    {p p' : WriterPoint R} {action : WriterAction} (queues : sh.Placed)
    (own : ∀ r ∈ p.reservations, AtStage .sinkDispatch r)
    (taken : stepWriter cfg decodersGone sh p action = some (p', sh')) :
    StageStep .sinkDispatch sh sh' p.reservations p'.reservations := by
  have none : ∀ r ∈ ([] : List Reservation), AtStage .sinkDispatch r := nofun
  cases writerStep_of_stepWriter taken with
  | takes unit rest queue =>
      have source := queues.sinkCommits unit (by rw [queue]; exact List.mem_cons_self)
      refine .attaches ⟨queues.descriptors, queues.fetched,
        fun other member => queues.sinkCommits other ?_⟩
        (List.forall_mem_singleton.mpr (.attach source.small _ sh.counters))
        unit.reservation source.small .sinkDispatch rfl fun weight => ?_
      · rw [queue]
        exact List.mem_cons_of_mem _ member
      · simp only [Shared.reservations, Shared.record, queue, WriterPoint.reservations,
          List.map_cons, total_append, total_cons, total_nil]
        omega
  | retries _ _ _ _ _ _ answered | givesUp _ _ _ _ _ _ answered =>
      cases answered
      all_goals exact .still { queues with } own rfl fun _ => rfl
  | abandons _ _ _ inRetry =>
      cases inRetry
      all_goals exact .still { queues with } own rfl fun _ => rfl
  | writes | writeFails | writeUnclear | finds | checkFails | wakes | reportsCommit =>
      exact .still { queues with } own rfl fun _ => rfl
  | commitUnheard _ reservation | unheard _ reservation | reports _ reservation =>
      refine .releases { queues with } none reservation (own _ List.mem_cons_self).small rfl
        fun weight => ?_
      simp only [Shared.reservations, Shared.dropUnit, Shared.complete, WriterPoint.reservations,
        total_append, total_cons, total_nil]
      omega
  | releasesBytes reservation =>
      refine .releases { queues with } none reservation (own _ List.mem_cons_self).small rfl
        fun weight => ?_
      simp only [Shared.reservations, WriterPoint.reservations, total_append, total_cons,
        total_nil]
      omega
  | releasesPermit | leaves | aborts => exact .still { queues with } none rfl fun _ => rfl
  | panics p message alive =>
      cases p with
      | recv | releasingPermit => exact .still { queues with } none rfl fun _ => rfl
      | exited => cases alive
      | _ =>
          refine .releases { queues with } none _ (own _ List.mem_cons_self).small rfl
            fun weight => ?_
          simp only [Shared.reservations, dropHeld, Shared.dropUnit, Shared.fail,
            WriterPoint.reservation?, WriterPoint.reservations, total_append, total_cons,
            total_nil]
          omega

/-! ## The actor -/

theorem zip_reservations (descriptors : List SourceBatchDescriptor) (gates : List Reservation)
    (same : descriptors.length = gates.length) :
    (descriptors.zipWith AdmittedDescriptor.mk gates).map AdmittedDescriptor.reservation =
      gates := by
  induction descriptors generalizing gates with
  | nil => exact (List.length_eq_zero_iff.mp same.symm).symm
  | cons first rest ih =>
      cases gates with
      | nil => cases same
      | cons gate gates =>
          rw [List.zipWith_cons_cons, List.map_cons, ih gates (Nat.succ.inj same)]

theorem admission_stages {a : Actor} {sh : Shared R} {gates : List Reservation}
    {descriptors : List SourceBatchDescriptor} (queues : sh.Placed)
    (own : ∀ r ∈ gates, AtStage .source r) (fits : descriptors.length ≤ gates.length) :
    StageStep .source sh (admission a sh gates descriptors).2 gates
      (admission a sh gates descriptors).1.point.reservations := by
  cases descriptors with
  | nil =>
      simp only [admission, dropGates_eq]
      exact .releasesAll { queues with } own gates rfl rfl
        (fun weight => by simp [ActorPoint.reservations])
        (fun _ none => absurd none List.not_mem_nil) fun _ => id
  | cons first rest =>
      obtain ⟨sequences, a', outcome⟩ := admission_shared a sh gates first rest
      rcases outcome with ⟨_, admitted⟩ | ⟨error, refused⟩
      · rw [admitted]
        have kept : ActorPoint.reservations (.sending ((first :: rest).zipWith
            AdmittedDescriptor.mk (gates.take (first :: rest).length))) =
            gates.take (first :: rest).length :=
          zip_reservations _ _ (List.length_take_of_le fits).symm
        rw [kept]
        refine .releasesAll { queues with } own (gates.drop (first :: rest).length) rfl rfl
          (fun weight => ?_) (fun _ => List.mem_of_mem_take) fun _ => List.mem_of_mem_drop
        rw [← total_append, List.take_append_drop, total_nil, Nat.add_zero]
      · rw [refused]
        refine .releasesAll { queues with } own
          (gates.drop (first :: rest).length ++ gates.take (first :: rest).length) ?_ rfl
          (fun weight => ?_)
          (fun _ none => absurd none List.not_mem_nil) fun r member => ?_
        · simp only [exitActor, releaseAll, List.foldl_append]
        · change total weight [] + _ = _
          rw [total_append, Nat.add_comm (total weight (gates.drop _)), ← total_append,
            List.take_append_drop, Nat.add_comm]
        · rcases List.mem_append.mp member with late | early
          · exact List.mem_of_mem_drop late
          · exact List.mem_of_mem_take early

/-- The actor is not in its admission arm, and the queues are as they were. -/
theorem StageStep.idle {a a' : Actor} {sh sh' : Shared R} (queues : sh.Placed)
    (before : a.point.reservations = []) (after : a'.point.reservations = [])
    (counters : sh'.counters = sh.counters) (descriptors : sh'.descriptors = sh.descriptors)
    (fetched : sh'.fetched = sh.fetched) (sinkCommits : sh'.sinkCommits = sh.sinkCommits) :
    StageStep .source sh sh' a.point.reservations a'.point.reservations := by
  rw [before, after]
  refine .still ⟨?_, ?_, ?_⟩
    (fun _ none => absurd none List.not_mem_nil) counters fun weight => ?_
  · rw [descriptors]
    exact queues.descriptors
  · rw [fetched]
    exact queues.fetched
  · rw [sinkCommits]
    exact queues.sinkCommits
  · rw [Shared.reservations, Shared.reservations, descriptors, fetched, sinkCommits]

theorem stepActor_stages {cfg : Config} {shutdown fetchersGone decodersGone writersGone : Bool}
    {a a' : Actor} {sh sh' : Shared R} {action : ActorAction} (queues : sh.Placed)
    (own : ∀ r ∈ a.point.reservations, AtStage .source r)
    (taken : stepActor cfg shutdown fetchersGone decodersGone writersGone a sh action =
      some (a', sh')) :
    StageStep .source sh sh' a.point.reservations a'.point.reservations := by
  have estimate : cfg.estimate ≤ u64Max := val_le_u64Max cfg.bp.estimatedMaxBatchBytes
  cases actorStep_of_stepActor taken with
  | aborts permit error at_select | closes permit at_select
  | receivesFatal permit error rest at_select | workersGone permit error at_select
  | finishes permit sequence at_select | leaves permit at_select =>
      rw [cancelAdmission_eq]
      exact .idle queues (by rw [at_select]; rfl) rfl rfl rfl rfl rfl
  | receives permit report rest at_select queue busy =>
      rw [cancelAdmission_eq]
      have shape := receiveCommitted_cases cfg a { sh with
        freePermits := sh.freePermits +
          total Holding.permits (ActorPoint.select permit).holdings
        completions := rest } report
      generalize receiveCommitted cfg a _ report = moved at shape ⊢
      obtain ⟨a', sh'⟩ := moved
      cases shape with
      | rejected => exact .idle queues (by rw [at_select]; rfl) rfl rfl rfl rfl rfl
      | marked c marks acks =>
          cases acks
          all_goals exact .idle queues (by rw [at_select]; rfl) rfl rfl rfl rfl rfl
  | acquires at_select =>
      exact .idle queues (by rw [at_select]; rfl) rfl rfl rfl rfl rfl
  | claims gate k at_select isOpen fits claimed =>
      obtain ⟨rfl, rfl⟩ := Prod.mk.inj claimed
      rw [at_select] at own ⊢
      refine .reserves { queues with } own _ _ ?_ (sh.counters.reserve_stage cfg.estimate)
        (fun valid => Counters.reserve_valid valid cfg.estimate) rfl rfl rfl
      rw [Counters.reserve_held]
      exact estimate
  | measures gate _ at_point | counts gate _ at_point =>
      rw [at_point] at own ⊢
      exact .still queues own rfl fun _ => rfl
  | enough gates at_point =>
      rw [at_point] at own ⊢
      exact .still queues own rfl fun _ => rfl
  | takesPermit gates extras at_point | noPermit gates extras at_point
  | noBytes _ gates extras at_point =>
      rw [at_point] at own ⊢
      exact .still { queues with } own rfl fun _ => rfl
  | takesBytes raced gates extras extra k at_point unraced reserved =>
      rw [at_point] at own ⊢
      refine .reserves { queues with } own extra k ?_ (Counters.tryReserve_stage reserved)
        (fun valid => Counters.tryReserve_valid valid reserved) rfl rfl rfl
      rw [(Counters.tryReserve_some _ _ _ _ _ reserved).1]
      exact estimate
  | pollFails answer gates error at_point =>
      rw [at_point] at own ⊢
      rw [dropGates_eq]
      exact .releasesAll { queues with } own gates rfl rfl
        (fun weight => by simp [ActorPoint.reservations, exitActor])
        (fun _ none => absurd none List.not_mem_nil) fun _ => id
  | admits answer gates descriptors at_point answered fits =>
      rw [at_point] at own ⊢
      exact admission_stages queues own fits
  | wakes at_point =>
      exact .idle queues (by rw [at_point]; rfl) rfl rfl rfl rfl rfl
  | sentAll at_point =>
      exact .idle queues (by rw [at_point]; rfl) rfl rfl rfl rfl rfl
  | sendFails unit rest error at_point =>
      rw [at_point] at own ⊢
      rw [dropGates_eq]
      exact .releasesAll { queues with } own _ rfl rfl
        (fun weight => by simp [ActorPoint.reservations, exitActor])
        (fun _ none => absurd none List.not_mem_nil) fun _ => id
  | sends unit rest at_point =>
      rw [at_point] at own ⊢
      refine .still ⟨fun other member => ?_, queues.fetched, queues.sinkCommits⟩
        (fun r member => own r (List.mem_cons_of_mem _ member)) rfl fun weight => ?_
      · rcases List.mem_append.mp member with old | new
        · exact queues.descriptors other old
        · rw [List.mem_singleton.mp new]
          exact own _ List.mem_cons_self
      · simp only [Shared.reservations, ActorPoint.reservations, List.map_append, List.map_cons,
          List.map_nil, total_append, total_cons, total_nil]
        omega
  | flushed sequence frontier at_point =>
      exact .idle queues (by rw [at_point]; rfl) rfl rfl rfl rfl rfl
  | flushFails sequence error at_flushing =>
      refine .idle queues ?_ rfl rfl rfl rfl rfl
      rcases at_flushing with ⟨frontier, at_point⟩ | at_point
      all_goals
        rw [at_point]
        rfl
  | flushedLast sequence at_point =>
      exact .idle queues (by rw [at_point]; rfl) rfl rfl rfl rfl rfl

/-! ## Every reachable state -/

structure Staged (s : State R) : Prop where
  queues : s.shared.Placed
  gates : ∀ r ∈ s.actor.point.reservations, AtStage .source r
  fetchers : ∀ p ∈ s.fetchers, ∀ r ∈ p.reservations, AtStage .fetch r
  decoders : ∀ p ∈ s.decoders, ∀ r ∈ p.reservations, AtStage .decode r
  writers : ∀ p ∈ s.writers, ∀ r ∈ p.reservations, AtStage .sinkDispatch r
  valid : AtomicBudget.Counters.Valid s.shared.counters
  counters : ∀ t, s.shared.counters.stage t % 2 ^ 64 =
    (total (ByteReservation.heldAt t) s.shared.reservations +
      total (ByteReservation.heldAt t) s.actor.point.reservations +
      total (fun p => total (ByteReservation.heldAt t) p.reservations) s.fetchers +
      total (fun p => total (ByteReservation.heldAt t) p.reservations) s.decoders +
      total (fun p => total (ByteReservation.heldAt t) p.reservations) s.writers) % 2 ^ 64

theorem placed_set {A : Type} {reservations : A → List Reservation} {stage : Stage}
    {pool : List A} {i : Nat} {p' : A} (all : ∀ p ∈ pool, ∀ r ∈ reservations p, AtStage stage r)
    (new : ∀ r ∈ reservations p', AtStage stage r) :
    ∀ p ∈ pool.set i p', ∀ r ∈ reservations p, AtStage stage r := by
  intro p member
  rcases List.mem_or_eq_of_mem_set member with old | same
  · exact all p old
  · rw [same]
    exact new

theorem staged_start (cfg : Config) : Staged (State.start cfg : State R) where
  queues := ⟨nofun, nofun, nofun⟩
  gates := nofun
  fetchers p member := by
    rw [List.eq_of_mem_replicate member]
    exact nofun
  decoders p member := by
    rw [List.eq_of_mem_replicate member]
    exact nofun
  writers p member := by
    rw [List.eq_of_mem_replicate member]
    exact nofun
  valid := ⟨Nat.two_pow_pos 64, fun _ => Nat.two_pow_pos 64⟩
  counters t := by
    have fetchers : total (fun p : FetchPoint => total (ByteReservation.heldAt t) p.reservations)
        (State.start cfg : State R).fetchers = 0 :=
      total_eq_zero _ _ fun p member => by rw [List.eq_of_mem_replicate member]; rfl
    have decoders : total
        (fun p : DecodePoint R => total (ByteReservation.heldAt t) p.reservations)
        (State.start cfg : State R).decoders = 0 :=
      total_eq_zero _ _ fun p member => by rw [List.eq_of_mem_replicate member]; rfl
    have writers : total
        (fun p : WriterPoint R => total (ByteReservation.heldAt t) p.reservations)
        (State.start cfg : State R).writers = 0 :=
      total_eq_zero _ _ fun p member => by rw [List.eq_of_mem_replicate member]; rfl
    rw [fetchers, decoders, writers]
    rfl

theorem Staged.step [TypedRecords R] {cfg : Config} {s s' : State R} {action : Action R}
    (staged : Staged s) (taken : step cfg s action = some s') : Staged s' := by
  obtain ⟨queues, gates, fetchers, decoders, writers, valid, counters⟩ := staged
  cases transition_of_step taken with
  | actor moved =>
      have moves := stepActor_stages queues gates moved
      refine ⟨moves.queues, moves.own, fetchers, decoders, writers, moves.valid valid,
        fun t => ?_⟩
      have balance := counters t
      have change := moves.counters t
      simp only [total_append] at change
      simp only
      omega
  | @fetch i _ p p' _ present moved =>
      have moves := stepFetch_stages queues (fetchers p (List.mem_of_getElem? present)) moved
      refine ⟨moves.queues, gates, placed_set fetchers moves.own, decoders, writers,
        moves.valid valid, fun t => ?_⟩
      have balance := counters t
      have change := moves.counters t
      have weights := total_set
        (fun p : FetchPoint => total (ByteReservation.heldAt t) p.reservations) s.fetchers i p p'
        present
      simp only [total_append] at change
      simp only
      omega
  | @decode i _ p p' _ present moved =>
      have moves := stepDecode_stages queues (decoders p (List.mem_of_getElem? present)) moved
      refine ⟨moves.queues, gates, fetchers, placed_set decoders moves.own, writers,
        moves.valid valid, fun t => ?_⟩
      have balance := counters t
      have change := moves.counters t
      have weights := total_set
        (fun p : DecodePoint R => total (ByteReservation.heldAt t) p.reservations) s.decoders i p
        p' present
      simp only [total_append] at change
      simp only
      omega
  | @writer i _ p p' _ present moved =>
      have moves := stepWriter_stages queues (writers p (List.mem_of_getElem? present)) moved
      refine ⟨moves.queues, gates, fetchers, decoders, placed_set writers moves.own,
        moves.valid valid, fun t => ?_⟩
      have balance := counters t
      have change := moves.counters t
      have weights := total_set
        (fun p : WriterPoint R => total (ByteReservation.heldAt t) p.reservations) s.writers i p
        p' present
      simp only [total_append] at change
      simp only
      omega
  | @discardsDescriptor unit rest queue =>
      have own := queues.descriptors unit (by rw [queue]; exact List.mem_cons_self)
      refine ⟨⟨fun other member => queues.descriptors other ?_, queues.fetched,
        queues.sinkCommits⟩, gates, fetchers, decoders, writers,
        unit.reservation.release_valid _ valid, fun t => ?_⟩
      · rw [queue]
        exact List.mem_cons_of_mem _ member
      · have balance := counters t
        have change := unit.reservation.release_stage s.shared.counters own.small t
        simp only [Shared.reservations, queue, List.map_cons, total_append, total_cons] at balance
        simp only [Shared.reservations, Shared.dropUnit, total_append]
        omega
  | @discardsFetched unit rest queue =>
      have own := queues.fetched unit (by rw [queue]; exact List.mem_cons_self)
      refine ⟨⟨queues.descriptors, fun other member => queues.fetched other ?_,
        queues.sinkCommits⟩, gates, fetchers, decoders, writers,
        unit.reservation.release_valid _ valid, fun t => ?_⟩
      · rw [queue]
        exact List.mem_cons_of_mem _ member
      · have balance := counters t
        have change := unit.reservation.release_stage s.shared.counters own.small t
        simp only [Shared.reservations, queue, List.map_cons, total_append, total_cons] at balance
        simp only [Shared.reservations, Shared.dropUnit, total_append]
        omega
  | @discardsSinkCommit unit rest queue =>
      have own := queues.sinkCommits unit (by rw [queue]; exact List.mem_cons_self)
      refine ⟨⟨queues.descriptors, queues.fetched,
        fun other member => queues.sinkCommits other ?_⟩, gates, fetchers, decoders, writers,
        unit.reservation.release_valid _ valid, fun t => ?_⟩
      · rw [queue]
        exact List.mem_cons_of_mem _ member
      · have balance := counters t
        have change := unit.reservation.release_stage s.shared.counters own.small t
        simp only [Shared.reservations, queue, List.map_cons, total_append, total_cons] at balance
        simp only [Shared.reservations, Shared.dropUnit, total_append]
        omega
  | _ => exact ⟨{ queues with }, gates, fetchers, decoders, writers, valid, counters⟩

theorem staged_of_reachable [TypedRecords R] {cfg : Config} {s : State R}
    (reachable : (machine R cfg).Reachable s) : Staged s :=
  reachable.invariant (staged_start cfg) fun _ _ _ _ staged taken => staged.step taken

/-! ## The gauges -/

theorem total_heldAt {stage : Stage} (placed : List Reservation)
    (atStage : ∀ r ∈ placed, AtStage stage r) (t : Stage) :
    total (ByteReservation.heldAt t) placed =
      if t = stage then total ByteReservation.held placed else 0 := by
  by_cases same : t = stage
  · rw [if_pos same]
    refine total_congr _ _ placed fun r member => ?_
    rw [ByteReservation.heldAt, (atStage r member).attached, same]
    exact if_pos rfl
  · rw [if_neg same]
    refine total_eq_zero _ placed fun r member => ?_
    rw [ByteReservation.heldAt, (atStage r member).attached]
    exact if_neg fun attached => same (Option.some.inj attached).symm

theorem total_pool_heldAt {A : Type} {reservations : A → List Reservation} {stage : Stage}
    {pool : List A} (placed : ∀ p ∈ pool, ∀ r ∈ reservations p, AtStage stage r) (t : Stage) :
    total (fun p => total (ByteReservation.heldAt t) (reservations p)) pool =
      if t = stage then total ByteReservation.held (pool.flatMap reservations) else 0 := by
  rw [← total_flatMap]
  refine total_heldAt _ (fun r member => ?_) t
  obtain ⟨p, isWorker, holds⟩ := List.mem_flatMap.mp member
  exact placed p isWorker r holds

/-- The units of a stage, by its counter. -/
theorem Staged.counter_eq {s : State R} (staged : Staged s) (t : Stage) :
    s.shared.counters.stage t = wrap64 (total ByteReservation.held (s.reservationsAt t)) := by
  have balance := staged.counters t
  have descriptors := total_heldAt (s.shared.descriptors.map AdmittedDescriptor.reservation)
    (by simpa using staged.queues.descriptors) t
  have fetched := total_heldAt (s.shared.fetched.map FetchedBatch.reservation)
    (by simpa using staged.queues.fetched) t
  have sinkCommits := total_heldAt
    (s.shared.sinkCommits.map SinkCommitEnvelope.reservation)
    (by simpa using staged.queues.sinkCommits) t
  rw [Shared.reservations, total_append, total_append, descriptors, fetched, sinkCommits,
    total_heldAt _ staged.gates t, total_pool_heldAt staged.fetchers t,
    total_pool_heldAt staged.decoders t, total_pool_heldAt staged.writers t] at balance
  have width := staged.valid.stage_lt t
  rw [← Nat.mod_eq_of_lt width, balance, wrap64]
  cases t with
  | _ => simp [State.reservationsAt, Nat.add_comm]

/-! Every unit is in one stage. -/

theorem ActorPoint.total_reservations (p : ActorPoint) :
    total ByteReservation.held p.reservations = total Holding.held p.holdings := by
  cases p with
  | select permit =>
      cases permit
      all_goals rfl
  | extending | polling =>
      rw [ActorPoint.holdings, ActorPoint.reservations, total_map]
      rfl
  | sending =>
      rw [ActorPoint.holdings, ActorPoint.reservations, total_map, total_map]
      rfl
  | extendingBytes =>
      rw [ActorPoint.holdings, ActorPoint.reservations, total_cons, total_map]
      exact (Nat.zero_add _).symm
  | _ => rfl

theorem FetchPoint.total_reservations (p : FetchPoint) :
    total ByteReservation.held p.reservations = total Holding.held p.holdings := by
  cases p
  all_goals rfl

theorem DecodePoint.total_reservations (p : DecodePoint R) :
    total ByteReservation.held p.reservations = total Holding.held p.holdings := by
  cases p
  all_goals rfl

theorem WriterPoint.total_reservations (p : WriterPoint R) :
    total ByteReservation.held p.reservations = total Holding.held p.holdings := by
  cases p
  all_goals rfl

theorem Shared.total_reservations (sh : Shared R) :
    total ByteReservation.held sh.reservations = total Holding.held sh.holdings := by
  have reports : total Holding.held (sh.completions.flatMap WriteCompletion.holdings) = 0 := by
    rw [total_flatMap]
    refine total_eq_zero _ _ fun message _ => ?_
    cases message
    all_goals rfl
  simp only [Shared.reservations, Shared.holdings, total_append, total_map, reports]
  rfl

theorem total_held_stages (s : State R) :
    total ByteReservation.held (s.reservationsAt .source) +
        total ByteReservation.held (s.reservationsAt .fetch) +
        total ByteReservation.held (s.reservationsAt .decode) +
        total ByteReservation.held (s.reservationsAt .sinkDispatch) =
      total Holding.held s.holdings := by
  have shared := s.shared.total_reservations
  rw [State.total_holdings, ← shared, ← s.actor.point.total_reservations,
    total_congr _ _ s.fetchers fun p _ => p.total_reservations.symm,
    total_congr _ _ s.decoders fun p _ => p.total_reservations.symm,
    total_congr _ _ s.writers fun p _ => p.total_reservations.symm]
  simp only [State.reservationsAt, Shared.reservations, total_append, total_flatMap]
  omega

theorem ofNat_wrap64 (n : Nat) : Int64.ofNat (wrap64 n) = Int64.ofNat n := by
  rw [← Int64.toBitVec_inj, Int64.toBitVec_ofNat', Int64.toBitVec_ofNat']
  exact BitVec.eq_of_toNat_eq (by simp [wrap64])

theorem Staged.attached {s : State R} (staged : Staged s) (stage : Stage) :
    ∀ r ∈ s.reservationsAt stage, AtStage stage r := by
  intro r member
  cases stage with
  | source =>
      rcases List.mem_append.mp member with gate | queued
      · exact staged.gates r gate
      · obtain ⟨unit, inQueue, rfl⟩ := List.mem_map.mp queued
        exact staged.queues.descriptors unit inQueue
  | fetch =>
      rcases List.mem_append.mp member with held | queued
      · obtain ⟨p, isWorker, holds⟩ := List.mem_flatMap.mp held
        exact staged.fetchers p isWorker r holds
      · obtain ⟨unit, inQueue, rfl⟩ := List.mem_map.mp queued
        exact staged.queues.fetched unit inQueue
  | decode =>
      rcases List.mem_append.mp member with held | queued
      · obtain ⟨p, isWorker, holds⟩ := List.mem_flatMap.mp held
        exact staged.decoders p isWorker r holds
      · obtain ⟨unit, inQueue, rfl⟩ := List.mem_map.mp queued
        exact staged.queues.sinkCommits unit inQueue
  | sinkDispatch =>
      obtain ⟨p, isWorker, holds⟩ := List.mem_flatMap.mp member
      exact staged.writers p isWorker r holds

/-- In every reachable state the gauges show the bytes of the units in each stage, as 64-bit
integers: every reservation is attached to the stage its unit is in.  As long as the bytes in
flight fit in an `i64`, the four gauges add up to `in_flight`. -/
theorem stage_gauges_show_units [TypedRecords R] (cfg : Config) (s : State R)
    (reachable : (machine R cfg).Reachable s) :
    emitStageInflightGauges s.shared.counters =
      [("source", Int64.ofNat (total ByteReservation.held (s.reservationsAt .source))),
        ("fetch", Int64.ofNat (total ByteReservation.held (s.reservationsAt .fetch))),
        ("decode", Int64.ofNat (total ByteReservation.held (s.reservationsAt .decode))),
        ("sink_dispatch",
          Int64.ofNat (total ByteReservation.held (s.reservationsAt .sinkDispatch)))] ∧
    (∀ stage, ∀ r ∈ s.reservationsAt stage, r.stage = some stage) ∧
    (total Holding.held s.holdings < 2 ^ 63 →
      ((emitStageInflightGauges s.shared.counters).map fun gauge => gauge.2.toInt).sum =
        s.shared.counters.inFlight) := by
  have staged := staged_of_reachable reachable
  have accounts := accounts_of_reachable reachable
  have shown : emitStageInflightGauges s.shared.counters =
      [("source", Int64.ofNat (total ByteReservation.held (s.reservationsAt .source))),
        ("fetch", Int64.ofNat (total ByteReservation.held (s.reservationsAt .fetch))),
        ("decode", Int64.ofNat (total ByteReservation.held (s.reservationsAt .decode))),
        ("sink_dispatch",
          Int64.ofNat (total ByteReservation.held (s.reservationsAt .sinkDispatch)))] := by
    simp only [emitStageInflightGauges, staged.counter_eq, ofNat_wrap64]
  refine ⟨shown, fun stage r member => (staged.attached stage r member).attached,
    fun small => ?_⟩
  have counted := total_held_stages s
  have inFlight : s.shared.counters.inFlight = total Holding.held s.holdings := by
    rw [← Nat.mod_eq_of_lt accounts.width, accounts.bytes, Nat.mod_eq_of_lt (by omega)]
  rw [shown, inFlight, ← counted]
  simp only [List.map_cons, List.map_nil, List.sum_cons, List.sum_nil]
  rw [Int64.toInt_ofNat_of_lt (by omega), Int64.toInt_ofNat_of_lt (by omega),
    Int64.toInt_ofNat_of_lt (by omega), Int64.toInt_ofNat_of_lt (by omega)]
  push_cast
  omega

/-- One batch waits for a fetch worker, one is being fetched. -/
theorem stage_gauges_show_units_two_stages : ∃ s : State SizedRecords,
    (machine SizedRecords narrowConfig).Reachable s ∧ s.shared.counters.inFlight = 2 ∧
      ((emitStageInflightGauges s.shared.counters).map fun gauge => gauge.2.toInt) =
        [1, 1, 0, 0] ∧
      ((emitStageInflightGauges s.shared.counters).map fun gauge => gauge.2.toInt).sum =
        s.shared.counters.inFlight := by
  have shown : ((machine SizedRecords narrowConfig).run (oversizeRun.take 11)).map
      (fun s => (s.shared.counters.inFlight, total Holding.held s.holdings,
        (emitStageInflightGauges s.shared.counters).map fun gauge => gauge.2.toInt)) =
      some (2, 2, [1, 1, 0, 0]) := by
    decide
  obtain ⟨s, ran, values⟩ := Option.map_eq_some_iff.mp shown
  simp only [Prod.mk.injEq] at values
  obtain ⟨inFlight, held, gauges⟩ := values
  have reachable := (machine SizedRecords narrowConfig).run_reachable _ s ran
  exact ⟨s, reachable, inFlight, gauges,
    (stage_gauges_show_units narrowConfig s reachable).2.2 (by rw [held]; decide)⟩

end OpendataIngest.Runtime.Pipeline
