import OpendataIngest.Runtime.Pipeline.Books
import OpendataIngest.Runtime.Pipeline.MemoryBound

/-!
# No unit is lost or duplicated

Until a worker fails or the actor returns, an admitted sequence whose completion is not
processed is in exactly one of the places a unit passes through.
-/

set_option autoImplicit false

namespace OpendataIngest.Runtime.Pipeline

open MachineInt Pool AckCoordinator

variable {R : Type}

inductive Place where
  | admissionArm
  | descriptorQueue
  | fetchWorker (worker : Nat)
  | fetchedQueue
  | decodeWorker (worker : Nat)
  | sinkCommitQueue
  | writerWorker (worker : Nat)
  | completionQueue
  deriving DecidableEq, Repr

/-- `place` once for each of the holdings that has the custody of `range`. -/
def placesIn (place : Place) (range : Range) (holdings : List Holding) : List Place :=
  (holdings.filter fun h => decide (h.custody = some range)).map fun _ => place

/-- Where `range` is, with one entry for each copy. -/
def State.places (s : State R) (range : Range) : List Place :=
  placesIn .admissionArm range s.actor.point.holdings ++
    placesIn .descriptorQueue range (s.shared.descriptors.map AdmittedDescriptor.holding) ++
    (s.fetchers.zipIdx.flatMap fun p => placesIn (.fetchWorker p.2) range p.1.holdings) ++
    placesIn .fetchedQueue range (s.shared.fetched.map FetchedBatch.holding) ++
    (s.decoders.zipIdx.flatMap fun p => placesIn (.decodeWorker p.2) range p.1.holdings) ++
    placesIn .sinkCommitQueue range (s.shared.sinkCommits.map SinkCommitEnvelope.holding) ++
    (s.writers.zipIdx.flatMap fun p => placesIn (.writerWorker p.2) range p.1.holdings) ++
    placesIn .completionQueue range (s.shared.completions.flatMap WriteCompletion.holdings)

theorem length_placesIn (place : Place) (range : Range) (holdings : List Holding) :
    (placesIn place range holdings).length = total (custodyOf range) holdings := by
  rw [placesIn, List.length_map]
  induction holdings with
  | nil => rfl
  | cons h rest ih =>
      rw [total_cons, ← ih, custodyOf, List.filter_cons]
      split_ifs with own other other
      · rw [List.length_cons, Nat.add_comm]
      · exact absurd (of_decide_eq_true own) other
      · exact absurd (decide_eq_true other) own
      · exact (Nat.zero_add _).symm

theorem length_pool_places {P : Type} (label : Nat → Place) (range : Range)
    (holdings : P → List Holding) (pool : List P) :
    (pool.zipIdx.flatMap fun p => placesIn (label p.2) range (holdings p.1)).length =
      total (fun p => total (custodyOf range) (holdings p)) pool := by
  rw [List.length_flatMap]
  simp only [length_placesIn]
  have indexed := total_map (fun p => total (custodyOf range) (holdings p)) Prod.fst pool.zipIdx
  rw [List.zipIdx_map_fst] at indexed
  exact indexed.symm

theorem length_places (s : State R) (range : Range) :
    (s.places range).length = total (custodyOf range) s.holdings := by
  simp only [State.places, List.length_append, length_placesIn]
  rw [length_pool_places Place.fetchWorker, length_pool_places Place.decodeWorker,
    length_pool_places Place.writerWorker]
  simp only [State.total_holdings, Shared.holdings, total_append]
  omega

theorem places_singleton {cfg : Config} {s : State R} (custody : Custody s)
    (keeps : Keeps cfg s.actor.coordinator s.shared.history) (intact : Intact s.shared)
    {range : Range} (member : range ∈ unprocessed s.shared.history) :
    ∃ place, s.places range = [place] := by
  obtain ⟨registered, unmarked⟩ := List.mem_filter.mp member
  have balance := custody.eq intact range
  have none := (marks_eq_zero_iff range s.shared.history).mpr (by simpa using unmarked)
  have once := List.count_eq_one_of_mem keeps.nodup registered
  rw [registrations_eq_count, none, once, Nat.add_zero, ← length_places] at balance
  exact List.length_eq_one_iff.mp balance

/-- Every admitted and unprocessed range is in one place until a worker fails or the actor
returns; `in_flight` counts these ranges and the uncommitted pending ones; a `Committed`
report names one of them; no range is marked twice. -/
theorem units_conserved [TypedRecords R] (cfg : Config) (s : State R)
    (reachable : (machine R cfg).Reachable s) :
    (s.shared.workerFailed = false → s.actor.point.hasExited = false →
      ∀ range ∈ unprocessed s.shared.history, ∃ place, s.places range = [place]) ∧
    (unprocessed s.shared.history).Nodup ∧
    s.actor.inFlight = (unprocessed s.shared.history).length ∧
    s.actor.inFlight = (s.actor.coordinator.pending.entries.filter
      fun entry => !entry.2.sinkCommitted).length ∧
    (∀ report rest, s.shared.completions = .committed report :: rest →
      rangeOf report.range ∈ unprocessed s.shared.history ∧ 0 < s.actor.inFlight ∧
      ∃ c, s.actor.coordinator.markCommitted report.range.1.val report.range.2.val =
        (c, .ok ())) ∧
    ∀ range, marks range s.shared.history ≤ 1 := by
  have orderly := orderly_of_reachable reachable
  have custody := custody_of_reachable reachable
  have books := books_of_reachable reachable
  refine ⟨?_, books.keeps.nodup.filter _, books.inFlight, ?_, ?_, ?_⟩
  · intro noFailure running range member
    have notAborted : s.shared.hardAbort = false := by
      cases aborted : s.shared.hardAbort with
      | false => rfl
      | true =>
          have exited := orderly.aborted aborted
          rw [running] at exited
          cases exited
    exact places_singleton custody books.keeps
      ⟨noFailure, notAborted, orderly.closed.trans running⟩ member
  · rw [books.inFlight, books.keeps.unprocessed_length]
  · intro report rest queue
    have member := report_unprocessed custody books.keeps report
      (by rw [queue]; exact List.mem_cons_self)
    refine ⟨member, ?_, books.keeps.mark_succeeds member⟩
    rw [books.inFlight]
    exact List.length_pos_of_mem member
  · intro range
    have balance := custody.le range
    have once := books.keeps.registrations_le range
    omega

/-- One batch is with the fetch worker when the buffer fails the next poll. -/
def pollFailureRun : List (Action SizedRecords) :=
  [.actor .acquirePermit, .actor .reserveBytes, .actor .readRoom, .actor .readPermits,
    .actor .tryAcquire, .actor (.tryReserve false), .actor .tryAcquire,
    .actor (.nextDescriptors (.ok [⟨0, "a", []⟩])), .actor .send, .actor .send, .fetch 0 .take,
    .actor .acquirePermit, .actor .reserveBytes, .actor .readRoom, .actor .readPermits,
    .actor .tryAcquire, .actor (.nextDescriptors (.error "unavailable"))]

theorem units_conserved_while_fetching : ∃ s : State SizedRecords,
    (machine SizedRecords narrowConfig).Reachable s ∧ s.actor.inFlight = 1 ∧
      (∃ place, s.places (0, 0) = [place]) ∧ s.places (0, 0) = [.fetchWorker 0] := by
  have fetching : ((machine SizedRecords narrowConfig).run (pollFailureRun.take 11)).map
      (fun s => (s.places (0, 0), unprocessed s.shared.history, s.shared.workerFailed ||
        s.actor.point.hasExited)) = some ([.fetchWorker 0], [(0, 0)], false) := by
    decide
  obtain ⟨s, ran, values⟩ := Option.map_eq_some_iff.mp fetching
  simp only [Prod.mk.injEq, Bool.or_eq_false_iff] at values
  obtain ⟨place, waiting, noFailure, running⟩ := values
  have reachable := (machine SizedRecords narrowConfig).run_reachable _ s ran
  have conserved := units_conserved narrowConfig s reachable
  refine ⟨s, reachable, ?_, ?_, place⟩
  · rw [conserved.2.2.1, waiting]
    rfl
  · exact conserved.1 noFailure running (0, 0) (by simp [waiting])

/-- The actor returns the buffer's error, the hard abort reaches the fetch worker, and the
worker drops its unit: no worker has failed, and the sequence is nowhere. -/
theorem unit_dropped_by_hard_abort : ∃ s : State SizedRecords,
    (machine SizedRecords narrowConfig).Reachable s ∧ s.shared.workerFailed = false ∧
      (0, 0) ∈ unprocessed s.shared.history ∧ ¬ ∃ place, s.places (0, 0) = [place] := by
  have torn : ((machine SizedRecords narrowConfig).run
      (pollFailureRun ++ [.cancelHardAbort, .fetch 0 .abort])).map
      (fun s => (s.shared.workerFailed, unprocessed s.shared.history, s.places (0, 0))) =
      some (false, [(0, 0)], []) := by
    decide
  obtain ⟨s, ran, values⟩ := Option.map_eq_some_iff.mp torn
  simp only [Prod.mk.injEq] at values
  obtain ⟨noFailure, waiting, nowhere⟩ := values
  refine ⟨s, (machine SizedRecords narrowConfig).run_reachable _ s ran, noFailure,
    by simp [waiting], ?_⟩
  rintro ⟨place, present⟩
  rw [nowhere] at present
  cases present

end OpendataIngest.Runtime.Pipeline
