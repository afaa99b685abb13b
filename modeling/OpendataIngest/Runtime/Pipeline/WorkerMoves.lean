import OpendataIngest.Runtime.Pipeline.Holdings
import OpendataIngest.Runtime.Pipeline.WorkerSteps

/-!
# What a worker step does to the accounts

Every step of every worker is an exchange of holdings in which permits and bytes
settle, no custody appears, and custody only disappears when a worker fails or the run
is being torn down.  The three theorems at the end say so for the three pools; the
invariants of the pipeline use nothing else about the workers' code.
-/

set_option autoImplicit false

namespace OpendataIngest.Runtime.Pipeline

open MachineInt Pool

variable {R : Type}

def Event.fromSink : Event → Bool
  | .sinkWriteCalled _ => true
  | .sinkWriteReturned _ _ => true
  | .checkCommittedReturned _ _ => true
  | _ => false

@[elab_as_elim]
theorem Event.of_fromSink {P : Event → Prop} (event : Event) (sink : event.fromSink = true)
    (called : ∀ identity, P (.sinkWriteCalled identity))
    (returned : ∀ identity answer, P (.sinkWriteReturned identity answer))
    (checked : ∀ identity answer, P (.checkCommittedReturned identity answer)) : P event := by
  cases event with
  | sinkWriteCalled identity => exact called identity
  | sinkWriteReturned identity answer => exact returned identity answer
  | checkCommittedReturned identity answer => exact checked identity answer
  | _ => cases sink

/-- What workers leave alone. -/
structure WorkerFrame (sh sh' : Shared R) : Prop where
  descriptorClosed : sh'.descriptorClosed = sh.descriptorClosed
  completionClosed : sh'.completionClosed = sh.completionClosed
  hardAbort : sh'.hardAbort = sh.hardAbort
  failed_mono : sh.workerFailed = true → sh'.workerFailed = true
  history : ∃ events, sh'.history = events ++ sh.history ∧
    ∀ event ∈ events, event.fromSink = true

structure WorkerMove (cfg : Config) (sh sh' : Shared R) (before after old new : List Holding) :
    Prop extends Settles sh sh' before after old new where
  frame : WorkerFrame sh sh'
  sound : ∀ h ∈ new, Sound cfg sh'.history h
  ceiling_le : ∀ limit, total (ceiling limit) new ≤ total (ceiling limit) old
  custody_le : ∀ range, total (custodyOf range) new ≤ total (custodyOf range) old
  custody_eq : sh'.workerFailed = false → sh.hardAbort = false → sh.completionClosed = false →
    ∀ range, total (custodyOf range) new = total (custodyOf range) old

/-! ## Frames -/

theorem WorkerFrame.quiet {sh sh' : Shared R}
    (descriptorClosed : sh'.descriptorClosed = sh.descriptorClosed)
    (completionClosed : sh'.completionClosed = sh.completionClosed)
    (hardAbort : sh'.hardAbort = sh.hardAbort)
    (failed : sh.workerFailed = true → sh'.workerFailed = true)
    (history : sh'.history = sh.history) : WorkerFrame sh sh' where
  descriptorClosed := descriptorClosed
  completionClosed := completionClosed
  hardAbort := hardAbort
  failed_mono := failed
  history := ⟨[], history, by simp⟩

theorem WorkerFrame.recorded {sh sh' : Shared R} (event : Event)
    (descriptorClosed : sh'.descriptorClosed = sh.descriptorClosed)
    (completionClosed : sh'.completionClosed = sh.completionClosed)
    (hardAbort : sh'.hardAbort = sh.hardAbort)
    (failed : sh.workerFailed = true → sh'.workerFailed = true)
    (fromSink : event.fromSink = true)
    (history : sh'.history = event :: sh.history) : WorkerFrame sh sh' where
  descriptorClosed := descriptorClosed
  completionClosed := completionClosed
  hardAbort := hardAbort
  failed_mono := failed
  history := ⟨[event], history, by simpa using fromSink⟩

/-! ## The three kinds of exchange -/

section Kinds

variable {cfg : Config} {sh sh' : Shared R} {before after : List Holding}

theorem WorkerMove.moved (exchange : Exchange before after [] [])
    (samePermits : sh'.freePermits = sh.freePermits)
    (sameBytes : sh'.counters.inFlight = sh.counters.inFlight) (frame : WorkerFrame sh sh') :
    WorkerMove cfg sh sh' before after [] [] where
  toSettles := Settles.move exchange samePermits sameBytes
  frame := frame
  sound := by simp
  ceiling_le _ := Nat.le_refl _
  custody_le _ := Nat.le_refl _
  custody_eq _ _ _ _ := rfl

/-- One holding becomes another one with the same permits; its custody stays, or is
lost by a failure. -/
theorem WorkerMove.replaced (h h' : Holding) (exchange : Exchange before after [h] [h'])
    (samePermits : sh'.freePermits = sh.freePermits) (permits : h'.permits = h.permits)
    (bytes : (sh'.counters.inFlight + h.held) % 2 ^ 64 = (sh.counters.inFlight + h'.held) % 2 ^ 64)
    (width : sh.counters.inFlight < 2 ^ 64 → sh'.counters.inFlight < 2 ^ 64)
    (frame : WorkerFrame sh sh') (sound : Sound cfg sh'.history h')
    (ceilings : ∀ limit, ceiling limit h' ≤ ceiling limit h)
    (custody : h'.custody = h.custody ∨ h'.custody = none ∧ sh'.workerFailed = true) :
    WorkerMove cfg sh sh' before after [h] [h'] where
  exchange := exchange
  permits := by simp [samePermits, permits]
  bytes := by simpa using bytes
  width := width
  frame := frame
  sound := by simpa using sound
  ceiling_le limit := by simpa using ceilings limit
  custody_le range := by
    rcases custody with kept | ⟨lost, _⟩
    · simp [custodyOf, kept]
    · simp [custodyOf, lost]
  custody_eq intact _ _ range := by
    rcases custody with kept | ⟨_, failed⟩
    · simp [custodyOf, kept]
    · rw [failed] at intact
      cases intact

/-- A holding is dropped with its reservation and its permit. -/
theorem WorkerMove.dropped (h : Holding) (reservation : Reservation) (base : Shared R)
    (exchange : Exchange before after [h] []) (sound : Sound cfg sh.history h)
    (held : h.held = reservation.held) (permit : h.permits = 1)
    (dropped : sh' = base.dropUnit reservation)
    (samePermits : base.freePermits = sh.freePermits) (sameCounters : base.counters = sh.counters)
    (frame : WorkerFrame sh sh')
    (lost : h.custody = none ∨ sh'.workerFailed = true ∨ sh.hardAbort = true ∨
      sh.completionClosed = true) :
    WorkerMove cfg sh sh' before after [h] [] where
  exchange := exchange
  permits := by
    rw [dropped]
    simp [Shared.dropUnit, samePermits, permit]
  bytes := by
    have released := reservation.release_inFlight sh.counters (held ▸ sound.held_small)
    rw [dropped]
    simpa [Shared.dropUnit, sameCounters, held] using released
  width := by
    rw [dropped, Shared.dropUnit, sameCounters]
    exact reservation.release_width sh.counters
  frame := frame
  sound := by simp
  ceiling_le _ := Nat.zero_le _
  custody_le _ := Nat.zero_le _
  custody_eq intact running open_ range := by
    rcases lost with none | failed | aborted | closed
    · simp [custodyOf, none]
    · simp [failed] at intact
    · simp [aborted] at running
    · simp [closed] at open_

end Kinds

/-! ## Weighing the shared queues -/

theorem Shared.total_holdings (weight : Holding → Nat) (sh : Shared R) :
    total weight sh.holdings =
      total (fun unit => weight unit.holding) sh.descriptors +
      total (fun unit => weight unit.holding) sh.fetched +
      total (fun unit => weight unit.holding) sh.sinkCommits +
      total (fun message => total weight message.holdings) sh.completions := by
  simp only [Shared.holdings, total_append, total_map, total_flatMap]

theorem Sound.member {cfg : Config} {history : List Event} {front back : List Holding}
    {h : Holding} (sound : ∀ h ∈ front ++ back, Sound cfg history h) (member : h ∈ back) :
    Sound cfg history h :=
  sound h (List.mem_append_right front member)

/-- A worker that fails keeps its reservation and permit until it has reported. -/
theorem WorkerMove.failed {cfg : Config} {sh : Shared R} {sh' : Shared R} (h : Holding)
    (reservation : Reservation) (sound : Sound cfg sh.history h) (held : h.held = reservation.held)
    (permit : h.permits = 1) (sameQueues : sh'.holdings = sh.holdings)
    (samePermits : sh'.freePermits = sh.freePermits)
    (sameBytes : sh'.counters.inFlight = sh.counters.inFlight) (frame : WorkerFrame sh sh')
    (failed : sh'.workerFailed = true) :
    WorkerMove cfg sh sh' (sh.holdings ++ [h]) (sh'.holdings ++ [spentHolding reservation])
      [h] [spentHolding reservation] := by
  refine WorkerMove.replaced h (spentHolding reservation) ?_ samePermits permit.symm ?_ ?_ frame
    (sound.spent held permit _) ?_ (Or.inr ⟨rfl, failed⟩)
  · intro weight
    simp only [sameQueues, total_append, total_cons, total_nil]
    omega
  · rw [sameBytes, held]
    rfl
  · rw [sameBytes]
    exact id
  · intro limit
    simp only [ceiling, spentHolding, held, Bool.false_eq_true, if_false]
    split
    · exact Nat.min_le_right _ _
    · exact Nat.le_refl _

/-- A worker that ends drops what it holds. -/
theorem WorkerMove.exits {cfg : Config} {sh base : Shared R} (h : Holding)
    (reservation : Reservation) (sound : Sound cfg sh.history h) (held : h.held = reservation.held)
    (permit : h.permits = 1) (sameQueues : base.holdings = sh.holdings)
    (samePermits : base.freePermits = sh.freePermits) (sameCounters : base.counters = sh.counters)
    (frame : WorkerFrame sh (base.dropUnit reservation))
    (lost : h.custody = none ∨ base.workerFailed = true ∨ sh.hardAbort = true ∨
      sh.completionClosed = true) :
    WorkerMove cfg sh (base.dropUnit reservation) (sh.holdings ++ [h])
      ((base.dropUnit reservation).holdings ++ []) [h] [] := by
  refine WorkerMove.dropped h reservation base ?_ sound held permit rfl samePermits sameCounters
    frame lost
  intro weight
  have queues : (base.dropUnit reservation).holdings = sh.holdings := sameQueues
  simp only [queues, total_append, total_cons, total_nil]
  omega

/-- Sending a `Committed` report passes the custody on and keeps the rest. -/
theorem WorkerMove.reports {cfg : Config} {sh : Shared R} (report : CommittedReport)
    (reservation : Reservation)
    (sound : Sound cfg sh.history (reportingHolding report reservation)) :
    WorkerMove cfg sh (sh.complete (.committed report))
      (sh.holdings ++ [reportingHolding report reservation])
      ((sh.complete (.committed report)).holdings ++ [spentHolding reservation])
      [reportingHolding report reservation] [spentHolding reservation, report.holding] where
  exchange := by
    intro weight
    simp only [Shared.total_holdings, Shared.complete, WriteCompletion.holdings, total_append,
      total_cons, total_nil]
    omega
  permits := rfl
  bytes := rfl
  width := id
  frame := .quiet rfl rfl rfl id rfl
  sound := by
    intro h member
    simp only [List.mem_cons, List.not_mem_nil, or_false] at member
    rcases member with rfl | rfl
    · exact sound.spent rfl rfl _
    · exact ⟨Nat.zero_le 1, Nat.zero_le _, fun fresh => (by cases fresh), rfl, sound.evidence⟩
  ceiling_le _ := Nat.le_refl _
  custody_le range := by simp [custodyOf, spentHolding, reportingHolding, CommittedReport.holding]
  custody_eq _ _ _ range := by
    simp [custodyOf, spentHolding, reportingHolding, CommittedReport.holding]

/-- A fatal report, which nobody need hear, ends the worker. -/
theorem WorkerMove.unheard {cfg : Config} {sh : Shared R} (reservation : Reservation)
    (sound : Sound cfg sh.history (spentHolding reservation)) :
    WorkerMove cfg sh (sh.dropUnit reservation) (sh.holdings ++ [spentHolding reservation])
      ((sh.dropUnit reservation).holdings ++ []) [spentHolding reservation] [] :=
  WorkerMove.exits (spentHolding reservation) reservation sound rfl rfl rfl rfl rfl
    (.quiet rfl rfl rfl id rfl) (Or.inl rfl)

theorem WorkerMove.reportsFatal {cfg : Config} {sh : Shared R} (error : RuntimeError)
    (reservation : Reservation) (sound : Sound cfg sh.history (spentHolding reservation)) :
    WorkerMove cfg sh ((sh.complete (.fatal error)).dropUnit reservation)
      (sh.holdings ++ [spentHolding reservation])
      (((sh.complete (.fatal error)).dropUnit reservation).holdings ++ [])
      [spentHolding reservation] [] := by
  refine WorkerMove.exits (spentHolding reservation) reservation sound rfl rfl ?_ rfl rfl
    (.quiet rfl rfl rfl id rfl) (Or.inl rfl)
  simp [Shared.holdings, Shared.complete, WriteCompletion.holdings]

/-- A report of a commit after the actor has gone. -/
theorem WorkerMove.commitUnheard {cfg : Config} {sh : Shared R} (report : CommittedReport)
    (reservation : Reservation)
    (sound : Sound cfg sh.history (reportingHolding report reservation))
    (closed : sh.completionClosed = true) :
    WorkerMove cfg sh (sh.dropUnit reservation)
      (sh.holdings ++ [reportingHolding report reservation])
      ((sh.dropUnit reservation).holdings ++ []) [reportingHolding report reservation] [] :=
  WorkerMove.exits (reportingHolding report reservation) reservation sound rfl rfl rfl rfl rfl
    (.quiet rfl rfl rfl id rfl) (Or.inr (Or.inr (Or.inr closed)))

/-- A worker that holds nothing ends. -/
theorem WorkerMove.nothing {cfg : Config} {sh : Shared R} (held : List Holding) :
    WorkerMove cfg sh sh (sh.holdings ++ held) (sh.holdings ++ held) [] [] :=
  WorkerMove.moved (.refl _) rfl rfl (.quiet rfl rfl rfl id rfl)

theorem WorkerMove.nothingFails {cfg : Config} {sh : Shared R} (held : List Holding) :
    WorkerMove cfg sh sh.fail (sh.holdings ++ held) (sh.fail.holdings ++ held) [] [] :=
  WorkerMove.moved (.refl _) rfl rfl (.quiet rfl rfl rfl (fun _ => rfl) rfl)

/-- What a worker has on its stack: nothing, or one holding with its reservation. -/
inductive OnStack : List Holding → Option Reservation → Prop where
  | nothing : OnStack [] none
  | one (h : Holding) (reservation : Reservation) (held : h.held = reservation.held)
      (permit : h.permits = 1) : OnStack [h] (some reservation)

/-- A worker that panics drops what it holds. -/
theorem OnStack.panics {cfg : Config} {sh : Shared R} {held : List Holding}
    {reservation? : Option Reservation} (stack : OnStack held reservation?)
    (own : ∀ h ∈ held, Sound cfg sh.history h) :
    ∃ old new, WorkerMove cfg sh (dropHeld sh.fail reservation?) (sh.holdings ++ held)
      ((dropHeld sh.fail reservation?).holdings ++ []) old new := by
  cases stack with
  | nothing => exact ⟨[], [], WorkerMove.nothingFails []⟩
  | one h reservation held permit =>
      exact ⟨_, _, WorkerMove.exits h reservation (own h (List.mem_singleton_self h)) held permit
        rfl rfl rfl (.quiet rfl rfl rfl (fun _ => rfl) rfl) (Or.inr (Or.inl rfl))⟩

theorem WorkerMove.quietlyFails {cfg : Config} {sh : Shared R} (h : Holding)
    (reservation : Reservation) (sound : Sound cfg sh.history h) (held : h.held = reservation.held)
    (permit : h.permits = 1) :
    WorkerMove cfg sh sh.fail (sh.holdings ++ [h]) (sh.fail.holdings ++ [spentHolding reservation])
      [h] [spentHolding reservation] :=
  WorkerMove.failed h reservation sound held permit rfl rfl rfl
    (.quiet rfl rfl rfl (fun _ => rfl) rfl) rfl

/-- A worker that hears the abort drops its unit. -/
theorem WorkerMove.abandons {cfg : Config} {sh : Shared R} (h : Holding)
    (reservation : Reservation) (sound : Sound cfg sh.history h) (held : h.held = reservation.held)
    (permit : h.permits = 1) (aborting : sh.hardAbort = true) :
    WorkerMove cfg sh (sh.dropUnit reservation) (sh.holdings ++ [h])
      ((sh.dropUnit reservation).holdings ++ []) [h] [] :=
  WorkerMove.exits h reservation sound held permit rfl rfl rfl (.quiet rfl rfl rfl id rfl)
    (Or.inr (Or.inr (Or.inl aborting)))

/-- The two halves of dropping a reported unit. -/
theorem WorkerMove.releasesBytes {cfg : Config} {sh : Shared R} (reservation : Reservation)
    (sound : Sound cfg sh.history (spentHolding reservation)) :
    WorkerMove cfg sh { sh with counters := reservation.release sh.counters }
      (sh.holdings ++ [spentHolding reservation])
      (Shared.holdings { sh with counters := reservation.release sh.counters } ++ [permitHolding])
      [spentHolding reservation] [permitHolding] := by
  have released := reservation.release_inFlight sh.counters sound.held_small
  refine WorkerMove.replaced _ _ ?_ rfl rfl ?_ (reservation.release_width sh.counters)
    (.quiet rfl rfl rfl id rfl) (sound_permitHolding cfg _) ?_ (Or.inl rfl)
  · intro weight
    simp only [Shared.total_holdings, total_append, total_cons, total_nil]
    omega
  · simpa [permitHolding, spentHolding] using released
  · intro limit
    simp [ceiling, permitHolding]

theorem WorkerMove.releasesPermit {cfg : Config} {sh : Shared R} :
    WorkerMove cfg sh { sh with freePermits := sh.freePermits + 1 }
      (sh.holdings ++ [permitHolding])
      (Shared.holdings { sh with freePermits := sh.freePermits + 1 } ++ [])
      [permitHolding] [] where
  exchange := by
    intro weight
    simp only [Shared.total_holdings, total_append, total_cons, total_nil]
    omega
  permits := rfl
  bytes := rfl
  width := id
  frame := .quiet rfl rfl rfl id rfl
  sound := by simp
  ceiling_le _ := Nat.zero_le _
  custody_le _ := Nat.zero_le _
  custody_eq _ _ _ range := by simp [custodyOf, permitHolding]

/-! ## Fetch workers -/

theorem FetchPoint.onStack (p : FetchPoint) : OnStack p.holdings p.reservation? := by
  cases p with
  | recv => exact .nothing
  | exited result => exact .nothing
  | _ => exact .one _ _ rfl rfl

theorem stepFetch_move {cfg : Config} {killed decodersGone : Bool} {sh sh' : Shared R}
    {p p' : FetchPoint} {action : FetchAction}
    (sound : ∀ h ∈ sh.holdings ++ p.holdings, Sound cfg sh.history h)
    (taken : stepFetch cfg killed decodersGone sh p action = some (p', sh')) :
    ∃ old new, WorkerMove cfg sh sh' (sh.holdings ++ p.holdings) (sh'.holdings ++ p'.holdings)
      old new := by
  have own : ∀ h ∈ p.holdings, Sound cfg sh.history h := fun h => Sound.member sound
  cases fetchStep_of_stepFetch taken with
  | takes unit rest queue =>
      refine ⟨[], [], WorkerMove.moved ?_ rfl (by simp) (.quiet rfl rfl rfl id rfl)⟩
      intro weight
      have unchanged : (AdmittedDescriptor.mk unit.descriptor
          (unit.reservation.attachStage .fetch sh.counters).1).holding = unit.holding := rfl
      simp only [Shared.total_holdings, FetchPoint.holdings, total_append, total_cons, total_nil,
        queue, unchanged]
      omega
  | fetches unit fetched batch read => exact ⟨[], [], WorkerMove.nothing [unit.holding]⟩
  | fetchFails unit fetched error failed =>
      exact ⟨_, _, WorkerMove.quietlyFails unit.holding unit.reservation
        (own _ (List.mem_singleton_self _)) rfl rfl⟩
  | cutOff unit gone =>
      exact ⟨_, _, WorkerMove.quietlyFails unit.holding unit.reservation
        (own _ (List.mem_singleton_self _)) rfl rfl⟩
  | sends unit notGone room =>
      refine ⟨[], [], WorkerMove.moved ?_ rfl rfl (.quiet rfl rfl rfl id rfl)⟩
      intro weight
      simp only [Shared.total_holdings, FetchPoint.holdings, total_append, total_cons, total_nil]
      omega
  | unheard error reservation closed =>
      exact ⟨_, _, WorkerMove.unheard reservation (own _ (List.mem_singleton_self _))⟩
  | reports error reservation notClosed room =>
      exact ⟨_, _, WorkerMove.reportsFatal error reservation (own _ (List.mem_singleton_self _))⟩
  | leaves queue closed => exact ⟨[], [], WorkerMove.nothing []⟩
  | aborts aborting => exact ⟨[], [], WorkerMove.nothing []⟩
  | abandons unit aborting =>
      exact ⟨_, _, WorkerMove.abandons unit.holding unit.reservation
        (own _ (List.mem_singleton_self _)) rfl rfl aborting⟩
  | isKilled killing => exact ⟨[], [], WorkerMove.nothingFails []⟩
  | panics _ message alive => exact p.onStack.panics own

/-! ## Decode workers -/

theorem checkDecoded_ok {decoder : Decoder R} {unit : FetchedBatch} {decoded : DecodedBatch R}
    (accepted : checkDecoded decoder unit = .ok decoded) :
    decoder.decode unit.sourceBatch = .ok [decoded] ∧
      decoded.lowSequence = unit.admittedSequence ∧
      decoded.highSequence = unit.admittedSequence := by
  unfold checkDecoded at accepted
  simp only at accepted
  split_ifs at accepted
  split at accepted
  case h_1 => cases accepted
  case h_2 => cases accepted
  case h_3 one decodes =>
    split_ifs at accepted with mismatch
    cases accepted
    rw [not_or, not_not, not_not] at mismatch
    exact ⟨decodes, mismatch.1, mismatch.2⟩
  case h_4 => cases accepted

section Typed

variable [TypedRecords R]

theorem decodeOne_error {cfg : Config} {decoder : Decoder R} {unit : FetchedBatch}
    {k k' : Counters Stage} {error : RuntimeError} {reservation : Reservation}
    (failed : decodeOne cfg decoder unit k = (.error error, reservation, k')) :
    reservation = unit.reservation ∧ k' = k := by
  simp only [decodeOne] at failed
  split at failed
  · cases failed
    exact ⟨rfl, rfl⟩
  · split_ifs at failed
    · cases failed
      exact ⟨rfl, rfl⟩
    · cases failed
    · cases failed

/-- What `decode_one` has checked and done when it returns `Ok`. -/
theorem decodeOne_ok {cfg : Config} {decoder : Decoder R} {unit : FetchedBatch}
    {k k' : Counters Stage} {outcome : DecodeOutcome R} {reservation : Reservation}
    (decoded : decodeOne cfg decoder unit k = (.ok outcome, reservation, k')) :
    ∃ batch, checkDecoded decoder unit = .ok batch ∧ actualBytes batch ≤ cfg.bp.faultLimit ∧
      reservation = (unit.reservation.reconcile (actualBytes batch) k).1 ∧
      k' = (unit.reservation.reconcile (actualBytes batch) k).2 ∧
      outcome = if cfg.dryRun then
          .dryRun (batch.lowSequence, batch.highSequence)
            (TypedRecords.recordCount batch.records)
        else .live (buildCommit cfg.sinkId batch.lowSequence batch.highSequence batch)
          (batch.lowSequence, batch.highSequence) := by
  simp only [decodeOne] at decoded
  split at decoded
  case h_1 => cases decoded
  case h_2 batch accepted =>
    split_ifs at decoded with oversize dry
    · cases decoded
    · cases decoded
      exact ⟨batch, accepted, Nat.le_of_not_lt oversize, rfl, rfl, by simp [dry]⟩
    · cases decoded
      exact ⟨batch, accepted, Nat.le_of_not_lt oversize, rfl, rfl, by simp [dry]⟩

omit [TypedRecords R] in
/-- A reconciled unit against the one that was decoding. -/
theorem WorkerMove.reconciles {cfg : Config} {sh : Shared R} (unit : FetchedBatch) (actual : Nat)
    (h' : Holding) (sound : Sound cfg sh.history unit.holding)
    (within : actual ≤ cfg.bp.faultLimit) (permit : h'.permits = 1) (held : h'.held = actual)
    (settled : h'.fresh = false) (aligned : h'.aligned = true)
    (evidence : cfg.dryRun = false → h'.reported = false)
    (custody : h'.custody = unit.holding.custody) :
    WorkerMove cfg sh { sh with counters := (unit.reservation.reconcile actual sh.counters).2 }
      (sh.holdings ++ [unit.holding])
      (Shared.holdings { sh with
        counters := (unit.reservation.reconcile actual sh.counters).2 } ++ [h'])
      [unit.holding] [h'] := by
  have moved := unit.reservation.reconcile_inFlight actual sh.counters sound.held_small
  have peak : actual ≤ cfg.peak := le_trans within (Nat.le_max_right _ _)
  refine WorkerMove.replaced _ _ ?_ rfl permit ?_
    (unit.reservation.reconcile_width actual sh.counters) (.quiet rfl rfl rfl id rfl) ?_ ?_
    (Or.inl custody)
  · intro weight
    simp only [Shared.total_holdings, total_append, total_cons, total_nil]
    omega
  · rw [held]
    exact moved
  · refine ⟨permit.le, ?_, ?_, aligned, ?_⟩
    · rw [permit, held]
      omega
    · intro fresh
      rw [settled] at fresh
      cases fresh
    · intro live reported
      rw [evidence live] at reported
      cases reported
  · intro limit
    have reconciled : ceiling limit h' = min actual limit := by simp [ceiling, settled, held]
    rw [reconciled]
    exact Nat.min_le_right _ _

omit [TypedRecords R] in
theorem DecodePoint.onStack (p : DecodePoint R) : OnStack p.holdings p.reservation? := by
  cases p with
  | recv => exact .nothing
  | exited result => exact .nothing
  | _ => exact .one _ _ rfl rfl

theorem stepDecode_move {cfg : Config} {fetchersGone writersGone : Bool} {sh sh' : Shared R}
    {p p' : DecodePoint R} {action : DecodeAction R}
    (sound : ∀ h ∈ sh.holdings ++ p.holdings, Sound cfg sh.history h)
    (taken : stepDecode cfg fetchersGone writersGone sh p action = some (p', sh')) :
    ∃ old new, WorkerMove cfg sh sh' (sh.holdings ++ p.holdings) (sh'.holdings ++ p'.holdings)
      old new := by
  have own : ∀ h ∈ p.holdings, Sound cfg sh.history h := fun h => Sound.member sound
  cases decodeStep_of_stepDecode taken with
  | takes unit rest queue =>
      refine ⟨[], [], WorkerMove.moved ?_ rfl (by simp) (.quiet rfl rfl rfl id rfl)⟩
      intro weight
      have unchanged : (FetchedBatch.mk unit.sourceBatch
          (unit.reservation.attachStage .decode sh.counters).1
          unit.admittedSequence).holding = unit.holding := rfl
      simp only [Shared.total_holdings, DecodePoint.holdings, total_append, total_cons, total_nil,
        queue, unchanged]
      omega
  | decodes unit decoder commit range reservation k decoded =>
      obtain ⟨batch, accepted, within, rfl, rfl, outcome⟩ := decodeOne_ok decoded
      obtain ⟨_, low, high⟩ := checkDecoded_ok accepted
      split_ifs at outcome with dry
      cases outcome
      refine ⟨_, _, WorkerMove.reconciles unit (actualBytes batch) _
        (own _ (List.mem_singleton_self _)) within rfl (ByteReservation.reconcile_held _ _ _) rfl
        ?_ (fun _ => rfl) ?_⟩
      · simp [SinkCommitEnvelope.holding, buildCommit]
      · simp [SinkCommitEnvelope.holding, rangeOf, low, high, FetchedBatch.holding]
  | decodesDry unit decoder range rowsWritten reservation k decoded =>
      obtain ⟨batch, accepted, within, rfl, rfl, outcome⟩ := decodeOne_ok decoded
      obtain ⟨_, low, high⟩ := checkDecoded_ok accepted
      split_ifs at outcome with dry
      cases outcome
      refine ⟨_, _, WorkerMove.reconciles unit (actualBytes batch) _
        (own _ (List.mem_singleton_self _)) within rfl (ByteReservation.reconcile_held _ _ _) rfl
        rfl ?_ ?_⟩
      · intro live
        rw [dry] at live
        cases live
      · simp [rangeOf, low, high, FetchedBatch.holding, reportingHolding]
  | decodeFails unit decoder error reservation k failed =>
      obtain ⟨rfl, rfl⟩ := decodeOne_error failed
      exact ⟨_, _, WorkerMove.quietlyFails unit.holding unit.reservation
        (own _ (List.mem_singleton_self _)) rfl rfl⟩
  | cutOff unit gone =>
      exact ⟨_, _, WorkerMove.quietlyFails unit.holding unit.reservation
        (own _ (List.mem_singleton_self _)) rfl rfl⟩
  | sends unit notGone room =>
      refine ⟨[], [], WorkerMove.moved ?_ rfl rfl (.quiet rfl rfl rfl id rfl)⟩
      intro weight
      simp only [Shared.total_holdings, DecodePoint.holdings, total_append, total_cons, total_nil]
      omega
  | dryRunUnheard report reservation closed =>
      exact ⟨_, _, WorkerMove.commitUnheard report reservation
        (own _ (List.mem_singleton_self _)) closed⟩
  | reportsDryRun report reservation notClosed room =>
      exact ⟨_, _, WorkerMove.reports report reservation (own _ (List.mem_singleton_self _))⟩
  | unheard error reservation closed =>
      exact ⟨_, _, WorkerMove.unheard reservation (own _ (List.mem_singleton_self _))⟩
  | reports error reservation notClosed room =>
      exact ⟨_, _, WorkerMove.reportsFatal error reservation (own _ (List.mem_singleton_self _))⟩
  | releasesBytes reservation =>
      exact ⟨_, _, WorkerMove.releasesBytes reservation (own _ (List.mem_singleton_self _))⟩
  | releasesPermit => exact ⟨_, _, WorkerMove.releasesPermit⟩
  | leaves queue gone => exact ⟨[], [], WorkerMove.nothing []⟩
  | aborts aborting => exact ⟨[], [], WorkerMove.nothing []⟩
  | abandons unit aborting =>
      exact ⟨_, _, WorkerMove.abandons unit.holding unit.reservation
        (own _ (List.mem_singleton_self _)) rfl rfl aborting⟩
  | panics _ message alive => exact p.onStack.panics own

end Typed

/-! ## Writer workers -/

/-- The unit a writer holds, with the sink event of the step recorded. -/
theorem WorkerMove.records {cfg : Config} {sh : Shared R} (event : Event) (held : List Holding)
    (fromSink : event.fromSink = true) :
    WorkerMove cfg sh (sh.record event) (sh.holdings ++ held)
      ((sh.record event).holdings ++ held) [] [] :=
  WorkerMove.moved (.refl _) rfl rfl (.recorded event rfl rfl rfl id fromSink rfl)

theorem WorkerMove.failsRecorded {cfg : Config} {sh : Shared R} (event : Event)
    (unit : SinkCommitEnvelope R) (fromSink : event.fromSink = true)
    (sound : Sound cfg sh.history unit.holding) :
    WorkerMove cfg sh (sh.record event).fail (sh.holdings ++ [unit.holding])
      ((sh.record event).fail.holdings ++ [spentHolding unit.reservation])
      [unit.holding] [spentHolding unit.reservation] :=
  WorkerMove.failed unit.holding unit.reservation sound rfl rfl rfl rfl rfl
    (.recorded event rfl rfl rfl (fun _ => rfl) fromSink rfl) rfl

/-- The sink's answer proves the range of the unit committed. -/
theorem WorkerMove.commits {cfg : Config} {sh : Shared R} (event : Event)
    (unit : SinkCommitEnvelope R) (rowsWritten : Nat) (fromSink : event.fromSink = true)
    (sound : Sound cfg sh.history unit.holding)
    (commits : event.commits
      (unit.commit.identity.range.low.val, unit.commit.identity.range.high.val)) :
    WorkerMove cfg sh (sh.record event) (sh.holdings ++ [unit.holding])
      ((sh.record event).holdings ++
        [reportingHolding ⟨unit.range, rowsWritten⟩ unit.reservation])
      [unit.holding] [reportingHolding ⟨unit.range, rowsWritten⟩ unit.reservation] := by
  have sameRange : unit.commit.identity.range = ⟨unit.range.1, unit.range.2⟩ :=
    of_decide_eq_true sound.aligned
  refine WorkerMove.replaced _ _ ?_ rfl rfl rfl id (.recorded event rfl rfl rfl id fromSink rfl)
    ⟨Nat.le_refl 1, sound.held_le, fun fresh => (by cases fresh), rfl, ?_⟩
    (fun _ => Nat.le_refl _) (Or.inl rfl)
  · intro weight
    simp only [Shared.total_holdings, Shared.record, total_append, total_cons, total_nil]
    omega
  · intro _ _ range custody
    cases custody
    refine ⟨event, List.mem_cons_self, ?_⟩
    rw [sameRange] at commits
    exact commits

theorem NotCommitted.holdings {p : WriterPoint R} {action : WriterAction} {attempt : Nat}
    {unit : SinkCommitEnvelope R} {error : BoxError} {event : Event}
    (answered : NotCommitted p action attempt unit error event) :
    p.holdings = [unit.holding] := by
  cases answered with
  | write => rfl
  | check => rfl

theorem NotCommitted.fromSink {p : WriterPoint R} {action : WriterAction} {attempt : Nat}
    {unit : SinkCommitEnvelope R} {error : BoxError} {event : Event}
    (answered : NotCommitted p action attempt unit error event) : event.fromSink = true := by
  cases answered with
  | write => rfl
  | check => rfl

theorem InWriteWithRetry.holdings {p : WriterPoint R} {unit : SinkCommitEnvelope R}
    {message : String} (inRetry : InWriteWithRetry p unit message) :
    p.holdings = [unit.holding] := by
  cases inRetry with
  | writing => rfl
  | checking => rfl
  | backingOff => rfl

theorem WriterPoint.onStack (p : WriterPoint R) : OnStack p.holdings p.reservation? := by
  cases p with
  | recv => exact .nothing
  | exited result => exact .nothing
  | _ => exact .one _ _ rfl rfl

theorem stepWriter_move {cfg : Config} {decodersGone : Bool} {sh sh' : Shared R}
    {p p' : WriterPoint R} {action : WriterAction}
    (sound : ∀ h ∈ sh.holdings ++ p.holdings, Sound cfg sh.history h)
    (taken : stepWriter cfg decodersGone sh p action = some (p', sh')) :
    ∃ old new, WorkerMove cfg sh sh' (sh.holdings ++ p.holdings) (sh'.holdings ++ p'.holdings)
      old new := by
  have own : ∀ h ∈ p.holdings, Sound cfg sh.history h := fun h => Sound.member sound
  cases writerStep_of_stepWriter taken with
  | takes unit rest queue =>
      refine ⟨[], [], WorkerMove.moved ?_ rfl (by simp [Shared.record])
        (.recorded _ rfl rfl rfl id rfl rfl)⟩
      intro weight
      have unchanged : (SinkCommitEnvelope.mk unit.commit unit.range
          (unit.reservation.attachStage .sinkDispatch sh.counters).1).holding =
            unit.holding := rfl
      simp only [Shared.total_holdings, Shared.record, WriterPoint.holdings, total_append,
        total_cons, total_nil, queue, unchanged]
      omega
  | writes attempt unit result =>
      exact ⟨_, _, WorkerMove.commits _ unit result.rowsWritten rfl
        (own _ (List.mem_singleton_self _)) rfl⟩
  | writeFails attempt unit error =>
      exact ⟨_, _, WorkerMove.failsRecorded _ unit rfl (own _ (List.mem_singleton_self _))⟩
  | writeUnclear attempt unit error => exact ⟨_, _, WorkerMove.records _ _ rfl⟩
  | finds attempt unit error =>
      exact ⟨_, _, WorkerMove.commits _ unit 0 rfl (own _ (List.mem_singleton_self _)) rfl⟩
  | checkFails attempt unit error failure =>
      exact ⟨_, _, WorkerMove.failsRecorded _ unit rfl (own _ (List.mem_singleton_self _))⟩
  | retries _ _ attempt unit error event answered left =>
      rw [answered.holdings]
      exact ⟨_, _, WorkerMove.records event _ answered.fromSink⟩
  | givesUp _ _ attempt unit error event answered spent =>
      rw [answered.holdings] at own ⊢
      exact ⟨_, _, WorkerMove.failsRecorded event unit answered.fromSink
        (own _ (List.mem_singleton_self _))⟩
  | wakes attempt unit => exact ⟨_, _, WorkerMove.records _ _ rfl⟩
  | commitUnheard report reservation closed =>
      exact ⟨_, _, WorkerMove.commitUnheard report reservation
        (own _ (List.mem_singleton_self _)) closed⟩
  | reportsCommit report reservation notClosed room =>
      exact ⟨_, _, WorkerMove.reports report reservation (own _ (List.mem_singleton_self _))⟩
  | unheard error reservation closed =>
      exact ⟨_, _, WorkerMove.unheard reservation (own _ (List.mem_singleton_self _))⟩
  | reports error reservation notClosed room =>
      exact ⟨_, _, WorkerMove.reportsFatal error reservation (own _ (List.mem_singleton_self _))⟩
  | releasesBytes reservation =>
      exact ⟨_, _, WorkerMove.releasesBytes reservation (own _ (List.mem_singleton_self _))⟩
  | releasesPermit => exact ⟨_, _, WorkerMove.releasesPermit⟩
  | leaves queue gone => exact ⟨[], [], WorkerMove.nothing []⟩
  | aborts aborting => exact ⟨[], [], WorkerMove.nothing []⟩
  | abandons _ unit message inRetry aborting =>
      rw [inRetry.holdings] at own ⊢
      exact ⟨_, _, WorkerMove.quietlyFails unit.holding unit.reservation
        (own _ (List.mem_singleton_self _)) rfl rfl⟩
  | panics _ message alive => exact p.onStack.panics own

end OpendataIngest.Runtime.Pipeline
