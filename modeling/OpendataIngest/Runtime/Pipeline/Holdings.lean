import OpendataIngest.Runtime.AckCoordinatorSpec
import OpendataIngest.Runtime.Pipeline.System

/-!
# Who holds what

Every place a unit can be in is described by what it holds there: the custody of an
admitted range, batch permits and bytes.  A step takes some holdings out of the system
and puts others in; the accounts below follow from how much the two sides weigh.

A `Committed` report in the completion channel has the custody of its range and
nothing else; the worker that sent it keeps the bytes and the permit a little longer.
-/

set_option autoImplicit false

namespace OpendataIngest.Runtime.Pipeline

open MachineInt Pool

variable {R : Type}

/-- `fresh` says that the reservation has its admission size, `reported` that the range
is in a `Committed` report, `aligned` that the commit identity names the same range as
the envelope around it. -/
structure Holding where
  custody : Option Range
  permits : Nat
  held : Nat
  fresh : Bool
  reported : Bool
  aligned : Bool
  deriving DecidableEq

/-! ## The holdings of each place -/

def rangeOf (range : U64 × U64) : Range := (range.1.val, range.2.val)

/-- A permit without a reservation. -/
def permitHolding : Holding := ⟨none, 1, 0, false, false, true⟩

def gateHolding (gate : Reservation) : Holding := ⟨none, 1, gate.held, true, false, true⟩

/-- What is left of a unit whose range is reported, or lost. -/
def spentHolding (reservation : Reservation) : Holding :=
  ⟨none, 1, reservation.held, false, false, true⟩

def AdmittedDescriptor.holding (unit : AdmittedDescriptor) : Holding :=
  ⟨some (unit.descriptor.sequence.val, unit.descriptor.sequence.val), 1, unit.reservation.held,
    true, false, true⟩

def FetchedBatch.holding (unit : FetchedBatch) : Holding :=
  ⟨some (unit.admittedSequence.val, unit.admittedSequence.val), 1, unit.reservation.held,
    true, false, true⟩

def SinkCommitEnvelope.holding (unit : SinkCommitEnvelope R) : Holding :=
  ⟨some (rangeOf unit.range), 1, unit.reservation.held, false, false,
    decide (unit.commit.identity.range = ⟨unit.range.1, unit.range.2⟩)⟩

def CommittedReport.holding (report : CommittedReport) : Holding :=
  ⟨some (rangeOf report.range), 0, 0, false, true, true⟩

/-- A worker that still has to send its report. -/
def reportingHolding (report : CommittedReport) (reservation : Reservation) : Holding :=
  ⟨some (rangeOf report.range), 1, reservation.held, false, true, true⟩

def WriteCompletion.holdings : WriteCompletion → List Holding
  | .committed report => [report.holding]
  | .fatal _ => []

def FetchPoint.holdings : FetchPoint → List Holding
  | .recv => []
  | .fetching unit => [unit.holding]
  | .sending unit => [unit.holding]
  | .reportingFatal _ reservation => [spentHolding reservation]
  | .exited _ => []

def DecodePoint.holdings : DecodePoint R → List Holding
  | .recv => []
  | .decoding unit => [unit.holding]
  | .sending unit => [unit.holding]
  | .reportingDryRun report reservation => [reportingHolding report reservation]
  | .releasingBytes reservation => [spentHolding reservation]
  | .releasingPermit => [permitHolding]
  | .reportingFatal _ reservation => [spentHolding reservation]
  | .exited _ => []

def WriterPoint.holdings : WriterPoint R → List Holding
  | .recv => []
  | .writing _ unit => [unit.holding]
  | .checking _ unit _ => [unit.holding]
  | .backingOff _ unit => [unit.holding]
  | .reportingCommitted report reservation => [reportingHolding report reservation]
  | .releasingBytes reservation => [spentHolding reservation]
  | .releasingPermit => [permitHolding]
  | .reportingFatal _ reservation => [spentHolding reservation]
  | .exited _ => []

def ActorPoint.holdings : ActorPoint → List Holding
  | .select true => [permitHolding]
  | .measuring gate => [gateHolding gate]
  | .counting gate _ => [gateHolding gate]
  | .extending gates _ => gates.map gateHolding
  | .extendingBytes gates _ => permitHolding :: gates.map gateHolding
  | .polling gates => gates.map gateHolding
  | .sending rest => rest.map AdmittedDescriptor.holding
  | _ => []

def Shared.holdings (sh : Shared R) : List Holding :=
  sh.descriptors.map AdmittedDescriptor.holding ++ sh.fetched.map FetchedBatch.holding ++
    sh.sinkCommits.map SinkCommitEnvelope.holding ++
    sh.completions.flatMap WriteCompletion.holdings

def State.holdings (s : State R) : List Holding :=
  s.shared.holdings ++ s.actor.point.holdings ++ s.fetchers.flatMap FetchPoint.holdings ++
    s.decoders.flatMap DecodePoint.holdings ++ s.writers.flatMap WriterPoint.holdings

/-! ## Weights -/

/-- Whether a holding has the custody of `range`. -/
def custodyOf (range : Range) (h : Holding) : Nat := if h.custody = some range then 1 else 0

/-- The size a reservation may have after its batch is decoded, or before. -/
def Config.peak (cfg : Config) : Nat := max cfg.estimate cfg.bp.faultLimit

/-- The bytes of a holding up to `limit`, with a unit that is not decoded yet put there. -/
def ceiling (limit : Nat) (h : Holding) : Nat := if h.fresh then limit else min h.held limit

theorem peak_le_u64Max (cfg : Config) : cfg.peak ≤ u64Max := by
  have estimate := val_le_u64Max cfg.bp.estimatedMaxBatchBytes
  simp only [Config.peak, Config.estimate, SourceBackpressureOptions.faultLimit, saturatingMul]
  omega

/-! ## What holds of every holding -/

/-- The events that prove a range committed. -/
def Event.commits (range : Range) : Event → Prop
  | .sinkWriteReturned identity (.ok _) =>
      (identity.range.low.val, identity.range.high.val) = range
  | .checkCommittedReturned identity (.ok .committed) =>
      (identity.range.low.val, identity.range.high.val) = range
  | _ => False

def CommitSeen (history : List Event) (range : Range) : Prop :=
  ∃ event ∈ history, event.commits range

structure Sound (cfg : Config) (history : List Event) (h : Holding) : Prop where
  permits_le : h.permits ≤ 1
  held_le : h.held ≤ h.permits * cfg.peak
  fresh_held : h.fresh = true → h.held = cfg.estimate ∧ h.permits = 1
  aligned : h.aligned = true
  evidence : cfg.dryRun = false → h.reported = true →
    ∀ range, h.custody = some range → CommitSeen history range

theorem CommitSeen.mono {older : List Event} {range : Range} (seen : CommitSeen older range)
    (newer : List Event) :
    CommitSeen (newer ++ older) range := by
  obtain ⟨event, member, commits⟩ := seen
  exact ⟨event, List.mem_append_right newer member, commits⟩

theorem Sound.mono {cfg : Config} {older : List Event} {h : Holding} (sound : Sound cfg older h)
    (newer : List Event) : Sound cfg (newer ++ older) h where
  permits_le := sound.permits_le
  held_le := sound.held_le
  fresh_held := sound.fresh_held
  aligned := sound.aligned
  evidence live reported range custody := (sound.evidence live reported range custody).mono _

theorem Sound.held_le_peak {cfg : Config} {history : List Event} {h : Holding}
    (sound : Sound cfg history h) : h.held ≤ cfg.peak := by
  have scaled := Nat.mul_le_mul_right cfg.peak sound.permits_le
  have held := sound.held_le
  omega

theorem Sound.held_small {cfg : Config} {history : List Event} {h : Holding}
    (sound : Sound cfg history h) : h.held ≤ u64Max :=
  le_trans sound.held_le_peak (peak_le_u64Max cfg)

/-- At the peak, only a unit that is not decoded counts more than it holds. -/
theorem Sound.ceiling_peak {cfg : Config} {history : List Event} {h : Holding}
    (sound : Sound cfg history h) :
    ceiling cfg.peak h = if h.fresh then cfg.peak else h.held := by
  rw [ceiling, Nat.min_eq_left sound.held_le_peak]

theorem Sound.ceiling_le {cfg : Config} {history : List Event} {h : Holding}
    (sound : Sound cfg history h) : ceiling cfg.peak h ≤ h.permits * cfg.peak := by
  rw [sound.ceiling_peak]
  split
  case isTrue fresh =>
    rw [(sound.fresh_held fresh).2]
    omega
  case isFalse => exact sound.held_le

theorem Sound.held_le_ceiling {cfg : Config} {history : List Event} {h : Holding}
    (sound : Sound cfg history h) : h.held ≤ ceiling cfg.peak h := by
  rw [sound.ceiling_peak]
  split
  case isTrue fresh =>
    rw [(sound.fresh_held fresh).1]
    exact Nat.le_max_left _ _
  case isFalse => exact Nat.le_refl _

theorem sound_permitHolding (cfg : Config) (history : List Event) :
    Sound cfg history permitHolding where
  permits_le := Nat.le_refl 1
  held_le := Nat.zero_le _
  fresh_held fresh := by cases fresh
  aligned := rfl
  evidence _ reported := by cases reported

/-- A reservation that has lost its range stays within the limits it had. -/
theorem Sound.spent {cfg : Config} {history : List Event} {h : Holding} {reservation : Reservation}
    (sound : Sound cfg history h) (sameHeld : h.held = reservation.held) (permit : h.permits = 1)
    (newer : List Event) : Sound cfg newer (spentHolding reservation) where
  permits_le := Nat.le_refl 1
  held_le := by
    have bound := sound.held_le
    rw [permit, sameHeld] at bound
    exact bound
  fresh_held fresh := by cases fresh
  aligned := rfl
  evidence _ reported := by cases reported

/-! ## Settling the accounts of a step -/

/-- Permits and bytes move by exactly what the exchanged holdings weigh. -/
structure Settles (sh sh' : Shared R) (before after old new : List Holding) : Prop where
  exchange : Exchange before after old new
  permits : sh'.freePermits + total Holding.permits new =
    sh.freePermits + total Holding.permits old
  bytes : (sh'.counters.inFlight + total Holding.held old) % 2 ^ 64 =
    (sh.counters.inFlight + total Holding.held new) % 2 ^ 64
  width : sh.counters.inFlight < 2 ^ 64 → sh'.counters.inFlight < 2 ^ 64

theorem Settles.move {sh sh' : Shared R} {before after : List Holding}
    (exchange : Exchange before after [] []) (samePermits : sh'.freePermits = sh.freePermits)
    (sameBytes : sh'.counters.inFlight = sh.counters.inFlight) :
    Settles sh sh' before after [] [] := by
  refine ⟨exchange, ?_, ?_, ?_⟩
  · rw [samePermits]
  · rw [sameBytes]
  · rw [sameBytes]
    exact id

/-! ## Conservation of custody -/

def Event.registers (range : Range) : Event → Nat
  | .registered sequence => if (sequence, sequence) = range then 1 else 0
  | _ => 0

def Event.marks (range : Range) : Event → Nat
  | .markedCommitted low high => if (low, high) = range then 1 else 0
  | _ => 0

def registrations (range : Range) (history : List Event) : Nat :=
  total (Event.registers range) history

def marks (range : Range) (history : List Event) : Nat := total (Event.marks range) history

/-- The history grew by events that neither register nor mark a range. -/
def SameMarks (older newer : List Event) : Prop :=
  ∀ range, marks range newer = marks range older ∧
    registrations range newer = registrations range older

/-- Events that neither register nor mark. -/
def Neutral (events : List Event) : Prop :=
  ∀ range, total (Event.marks range) events = 0 ∧ total (Event.registers range) events = 0

theorem SameMarks.refl (history : List Event) : SameMarks history history :=
  fun _ => ⟨rfl, rfl⟩

theorem Neutral.sameMarks (events : List Event) (neutral : Neutral events) (older : List Event) :
    SameMarks older (events ++ older) := by
  intro range
  simp only [marks, registrations, total_append, (neutral range).1, (neutral range).2,
    Nat.zero_add, and_self]

/-- A registration creates the custody of its range, a mark ends it, and nothing else
does; a failure may lose it. -/
structure Conserves (sh sh' : Shared R) (old new : List Holding) : Prop where
  le : ∀ range, total (custodyOf range) new + marks range sh'.history +
      registrations range sh.history ≤
    total (custodyOf range) old + marks range sh.history + registrations range sh'.history
  eq : Intact sh' → ∀ range, total (custodyOf range) new + marks range sh'.history +
      registrations range sh.history =
    total (custodyOf range) old + marks range sh.history + registrations range sh'.history

theorem Conserves.neutral {sh sh' : Shared R} {old new : List Holding}
    (books : SameMarks sh.history sh'.history)
    (same : ∀ range, total (custodyOf range) new = total (custodyOf range) old) :
    Conserves sh sh' old new := by
  refine ⟨?_, fun _ => ?_⟩
  all_goals
    intro range
    rw [same range, (books range).1, (books range).2]

theorem Conserves.lost {sh sh' : Shared R} {old : List Holding}
    (books : SameMarks sh.history sh'.history) (broken : ¬ Intact sh') :
    Conserves sh sh' old [] := by
  refine ⟨?_, fun intact => absurd intact broken⟩
  intro range
  rw [(books range).1, (books range).2, total_nil]
  omega

/-- The accounts of any step.  Only a successful reservation raises what the holdings may
come to weigh, and it has tested `in_flight` against the capacity. -/
structure StepSettles (cfg : Config) (sh sh' : Shared R)
    (before after old new : List Holding) : Prop extends
    Settles sh sh' before after old new where
  sound : ∀ h ∈ new, Sound cfg sh'.history h
  history : ∃ events, sh'.history = events ++ sh.history
  claim : (∀ limit ≤ cfg.peak, total (ceiling limit) new ≤ total (ceiling limit) old) ∨
    total Holding.held new = total Holding.held old + cfg.estimate ∧
      (cfg.capacity < u64Max → sh.counters.inFlight + cfg.estimate ≤ cfg.capacity)
  custody : Conserves sh sh' old new

end OpendataIngest.Runtime.Pipeline
