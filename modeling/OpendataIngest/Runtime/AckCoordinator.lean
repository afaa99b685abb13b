import OpendataIngest.Lib.SortedMap
import OpendataIngest.Runtime.Types

/-!
# The per-source ack coordinator

`AckCoordinator` of `ack_coordinator.rs`.  The methods take `&mut self`, so each
function returns the coordinator next to the method's result, on the error paths
too.  The five guards of `register_pending` are named and tried in source order.
-/

set_option autoImplicit false

namespace OpendataIngest.Runtime

open MachineInt

structure PendingRange where
  low : Nat
  high : Nat
  sinkCommitted : Bool
  deriving DecidableEq, Repr

structure AckCoordinator where
  source : SourceId
  initialFrontierBaseline : Option Nat
  effectiveBaseline : Option Nat
  baselineFixed : Bool
  ackedFrontier : Option Nat
  lastRegisteredHigh : Option Nat
  pending : SortedMap Nat PendingRange

namespace AckCoordinator

def new (source : SourceId) (initialFrontierBaseline : Option Nat) : AckCoordinator where
  source := source
  initialFrontierBaseline := initialFrontierBaseline
  effectiveBaseline := initialFrontierBaseline
  baselineFixed := initialFrontierBaseline.isSome
  ackedFrontier := none
  lastRegisteredHigh := none
  pending := SortedMap.empty

def frontier (c : AckCoordinator) : Option Nat := c.ackedFrontier

def pendingCount (c : AckCoordinator) : Nat := c.pending.size

/-! ## `register_pending` -/

def invalidRange (low high : Nat) : Option RuntimeError :=
  if low > high then some (.ack s!"invalid range: low={low} > high={high}") else none

/-- INV-FRONTIER-BASELINE-FLOOR: the first range under a supplied baseline. -/
def belowBaseline (c : AckCoordinator) (low : Nat) : Option RuntimeError :=
  match c.lastRegisteredHigh, c.initialFrontierBaseline with
  | none, some baseline =>
      let expected := saturatingAdd baseline 1
      if low ≠ expected then
        some (.ack s!"first range low={low} != baseline+1={expected}")
      else none
  | _, _ => none

/-- INV-ADMISSION-CONTIGUOUS: every later range. -/
def nonContiguous (c : AckCoordinator) (low : Nat) : Option RuntimeError :=
  match c.lastRegisteredHigh with
  | some previousHigh =>
      let expected := saturatingAdd previousHigh 1
      if low ≠ expected then
        some (.ack (s!"non-contiguous admission on source {c.source}: " ++
          s!"last_high={previousHigh}, expected low={expected}, got low={low}"))
      else none
  | none => none

def alreadyAcked (c : AckCoordinator) (low : Nat) : Option RuntimeError :=
  match c.ackedFrontier with
  | some f =>
      if low ≤ f then
        some (.ack s!"range low={low} already covered by frontier={f} on source {c.source}")
      else none
  | none => none

/-- INV-PENDING-DISJOINT, the neighbour at or below `high`. -/
def overlapsBelow (c : AckCoordinator) (low high : Nat) : Option RuntimeError :=
  match c.pending.lastAtMost high with
  | some (_, neighbor) =>
      if neighbor.high ≥ low then
        some (.ack (s!"range {low}..={high} overlaps pending " ++
          s!"{neighbor.low}..={neighbor.high}"))
      else none
  | none => none

/-- INV-PENDING-DISJOINT, the neighbour at or above `low`. -/
def overlapsAbove (c : AckCoordinator) (low high : Nat) : Option RuntimeError :=
  match c.pending.firstAtLeast low with
  | some (nextLow, _) =>
      if nextLow ≤ high then
        some (.ack s!"range {low}..={high} overlaps pending starting at {nextLow}")
      else none
  | none => none

def registerRejection (c : AckCoordinator) (low high : Nat) : Option RuntimeError :=
  invalidRange low high <|> c.belowBaseline low <|> c.nonContiguous low <|>
    c.alreadyAcked low <|> c.overlapsBelow low high <|> c.overlapsAbove low high

/-- The baseline is absorbed from the first range when the constructor had none. -/
def absorbBaseline (c : AckCoordinator) (low : Nat) : AckCoordinator :=
  if c.baselineFixed then c
  else { c with
    effectiveBaseline := if low = 0 then none else some (low - 1)
    baselineFixed := true }

def insertPending (c : AckCoordinator) (low high : Nat) : AckCoordinator :=
  { c with
    pending := c.pending.insert low ⟨low, high, false⟩
    lastRegisteredHigh := some high }

def registerPending (c : AckCoordinator) (low high : Nat) :
    AckCoordinator × RuntimeResult Unit :=
  match c.registerRejection low high with
  | some error => (c, .error error)
  | none => ((c.absorbBaseline low).insertPending low high, .ok ())

/-! ## `mark_committed` -/

def setCommitted (range : PendingRange) : PendingRange :=
  { range with sinkCommitted := true }

def markCommitted (c : AckCoordinator) (low high : Nat) :
    AckCoordinator × RuntimeResult Unit :=
  match c.pending.get? low with
  | none => (c, .error (.ack s!"no pending range with low={low} on source {c.source}"))
  | some entry =>
      if entry.high ≠ high then
        (c, .error (.ack (s!"range {low}..={high} disagrees with pending " ++
          s!"{low}..={entry.high} on source {c.source}")))
      else ({ c with pending := c.pending.modify low setCommitted }, .ok ())

/-! ## `advance_frontier` -/

def expectedLow (c : AckCoordinator) : Nat :=
  match c.ackedFrontier with
  | some f => saturatingAdd f 1
  | none =>
      match c.effectiveBaseline with
      | some baseline => saturatingAdd baseline 1
      | none => 0

def popFrontier (c : AckCoordinator) (nextHigh : Nat) : AckCoordinator :=
  { c with pending := c.pending.popFirst, ackedFrontier := some nextHigh }

/-- The loop of `advance_frontier`.  Each iteration pops one range, so the size of
the pending map bounds the number of iterations. -/
def advanceLoop : Nat → AckCoordinator → AckCoordinator
  | 0, c => c
  | fuel + 1, c =>
      match c.pending.first? with
      | some (_, range) =>
          if range.sinkCommitted then
            if range.low ≠ c.expectedLow then c
            else advanceLoop fuel (c.popFrontier range.high)
          else c
      | none => c

def advanceFrontier (c : AckCoordinator) : AckCoordinator :=
  if c.baselineFixed then advanceLoop c.pending.size c else c

/-- The loop is about to leave through its `next_low != expected_low` branch. -/
def BailsOut (c : AckCoordinator) : Prop :=
  ∃ key range, c.pending.first? = some (key, range) ∧ range.sinkCommitted = true ∧
    range.low ≠ c.expectedLow

end AckCoordinator

end OpendataIngest.Runtime
