import OpendataIngest.Runtime.Types
import OpendataIngest.Lib.Pool
import Mathlib.Data.Finset.Insert
import Mathlib.Data.Fintype.Defs

/-!
# The per-source byte budget

`SourceByteBudget` and `ByteReservation` of `source_budget.rs`, each operation run
without interference.  `Counters` are the 64-bit cells the operations share: the
budget's `in_flight` and one cell for each pipeline stage.  `reserve` parks while
its bytes do not fit; here it is the test that ends the parking, and the claim that
follows it.  Sums wrap as in the release build: the atomics do in every build, the plain
`current + bytes` of the claim would panic in a build with overflow checks.
-/

set_option autoImplicit false

namespace OpendataIngest.Runtime

open MachineInt

/-- The cells `StageInflightBytes` shares between the stages. -/
inductive Stage where
  | source
  | fetch
  | decode
  | sinkDispatch
  deriving DecidableEq, Repr

instance : Fintype Stage where
  elems := {.source, .fetch, .decode, .sinkDispatch}
  complete := by intro stage; cases stage <;> simp

structure Counters (T : Type) where
  inFlight : Nat
  stage : T → Nat

structure ByteReservation (T : Type) where
  held : Nat
  stage : Option T
  deriving DecidableEq, Repr

namespace Counters

variable {T : Type} [DecidableEq T]

def zero : Counters T := ⟨0, fun _ => 0⟩

def addInFlight (k : Counters T) (bytes : Nat) : Counters T :=
  { k with inFlight := wrappingAdd k.inFlight bytes }

def subInFlight (k : Counters T) (bytes : Nat) : Counters T :=
  { k with inFlight := wrappingSub k.inFlight bytes }

def addStage (k : Counters T) (stage : T) (bytes : Nat) : Counters T :=
  { k with stage := Function.update k.stage stage (wrappingAdd (k.stage stage) bytes) }

def subStage (k : Counters T) (stage : T) (bytes : Nat) : Counters T :=
  { k with stage := Function.update k.stage stage (wrappingSub (k.stage stage) bytes) }

/-- The capacity test of the blocking `reserve`. -/
def fitsSaturating (k : Counters T) (capacity bytes : Nat) : Bool :=
  decide (saturatingAdd k.inFlight bytes ≤ capacity)

/-- The claim `reserve` makes once its test has passed. -/
def reserve (k : Counters T) (bytes : Nat) : ByteReservation T × Counters T :=
  if bytes = 0 then (⟨0, none⟩, k)
  else (⟨bytes, none⟩, k.addInFlight bytes)

def tryReserve (k : Counters T) (capacity bytes : Nat) :
    Option (ByteReservation T × Counters T) :=
  if bytes = 0 then some (⟨0, none⟩, k)
  else match checkedAdd k.inFlight bytes with
    | none => none
    | some next =>
        if next > capacity then none
        else some (⟨bytes, none⟩, { k with inFlight := next })

omit [DecidableEq T] in
theorem reserve_held (k : Counters T) (bytes : Nat) : (k.reserve bytes).1.held = bytes := by
  simp only [reserve]
  split
  case isTrue empty => exact empty.symm
  case isFalse => rfl

omit [DecidableEq T] in
theorem reserve_inFlight (k : Counters T) (bytes : Nat) :
    (k.reserve bytes).2.inFlight % 2 ^ 64 = (k.inFlight + bytes) % 2 ^ 64 := by
  simp only [reserve]
  split
  case isTrue empty => rw [empty, Nat.add_zero]
  case isFalse => simp [addInFlight, wrappingAdd, wrap64]

omit [DecidableEq T] in
/-- Below the largest capacity the saturating test is exact. -/
theorem fits_exact (k : Counters T) (capacity bytes : Nat)
    (fits : k.fitsSaturating capacity bytes = true) (below : capacity < u64Max) :
    k.inFlight + bytes ≤ capacity :=
  (saturatingAdd_le_iff k.inFlight bytes capacity below).mp (of_decide_eq_true fits)

omit [DecidableEq T] in
theorem tryReserve_some (k k' : Counters T) (capacity bytes : Nat) (r : ByteReservation T)
    (claimed : k.tryReserve capacity bytes = some (r, k')) :
    r.held = bytes ∧ k'.inFlight = k.inFlight + bytes ∧
      (bytes ≠ 0 → k'.inFlight ≤ capacity) := by
  simp only [tryReserve] at claimed
  split at claimed
  case isTrue empty =>
    cases claimed
    exact ⟨empty.symm, by rw [empty, Nat.add_zero], fun nonempty => absurd empty nonempty⟩
  case isFalse =>
    split at claimed
    case h_1 => cases claimed
    case h_2 next sum =>
      split_ifs at claimed with full
      cases claimed
      simp only [checkedAdd] at sum
      split_ifs at sum
      cases sum
      exact ⟨rfl, rfl, fun _ => Nat.le_of_not_lt full⟩

omit [DecidableEq T] in
theorem reserve_width (k : Counters T) (bytes : Nat) (width : k.inFlight < 2 ^ 64) :
    (k.reserve bytes).2.inFlight < 2 ^ 64 := by
  simp only [reserve]
  split
  · exact width
  · exact wrap64_lt _

end Counters

namespace ByteReservation

variable {T : Type} [DecidableEq T]

def detachStage (r : ByteReservation T) (k : Counters T) : Counters T :=
  match r.stage with
  | some previous => if 0 < r.held then k.subStage previous r.held else k
  | none => k

def attachStage (r : ByteReservation T) (stage : T) (k : Counters T) :
    ByteReservation T × Counters T :=
  let detached := r.detachStage k
  let attached := if 0 < r.held then detached.addStage stage r.held else detached
  (⟨r.held, some stage⟩, attached)

def reconcile (r : ByteReservation T) (actualBytes : Nat) (k : Counters T) :
    ByteReservation T × Counters T :=
  if actualBytes = r.held then (r, k)
  else if actualBytes < r.held then
    let delta := r.held - actualBytes
    let released := k.subInFlight delta
    let mirrored := match r.stage with
      | some stage => released.subStage stage delta
      | none => released
    ({ r with held := actualBytes }, mirrored)
  else
    let delta := actualBytes - r.held
    let grown := k.addInFlight delta
    let mirrored := match r.stage with
      | some stage => grown.addStage stage delta
      | none => grown
    ({ r with held := actualBytes }, mirrored)

/-- `Drop for ByteReservation`. -/
def release (r : ByteReservation T) (k : Counters T) : Counters T :=
  if 0 < r.held then (r.detachStage k).subInFlight r.held else k

/-! ## What the operations do to `held` and `in_flight` -/

theorem detachStage_inFlight (r : ByteReservation T) (k : Counters T) :
    (r.detachStage k).inFlight = k.inFlight := by
  simp only [detachStage]
  cases r.stage with
  | none => rfl
  | some previous =>
      simp only
      split
      all_goals rfl

@[simp] theorem attachStage_inFlight (r : ByteReservation T) (stage : T) (k : Counters T) :
    (r.attachStage stage k).2.inFlight = k.inFlight := by
  simp only [attachStage]
  split
  all_goals exact r.detachStage_inFlight k

@[simp] theorem reconcile_held (r : ByteReservation T) (actual : Nat) (k : Counters T) :
    (r.reconcile actual k).1.held = actual := by
  simp only [reconcile]
  split_ifs with same
  · exact same.symm
  · rfl
  · rfl

theorem reconcile_inFlight (r : ByteReservation T) (actual : Nat) (k : Counters T)
    (small : r.held ≤ u64Max) :
    ((r.reconcile actual k).2.inFlight + r.held) % 2 ^ 64 = (k.inFlight + actual) % 2 ^ 64 := by
  unfold u64Max at small
  simp only [reconcile]
  split_ifs with same shrinks
  · rw [same]
  · cases r.stage with
    | none =>
        simp only [Counters.subInFlight, wrappingSub, wrap64]
        omega
    | some stage =>
        simp only [Counters.subInFlight, Counters.subStage, wrappingSub, wrap64]
        omega
  · cases r.stage with
    | none =>
        simp only [Counters.addInFlight, wrappingAdd, wrap64]
        omega
    | some stage =>
        simp only [Counters.addInFlight, Counters.addStage, wrappingAdd, wrap64]
        omega

theorem release_inFlight (r : ByteReservation T) (k : Counters T) (small : r.held ≤ u64Max) :
    ((r.release k).inFlight + r.held) % 2 ^ 64 = k.inFlight % 2 ^ 64 := by
  unfold u64Max at small
  simp only [release]
  split_ifs with holds
  · simp only [Counters.subInFlight, detachStage_inFlight, wrappingSub, wrap64]
    omega
  · have nothing : r.held = 0 := by omega
    rw [nothing, Nat.add_zero]

theorem reconcile_width (r : ByteReservation T) (actual : Nat) (k : Counters T)
    (width : k.inFlight < 2 ^ 64) : (r.reconcile actual k).2.inFlight < 2 ^ 64 := by
  simp only [reconcile]
  split_ifs
  · exact width
  · cases r.stage
    all_goals exact wrap64_lt _
  · cases r.stage
    all_goals exact wrap64_lt _

theorem release_width (r : ByteReservation T) (k : Counters T) (width : k.inFlight < 2 ^ 64) :
    (r.release k).inFlight < 2 ^ 64 := by
  simp only [release]
  split_ifs
  · exact wrap64_lt _
  · exact width

end ByteReservation

end OpendataIngest.Runtime
