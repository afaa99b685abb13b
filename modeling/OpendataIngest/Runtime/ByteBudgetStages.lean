import OpendataIngest.Runtime.ByteBudgetConservation

/-!
# The stage counters, one whole operation at a time

What `attach_stage`, `reconcile` and `drop` do to the counter of each stage: they move the
reservation's share, modulo `2 ^ 64`.
-/

set_option autoImplicit false

namespace OpendataIngest.Runtime

open MachineInt Pool AtomicBudget

variable {T : Type} [DecidableEq T]

/-- What a reservation contributes to the counter of `stage`. -/
def ByteReservation.heldAt (stage : T) (r : ByteReservation T) : Nat :=
  stageHeld r.stage stage r.held

theorem stageHeld_zero (attached : Option T) (stage : T) : stageHeld attached stage 0 = 0 := by
  simp [stageHeld]

namespace Counters

omit [DecidableEq T] in
theorem reserve_stage (k : Counters T) (bytes : Nat) :
    (k.reserve bytes).1.stage = none ∧ (k.reserve bytes).2.stage = k.stage := by
  simp only [reserve]
  split
  all_goals exact ⟨rfl, rfl⟩

omit [DecidableEq T] in
theorem tryReserve_stage {k k' : Counters T} {capacity bytes : Nat} {r : ByteReservation T}
    (claimed : k.tryReserve capacity bytes = some (r, k')) :
    r.stage = none ∧ k'.stage = k.stage := by
  simp only [tryReserve] at claimed
  split at claimed
  case isTrue empty =>
    cases claimed
    exact ⟨rfl, rfl⟩
  case isFalse =>
    split at claimed
    case h_1 => cases claimed
    case h_2 next sum =>
      split_ifs at claimed
      cases claimed
      exact ⟨rfl, rfl⟩

omit [DecidableEq T] in
theorem reserve_valid {k : Counters T} (valid : AtomicBudget.Counters.Valid k) (bytes : Nat) :
    AtomicBudget.Counters.Valid (k.reserve bytes).2 := by
  simp only [reserve]
  split
  · exact valid
  · exact addInFlight_valid valid bytes

omit [DecidableEq T] in
theorem tryReserve_valid {k k' : Counters T} {capacity bytes : Nat} {r : ByteReservation T}
    (valid : AtomicBudget.Counters.Valid k)
    (claimed : k.tryReserve capacity bytes = some (r, k')) : AtomicBudget.Counters.Valid k' := by
  simp only [tryReserve] at claimed
  split at claimed
  case isTrue empty =>
    cases claimed
    exact valid
  case isFalse =>
    split at claimed
    case h_1 => cases claimed
    case h_2 next sum =>
      split_ifs at claimed
      cases claimed
      simp only [checkedAdd] at sum
      split_ifs at sum with small
      cases sum
      refine ⟨?_, valid.stage_lt⟩
      unfold u64Max at small
      exact Nat.lt_of_le_of_lt small (by decide)

end Counters

namespace ByteReservation

variable (r : ByteReservation T) (k : Counters T)

theorem detachStage_stage (small : r.held ≤ u64Max) (stage : T) :
    ((r.detachStage k).stage stage + r.heldAt stage) % 2 ^ 64 = k.stage stage % 2 ^ 64 := by
  obtain ⟨held, attached⟩ := r
  cases attached with
  | none => rfl
  | some previous =>
      simp only [detachStage, heldAt]
      split_ifs with holds
      · exact subStage_modEq k previous stage held small
      · rw [Nat.eq_zero_of_not_pos holds, stageHeld_zero, Nat.add_zero]

theorem detachStage_valid (valid : AtomicBudget.Counters.Valid k) :
    AtomicBudget.Counters.Valid (r.detachStage k) := by
  obtain ⟨held, attached⟩ := r
  cases attached with
  | none => exact valid
  | some previous =>
      simp only [detachStage]
      split_ifs
      · exact subStage_valid valid previous held
      · exact valid

theorem attachStage_stage (small : r.held ≤ u64Max) (new stage : T) :
    ((r.attachStage new k).2.stage stage + r.heldAt stage) % 2 ^ 64 =
      (k.stage stage + (r.attachStage new k).1.heldAt stage) % 2 ^ 64 := by
  have detached := r.detachStage_stage k small stage
  simp only [attachStage]
  split_ifs with holds
  · have attached := addStage_modEq (r.detachStage k) new stage r.held
    simp only [heldAt] at detached ⊢
    omega
  · simp only [heldAt, Nat.eq_zero_of_not_pos holds, stageHeld_zero] at detached ⊢
    omega

theorem attachStage_valid (valid : AtomicBudget.Counters.Valid k) (new : T) :
    AtomicBudget.Counters.Valid (r.attachStage new k).2 := by
  simp only [attachStage]
  split_ifs
  · exact addStage_valid (r.detachStage_valid k valid) new r.held
  · exact r.detachStage_valid k valid

theorem reconcile_stage (small : r.held ≤ u64Max) (actual : Nat) (stage : T) :
    ((r.reconcile actual k).2.stage stage + r.heldAt stage) % 2 ^ 64 =
      (k.stage stage + (r.reconcile actual k).1.heldAt stage) % 2 ^ 64 := by
  obtain ⟨held, attached⟩ := r
  simp only at small
  simp only [reconcile]
  split_ifs with same shrinks
  · rfl
  · cases attached with
    | none => rfl
    | some own =>
        have moved := subStage_modEq (k.subInFlight (held - actual)) own stage (held - actual)
          (by omega)
        simp only [heldAt, Counters.subInFlight, stageHeld] at moved ⊢
        split_ifs at moved ⊢
        all_goals omega
  · cases attached with
    | none => rfl
    | some own =>
        have moved := addStage_modEq (k.addInFlight (actual - held)) own stage (actual - held)
        simp only [heldAt, Counters.addInFlight, stageHeld] at moved ⊢
        split_ifs at moved ⊢
        all_goals omega

theorem reconcile_valid (valid : AtomicBudget.Counters.Valid k) (actual : Nat) :
    AtomicBudget.Counters.Valid (r.reconcile actual k).2 := by
  obtain ⟨held, attached⟩ := r
  simp only [reconcile]
  split_ifs
  · exact valid
  · cases attached with
    | none => exact subInFlight_valid valid _
    | some own => exact subStage_valid (subInFlight_valid valid _) own _
  · cases attached with
    | none => exact addInFlight_valid valid _
    | some own => exact addStage_valid (addInFlight_valid valid _) own _

@[simp] theorem reconcile_attached (actual : Nat) :
    (r.reconcile actual k).1.stage = r.stage := by
  simp only [reconcile]
  split_ifs
  all_goals rfl

theorem release_stage (small : r.held ≤ u64Max) (stage : T) :
    ((r.release k).stage stage + r.heldAt stage) % 2 ^ 64 = k.stage stage % 2 ^ 64 := by
  simp only [release]
  split_ifs with holds
  · exact r.detachStage_stage k small stage
  · simp only [heldAt, Nat.eq_zero_of_not_pos holds, stageHeld_zero, Nat.add_zero]

theorem release_valid (valid : AtomicBudget.Counters.Valid k) :
    AtomicBudget.Counters.Valid (r.release k) := by
  simp only [release]
  split_ifs
  · exact subInFlight_valid (r.detachStage_valid k valid) r.held
  · exact valid

end ByteReservation

end OpendataIngest.Runtime
