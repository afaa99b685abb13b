import OpendataIngest.Runtime.ByteBudgetAtomic
import OpendataIngest.Runtime.Options

/-!
# What the byte budget admits

`reserve` tests with `saturating_add` and then adds unchecked; `try_reserve` tests
with `checked_add`.  Run without interference the two agree with each other and
with exact arithmetic, except where the capacity is `u64::MAX` itself: there the
saturated sum passes the test although the exact sum does not.
-/

set_option autoImplicit false

namespace OpendataIngest.Runtime.AtomicBudget

open MachineInt

variable {T : Type} [DecidableEq T]

/-- The live reservation an admission has ended with. -/
def Agent.claimed : Agent T → Option (ByteReservation T)
  | .owned r .idle => some r
  | _ => none

def reserveAlone (capacity : Nat) (k : Counters T) (bytes : Nat) : Agent T × Counters T :=
  settle capacity 3 k (.reserving bytes .loopHead)

def tryReserveAlone (capacity : Nat) (k : Counters T) (bytes : Nat) : Agent T × Counters T :=
  settle capacity 2 k (.trying bytes .entry)

/-- `reserve` and `try_reserve` admit the request exactly when it fits over the
natural numbers, and then both move `in_flight` to the exact sum. -/
structure AdmitsExactly (capacity : Nat) (k : Counters T) (bytes : Nat) : Prop where
  reserve_iff : (reserveAlone capacity k bytes).1.claimed = some ⟨bytes, none⟩ ↔
    k.inFlight + bytes ≤ capacity
  parks_iff : (reserveAlone capacity k bytes).1 = .reserving bytes (.parked false) ↔
    ¬ k.inFlight + bytes ≤ capacity
  try_iff : (tryReserveAlone capacity k bytes).1.claimed = some ⟨bytes, none⟩ ↔
    k.inFlight + bytes ≤ capacity
  reserve_sum : k.inFlight + bytes ≤ capacity →
    (reserveAlone capacity k bytes).2.inFlight = k.inFlight + bytes
  try_sum : k.inFlight + bytes ≤ capacity →
    (tryReserveAlone capacity k bytes).2.inFlight = k.inFlight + bytes
  /-- The operand of the compare-exchange, added unchecked before it is attempted. -/
  no_wrap : ∀ notified current, (settle capacity 2 k (.reserving bytes .loopHead)).1 =
    .reserving bytes (.exchange notified current) → current + bytes ≤ u64Max

theorem settle_reserve_parks (capacity : Nat) (k : Counters T) (bytes : Nat)
    (some_bytes : 0 < bytes) (full : ¬ saturatingAdd k.inFlight bytes ≤ capacity) :
    reserveAlone capacity k bytes = (.reserving bytes (.parked false), k) := by
  have nonempty : bytes ≠ 0 := Nat.pos_iff_ne_zero.mp some_bytes
  simp [reserveAlone, settle, advanceAgent, advanceReserve, nonempty, full]

theorem reserveAlone_of_fits (capacity : Nat) (k : Counters T) (bytes : Nat)
    (some_bytes : 0 < bytes) (fits : saturatingAdd k.inFlight bytes ≤ capacity) :
    reserveAlone capacity k bytes = (.owned ⟨bytes, none⟩ .idle, k.addInFlight bytes) := by
  have nonempty : bytes ≠ 0 := Nat.pos_iff_ne_zero.mp some_bytes
  rw [reserveAlone, settle_reserve capacity k bytes (decide_eq_true fits)]
  simp [Counters.reserve, nonempty]

/-- The second step of the loop ends before the compare-exchange. -/
theorem settle_reserve_exchange (capacity : Nat) (k : Counters T) (bytes : Nat)
    (some_bytes : 0 < bytes) :
    (settle capacity 2 k (.reserving bytes .loopHead)).1 =
      if saturatingAdd k.inFlight bytes ≤ capacity then
        .reserving bytes (.exchange false k.inFlight)
      else .reserving bytes (.parked false) := by
  have nonempty : bytes ≠ 0 := Nat.pos_iff_ne_zero.mp some_bytes
  by_cases fits : saturatingAdd k.inFlight bytes ≤ capacity
  · simp [settle, advanceAgent, advanceReserve, nonempty, fits]
  · simp [settle, advanceAgent, advanceReserve, nonempty, fits]

theorem tryReserveAlone_eq (capacity : Nat) (k : Counters T) (bytes : Nat)
    (some_bytes : 0 < bytes) (wide : capacity ≤ u64Max) :
    tryReserveAlone capacity k bytes =
      if k.inFlight + bytes ≤ capacity then
        (.owned ⟨bytes, none⟩ .idle, { k with inFlight := k.inFlight + bytes })
      else (.finished, k) := by
  have nonempty : bytes ≠ 0 := Nat.pos_iff_ne_zero.mp some_bytes
  rw [tryReserveAlone, settle_tryReserve]
  by_cases fits : k.inFlight + bytes ≤ capacity
  · have narrow : k.inFlight + bytes ≤ u64Max := Nat.le_trans fits wide
    have notFull : ¬ capacity < k.inFlight + bytes := Nat.not_lt_of_le fits
    simp [Counters.tryReserve, nonempty, checkedAdd, narrow, fits, notFull]
  · by_cases narrow : k.inFlight + bytes ≤ u64Max
    · have full : capacity < k.inFlight + bytes := Nat.lt_of_not_le fits
      simp [Counters.tryReserve, nonempty, checkedAdd, narrow, fits, full]
    · simp [Counters.tryReserve, nonempty, checkedAdd, narrow, fits]

/-- The saturated test passes without room only at the largest capacity. -/
theorem saturated_fits_iff (inFlight bytes capacity : Nat) (wide : capacity ≤ u64Max) :
    saturatingAdd inFlight bytes ≤ capacity ↔
      inFlight + bytes ≤ capacity ∨ capacity = u64Max ∧ u64Max < inFlight + bytes := by
  simp only [saturatingAdd]
  omega

theorem admitsExactly_of_not_top (capacity : Nat) (k : Counters T) (bytes : Nat)
    (wide : capacity ≤ u64Max) (some_bytes : 0 < bytes)
    (below_top : ¬ (capacity = u64Max ∧ u64Max < k.inFlight + bytes)) :
    AdmitsExactly capacity k bytes := by
  have test : saturatingAdd k.inFlight bytes ≤ capacity ↔ k.inFlight + bytes ≤ capacity := by
    rw [saturated_fits_iff k.inFlight bytes capacity wide]
    exact or_iff_left below_top
  have tried := tryReserveAlone_eq capacity k bytes some_bytes wide
  by_cases fits : k.inFlight + bytes ≤ capacity
  · have narrow : k.inFlight + bytes ≤ u64Max := Nat.le_trans fits wide
    have reserved := reserveAlone_of_fits capacity k bytes some_bytes (test.mpr fits)
    rw [if_pos fits] at tried
    refine ⟨?_, ?_, ?_, ?_, ?_, ?_⟩
    · simp [reserved, Agent.claimed, fits]
    · simp [reserved, fits]
    · simp [tried, Agent.claimed, fits]
    · intro _
      rw [reserved]
      exact Nat.mod_eq_of_lt (by unfold u64Max at narrow; omega)
    · intro _
      rw [tried]
    · intro notified current reached
      rw [settle_reserve_exchange capacity k bytes some_bytes, if_pos (test.mpr fits)] at reached
      cases reached
      exact narrow
  · have full : ¬ saturatingAdd k.inFlight bytes ≤ capacity := fun passes => fits (test.mp passes)
    have reserved := settle_reserve_parks capacity k bytes some_bytes full
    rw [if_neg fits] at tried
    refine ⟨?_, ?_, ?_, fun room => absurd room fits, fun room => absurd room fits, ?_⟩
    · simp [reserved, Agent.claimed, fits]
    · simp [reserved, fits]
    · simp [tried, Agent.claimed, fits]
    · intro notified current reached
      rw [settle_reserve_exchange capacity k bytes some_bytes, if_neg full] at reached
      cases reached

/-- At the top of the range `reserve` claims bytes that do not fit. -/
theorem not_admitsExactly_at_top (k : Counters T) (bytes : Nat) (some_bytes : 0 < bytes)
    (overflow : u64Max < k.inFlight + bytes) : ¬ AdmitsExactly u64Max k bytes := by
  intro exactly
  have fits : saturatingAdd k.inFlight bytes ≤ u64Max := Nat.min_le_right _ _
  have reserved := reserveAlone_of_fits u64Max k bytes some_bytes fits
  have room := exactly.reserve_iff.mp (by rw [reserved]; rfl)
  omega

/-- Alone, `reserve` and `try_reserve` admit exactly what fits unless the capacity is
`u64::MAX` and the sum overflows. -/
theorem reserve_and_try_reserve_admit_exactly_iff (capacity inFlight bytes : U64)
    (stages : T → Nat) (some_bytes : 0 < bytes.val) :
    AdmitsExactly capacity.val ⟨inFlight.val, stages⟩ bytes.val ↔
      ¬ (capacity.val = u64Max ∧ u64Max < inFlight.val + bytes.val) := by
  constructor
  · rintro exactly ⟨top, overflow⟩
    rw [top] at exactly
    exact not_admitsExactly_at_top _ _ some_bytes overflow exactly
  · intro below_top
    exact admitsExactly_of_not_top _ _ _ (val_le_u64Max capacity) some_bytes below_top

/-- The default budget admits the default estimate next to one that is in flight. -/
theorem reserve_and_try_reserve_admit_exactly_by_default :
    0 < (4 * 1024 * 1024 : U64).val ∧
      AdmitsExactly (256 * 1024 * 1024 : U64).val
        (⟨(4 * 1024 * 1024 : U64).val, fun _ => 0⟩ : Counters Stage) (4 * 1024 * 1024 : U64).val :=
  ⟨by decide, (reserve_and_try_reserve_admit_exactly_iff _ _ _ _ (by decide)).mpr (by decide)⟩

/-- A budget of `u64::MAX` bytes passes validation, and with one byte in flight the next
estimate of `u64::MAX` is claimed by `reserve`, which wraps `in_flight` to zero. -/
theorem reserve_wraps_at_the_largest_capacity :
    validateBackpressure ⟨"logs"⟩ { SourceBackpressureOptions.default with
        maxInflightBytes := 18446744073709551615
        estimatedMaxBatchBytes := 18446744073709551615 } = .ok () ∧
      reserveAlone u64Max (⟨1, fun _ => 0⟩ : Counters Stage) u64Max =
        (.owned ⟨u64Max, none⟩ .idle, ⟨0, fun _ => 0⟩) ∧
      (tryReserveAlone u64Max (⟨1, fun _ => 0⟩ : Counters Stage) u64Max).1 = .finished ∧
      ¬ AdmitsExactly u64Max (⟨1, fun _ => 0⟩ : Counters Stage) u64Max := by
  refine ⟨by decide, rfl, by decide, ?_⟩
  exact not_admitsExactly_at_top _ _ (by decide) (by decide)

end OpendataIngest.Runtime.AtomicBudget
