import Mathlib.Data.Nat.ModEq
import Mathlib.Algebra.Order.Group.Unbundled.Int

/-!
# Fixed-width unsigned arithmetic on natural numbers

The values of `u32` and `u64` are carried as naturals.  `U32` and `U64` are the
types an argument of that width ranges over; the three arithmetic modes of the
source language (wrapping, saturating and checked) are functions on naturals.
-/

set_option autoImplicit false

namespace OpendataIngest.MachineInt

abbrev U32 : Type := Fin (2 ^ 32)

abbrev U64 : Type := Fin (2 ^ 64)

instance neZero_u32 : NeZero (2 ^ 32) := ⟨by decide⟩

instance neZero_u64 : NeZero (2 ^ 64) := ⟨by decide⟩

def u64Max : Nat := 2 ^ 64 - 1

/-- The value an atomic or release-mode addition leaves in a 64-bit cell. -/
def wrap64 (n : Nat) : Nat := n % 2 ^ 64

def wrappingAdd (a b : Nat) : Nat := wrap64 (a + b)

/-- `a - b` modulo `2 ^ 64`, for a subtrahend that is itself a 64-bit value. -/
def wrappingSub (a b : Nat) : Nat := wrap64 (a + (2 ^ 64 - b))

def saturatingAdd (a b : Nat) : Nat := min (a + b) u64Max

def saturatingMul (a b : Nat) : Nat := min (a * b) u64Max

def saturatingSub (a b : Nat) : Nat := a - b

def checkedAdd (a b : Nat) : Option Nat :=
  if a + b ≤ u64Max then some (a + b) else none

theorem val_le_u64Max (n : U64) : n.val ≤ u64Max := by
  have bound := n.isLt
  unfold u64Max
  omega

theorem saturatingAdd_of_le (a b : Nat) (fits : a + b ≤ u64Max) :
    saturatingAdd a b = a + b := by
  simp only [saturatingAdd]
  omega

theorem saturatingAdd_le_iff (a b limit : Nat) (below : limit < u64Max) :
    saturatingAdd a b ≤ limit ↔ a + b ≤ limit := by
  simp only [saturatingAdd]
  omega

theorem wrap64_lt (n : Nat) : wrap64 n < 2 ^ 64 :=
  Nat.mod_lt n (Nat.two_pow_pos 64)

end OpendataIngest.MachineInt
