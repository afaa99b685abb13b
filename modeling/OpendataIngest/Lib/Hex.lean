import Mathlib.Data.Nat.Digits.Defs

/-!
# Hexadecimal digits

The sixteen digits in either letter case, and bytes as two digits each.
-/

set_option autoImplicit false

namespace OpendataIngest.Hex

inductive LetterCase where
  | upper
  | lower

def hexDigit : LetterCase → Nat → Char
  | .upper, digit => (Nat.digitChar digit).toUpper
  | .lower, digit => Nat.digitChar digit

def hexValue (letters : LetterCase) (c : Char) : Option Nat :=
  (List.range 16).find? fun digit => hexDigit letters digit = c

theorem hexValue_hexDigit (letters : LetterCase) {digit : Nat} (small : digit < 16) :
    hexValue letters (hexDigit letters digit) = some digit := by
  have upper : ∀ digit < 16, hexValue .upper (hexDigit .upper digit) = some digit := by decide
  have lower : ∀ digit < 16, hexValue .lower (hexDigit .lower digit) = some digit := by decide
  cases letters with
  | upper => exact upper digit small
  | lower => exact lower digit small

theorem hexDigit_of_hexValue {letters : LetterCase} {c : Char} {digit : Nat}
    (value : hexValue letters c = some digit) : digit < 16 ∧ hexDigit letters digit = c := by
  have found := List.find?_some (p := fun digit => decide (hexDigit letters digit = c)) value
  exact ⟨List.mem_range.mp (List.mem_of_find?_eq_some value), of_decide_eq_true found⟩

/-- The digits lie between `0` and `f`. -/
theorem toNat_hexDigit (letters : LetterCase) {digit : Nat} (small : digit < 16) :
    48 ≤ (hexDigit letters digit).toNat ∧ (hexDigit letters digit).toNat ≤ 102 := by
  have upper : ∀ digit < 16,
      48 ≤ (hexDigit .upper digit).toNat ∧ (hexDigit .upper digit).toNat ≤ 102 := by decide
  have lower : ∀ digit < 16,
      48 ≤ (hexDigit .lower digit).toNat ∧ (hexDigit .lower digit).toNat ≤ 102 := by decide
  cases letters with
  | upper => exact upper digit small
  | lower => exact lower digit small

/-! ## Bytes -/

def hexByte (letters : LetterCase) (byte : UInt8) : List Char :=
  [hexDigit letters (byte.toNat / 16), hexDigit letters (byte.toNat % 16)]

/-- The bytes of an even number of digits. -/
def readHex (letters : LetterCase) : List Char → Option (List UInt8)
  | [] => some []
  | [_] => none
  | high :: low :: rest =>
      (hexValue letters high).bind fun h => (hexValue letters low).bind fun l =>
        (readHex letters rest).map (UInt8.ofNat (16 * h + l) :: ·)

theorem byte_of_digits (byte : UInt8) :
    UInt8.ofNat (16 * (byte.toNat / 16) + byte.toNat % 16) = byte := by
  rw [Nat.div_add_mod, UInt8.ofNat_toNat]

theorem hexValue_high (letters : LetterCase) (byte : UInt8) :
    hexValue letters (hexDigit letters (byte.toNat / 16)) = some (byte.toNat / 16) :=
  hexValue_hexDigit letters (Nat.div_lt_of_lt_mul byte.toNat_lt)

theorem hexValue_low (letters : LetterCase) (byte : UInt8) :
    hexValue letters (hexDigit letters (byte.toNat % 16)) = some (byte.toNat % 16) :=
  hexValue_hexDigit letters (Nat.mod_lt _ (by decide))

theorem readHex_hexByte (letters : LetterCase) (bytes : List UInt8) :
    readHex letters (bytes.flatMap (hexByte letters)) = some bytes := by
  induction bytes with
  | nil => rfl
  | cons byte rest ih =>
      rw [List.flatMap_cons, hexByte, List.cons_append, List.cons_append, List.nil_append, readHex,
        hexValue_high, hexValue_low, ih, Option.bind_some, Option.bind_some, byte_of_digits]
      rfl

theorem hexByte_of_digits (letters : LetterCase) {h l : Nat} (isHigh : h < 16) (isLow : l < 16) :
    hexByte letters (UInt8.ofNat (16 * h + l)) = [hexDigit letters h, hexDigit letters l] := by
  have value : (UInt8.ofNat (16 * h + l)).toNat = 16 * h + l := by
    rw [UInt8.toNat_ofNat']
    omega
  have high : (16 * h + l) / 16 = h := by omega
  have low : (16 * h + l) % 16 = l := by omega
  rw [hexByte, value, high, low]

/-- Only the digits of the bytes read as the bytes. -/
theorem readHex_eq_some {letters : LetterCase} {digits : List Char} {bytes : List UInt8} :
    readHex letters digits = some bytes ↔ digits = bytes.flatMap (hexByte letters) := by
  constructor
  · intro reads
    fun_induction readHex letters digits generalizing bytes with
    | case1 =>
        cases reads
        rfl
    | case2 => cases reads
    | case3 high low rest ih =>
        obtain ⟨h, isHigh, later⟩ := Option.bind_eq_some_iff.mp reads
        obtain ⟨l, isLow, last⟩ := Option.bind_eq_some_iff.mp later
        obtain ⟨more, readsRest, rfl⟩ := Option.map_eq_some_iff.mp last
        obtain ⟨smallHigh, sameHigh⟩ := hexDigit_of_hexValue isHigh
        obtain ⟨smallLow, sameLow⟩ := hexDigit_of_hexValue isLow
        rw [List.flatMap_cons, hexByte_of_digits letters smallHigh smallLow, sameHigh, sameLow,
          ← ih readsRest]
        rfl
  · rintro rfl
    exact readHex_hexByte letters bytes

end OpendataIngest.Hex
