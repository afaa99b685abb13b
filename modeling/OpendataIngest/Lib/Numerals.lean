import Mathlib.Data.List.Basic
import Mathlib.Data.Nat.Init
import Mathlib.Order.Basic
import Mathlib.Algebra.Group.Nat.Defs

/-!
# Zero-padded decimal numerals

A numeral padded with zeros to a fixed width has that width, is read back from its
digits, and numerals of one width are in lexicographic order exactly when their values are
in order.
-/

set_option autoImplicit false

namespace OpendataIngest.Numerals

/-- The `width` digits of a number, or more if it does not fit. -/
def zeroPad (width n : Nat) : List Char := List.leftpad width '0' (Nat.toDigits 10 n)

theorem zeroPad_length {width n : Nat} (some_digits : 0 < width) (small : n < 10 ^ width) :
    (zeroPad width n).length = width := by
  have fits := (Nat.length_toDigits_le_iff (by decide) some_digits).mpr small
  simp only [zeroPad, List.leftpad, List.length_append, List.length_replicate]
  omega

theorem isDigit_of_mem_zeroPad {width n : Nat} {c : Char} (member : c ∈ zeroPad width n) :
    c.isDigit = true := by
  rcases List.mem_append.mp member with zero | digit
  · rw [List.eq_of_mem_replicate zero]
    rfl
  · exact Nat.isDigit_of_mem_toDigits (by decide) (by decide) digit

@[simp] theorem ofDigitChars_zeroPad (width n : Nat) :
    Nat.ofDigitChars 10 (zeroPad width n) 0 = n := by
  rw [zeroPad, List.leftpad, Nat.ofDigitChars_append, Nat.ofDigitChars_replicate_zero,
    Nat.mul_zero, Nat.ofDigitChars_ten_toDigits]

/-- The last digit of a numeral. -/
theorem zeroPad_succ {width n : Nat} (some_digits : 0 < width) :
    zeroPad (width + 1) n = zeroPad width (n / 10) ++ [Nat.digitChar (n % 10)] := by
  by_cases single : n < 10
  · have quotient : n / 10 = 0 := Nat.div_eq_of_lt single
    have remainder : n % 10 = n := Nat.mod_eq_of_lt single
    have zeros : List.replicate (width - 1) '0' ++ ['0'] = List.replicate width '0' := by
      rw [← List.replicate_succ', Nat.sub_add_cancel some_digits]
    simp only [zeroPad, List.leftpad, quotient, remainder, Nat.toDigits_of_lt_base single,
      Nat.toDigits_zero, List.length_singleton, Nat.add_sub_cancel, zeros]
  · have step := Nat.toDigits_of_base_le (b := 10) (n := n) (by decide) (Nat.le_of_not_lt single)
    simp only [zeroPad, List.leftpad, step, List.length_append, List.length_singleton,
      Nat.add_sub_add_right, List.append_assoc]

/-! ## The lexicographic order -/

theorem append_lt_append {A : Type} [LT A] {front front' back back' : List A}
    (sameLength : front.length = front'.length) (less : front < front') :
    front ++ back < front' ++ back' := by
  induction front generalizing front' with
  | nil =>
      cases front' with
      | nil => exact absurd less (List.not_lt_nil _)
      | cons head rest => cases sameLength
  | cons head rest ih =>
      cases front' with
      | nil => cases sameLength
      | cons head' rest' =>
          rw [List.cons_append, List.cons_append]
          rcases List.cons_lt_cons_iff.mp less with heads | ⟨same, later⟩
          · exact List.cons_lt_cons_iff.mpr (Or.inl heads)
          · exact List.cons_lt_cons_iff.mpr (Or.inr ⟨same, ih (Nat.succ.inj sameLength) later⟩)

theorem digitChar_lt {m n : Nat} (less : m < n) (small : n < 10) :
    Nat.digitChar m < Nat.digitChar n := by
  have table : ∀ n < 10, ∀ m < n, Nat.digitChar m < Nat.digitChar n := by decide
  exact table n small m less

theorem zeroPad_lt {width m n : Nat} (some_digits : 0 < width) (less : m < n)
    (small : n < 10 ^ width) : zeroPad width m < zeroPad width n := by
  induction width, some_digits using Nat.le_induction generalizing m n with
  | base =>
      have one : ∀ k, k < 10 → zeroPad 1 k = [Nat.digitChar k] := by
        intro k single
        simp [zeroPad, List.leftpad, Nat.toDigits_of_lt_base single]
      rw [one m (Nat.lt_trans less small), one n small]
      exact List.cons_lt_cons_iff.mpr (Or.inl (digitChar_lt less small))
  | succ width some_digits ih =>
      rw [zeroPad_succ some_digits, zeroPad_succ some_digits]
      have smallQuotient : n / 10 < 10 ^ width := by
        rw [Nat.pow_succ] at small
        omega
      have smaller : m / 10 < 10 ^ width := by omega
      rcases Nat.lt_or_ge (m / 10) (n / 10) with quotients | notLess
      · refine append_lt_append ?_ (ih quotients smallQuotient)
        rw [zeroPad_length some_digits smaller, zeroPad_length some_digits smallQuotient]
      · have sameQuotient : m / 10 = n / 10 := by omega
        rw [sameQuotient]
        refine List.append_left_lt (List.cons_lt_cons_iff.mpr (Or.inl ?_))
        exact digitChar_lt (by omega) (by omega)

/-- A numeral and what follows it. -/
theorem zeroPad_append_lt {width m n : Nat} {rest rest' : List Char} (some_digits : 0 < width)
    (small : m < 10 ^ width) (small' : n < 10 ^ width) (less : m < n ∨ m = n ∧ rest < rest') :
    zeroPad width m ++ rest < zeroPad width n ++ rest' := by
  rcases less with values | ⟨same, later⟩
  · refine append_lt_append ?_ (zeroPad_lt some_digits values small')
    rw [zeroPad_length some_digits small, zeroPad_length some_digits small']
  · rw [same]
    exact List.append_left_lt later

theorem cons_lt_cons {c : Char} {rest rest' : List Char} (less : rest < rest') :
    c :: rest < c :: rest' :=
  List.cons_lt_cons_iff.mpr (Or.inr ⟨rfl, less⟩)

/-! ## Reading -/

abbrev TextReader (A : Type) : Type := StateT (List Char) Option A

/-- A numeral of exactly so many digits. -/
def numeral (width : Nat) : TextReader Nat := fun chars =>
  if width ≤ chars.length ∧ (chars.take width).all Char.isDigit then
    some (Nat.ofDigitChars 10 (chars.take width) 0, chars.drop width)
  else none

def literal (expected : Char) : TextReader Unit
  | c :: rest => if c = expected then some ((), rest) else none
  | [] => none

theorem numeral_zeroPad {width n : Nat} (some_digits : 0 < width) (small : n < 10 ^ width)
    (rest : List Char) : numeral width (zeroPad width n ++ rest) = some (n, rest) := by
  have length := zeroPad_length some_digits small
  have taken : (zeroPad width n ++ rest).take width = zeroPad width n := List.take_left' length
  have dropped : (zeroPad width n ++ rest).drop width = rest := List.drop_left' length
  have digits : (zeroPad width n).all Char.isDigit = true :=
    List.all_eq_true.mpr fun c member => isDigit_of_mem_zeroPad member
  have enough : width ≤ (zeroPad width n ++ rest).length := by
    rw [List.length_append]
    omega
  simp only [numeral, taken, dropped, digits, enough, and_self, if_true, ofDigitChars_zeroPad]

theorem run_numeral {A : Type} {width n : Nat} {next : Nat → TextReader A}
    (some_digits : 0 < width) (small : n < 10 ^ width) (rest : List Char) :
    (numeral width >>= next).run (zeroPad width n ++ rest) = (next n).run rest := by
  have read := numeral_zeroPad some_digits small rest
  rw [StateT.run_bind, StateT.run, read]
  rfl

theorem run_literal {A : Type} {c : Char} {next : Unit → TextReader A} (rest : List Char) :
    (literal c >>= next).run (c :: rest) = (next ()).run rest := by
  have read : literal c (c :: rest) = some ((), rest) := if_pos rfl
  rw [StateT.run_bind, StateT.run, read]
  rfl

end OpendataIngest.Numerals
