import Mathlib.Data.List.Basic

/-!
# Decimal text and separators

A number can be read back from its decimal text, and a text that ends in a separator it
does not contain can be read back from what follows it.
-/

set_option autoImplicit false

namespace OpendataIngest.Decimal

theorem toDigits_injective {m n : Nat} (same : Nat.toDigits 10 m = Nat.toDigits 10 n) : m = n := by
  have left := Nat.ofDigitChars_toDigits (b := 10) (n := m) (by decide) (by decide)
  have right := Nat.ofDigitChars_toDigits (b := 10) (n := n) (by decide) (by decide)
  rw [← left, ← right, same]

theorem not_mem_toDigits {c : Char} (notDigit : c.isDigit = false) (n : Nat) :
    c ∉ Nat.toDigits 10 n := by
  intro member
  have digit := Nat.isDigit_of_mem_toDigits (by decide) (by decide) member
  rw [notDigit] at digit
  cases digit

/-- A text without the separator, up to its first separator. -/
theorem text_then_separator {c : Char} {text text' left right : List Char} (free : c ∉ text)
    (free' : c ∉ text') (same : text ++ c :: left = text' ++ c :: right) :
    text = text' ∧ left = right := by
  have sameText : text = text' := by
    have taken := congrArg (List.takeWhile fun d => decide (d ≠ c)) same
    rw [List.takeWhile_append_of_pos, List.takeWhile_append_of_pos] at taken
    · simpa using taken
    all_goals
      intro d member
      refine decide_eq_true ?_
      rintro rfl
      contradiction
  subst sameText
  exact ⟨rfl, (List.cons.inj (List.append_cancel_left same)).2⟩

/-- A text without the separator, from the last separator on. -/
theorem separator_then_text {c : Char} {text text' left right : List Char} (free : c ∉ text)
    (free' : c ∉ text') (same : left ++ c :: text = right ++ c :: text') :
    left = right ∧ text = text' := by
  have mirrored := congrArg List.reverse same
  simp only [List.reverse_append, List.reverse_cons, List.append_assoc, List.singleton_append]
    at mirrored
  obtain ⟨sameText, sameRest⟩ := text_then_separator (by simpa using free) (by simpa using free')
    mirrored
  exact ⟨List.reverse_inj.mp sameRest, List.reverse_inj.mp sameText⟩

/-- A number followed by a separator, and what comes after it. -/
theorem digits_then_separator {c : Char} (notDigit : c.isDigit = false) {m n : Nat}
    {left right : List Char}
    (same : Nat.toDigits 10 m ++ c :: left = Nat.toDigits 10 n ++ c :: right) :
    m = n ∧ left = right := by
  obtain ⟨digits, rest⟩ := text_then_separator (not_mem_toDigits notDigit m)
    (not_mem_toDigits notDigit n) same
  exact ⟨toDigits_injective digits, rest⟩

/-! ## Strings -/

section Strings

variable {c : Char} {separator left right : String} (isSeparator : separator.toList = [c])
include isSeparator

/-- The last part of a text. -/
theorem last_text {text text' : String} (free : c ∉ text.toList) (free' : c ∉ text'.toList)
    (same : left ++ separator ++ text = right ++ separator ++ text') :
    left = right ∧ text = text' := by
  have chars := congrArg String.toList same
  simp only [String.toList_append, isSeparator, List.append_assoc, List.singleton_append] at chars
  obtain ⟨sameRest, sameText⟩ := separator_then_text free free' chars
  exact ⟨String.toList_inj.mp sameRest, String.toList_inj.mp sameText⟩

/-- The last part of a text, where it is a number. -/
theorem last_number (notDigit : c.isDigit = false) {m n : Nat}
    (same : left ++ separator ++ toString m = right ++ separator ++ toString n) :
    left = right ∧ m = n := by
  have digits : ∀ k : Nat, (toString k).toList = Nat.toDigits 10 k := by
    intro k
    rw [Nat.toString_eq_repr, Nat.toList_repr]
  have free : ∀ k : Nat, c ∉ (toString k).toList := by
    intro k
    rw [digits]
    exact not_mem_toDigits notDigit k
  obtain ⟨sameRest, sameText⟩ := last_text isSeparator (free m) (free n) same
  have sameDigits := congrArg String.toList sameText
  rw [digits, digits] at sameDigits
  exact ⟨sameRest, toDigits_injective sameDigits⟩

end Strings

end OpendataIngest.Decimal
