import Mathlib.Data.List.Basic
import Mathlib.Data.Int.Init
import Std.Data.String.ToInt

/-! # Printing a pair of integers with a separator

Two integers printed in decimal with a separator between them can be read back: the
printed text determines the pair, as long as the separator can occur in neither
number. -/

namespace SneakySneaky.Foundation

/-- The characters of a printed integer are digits, after a minus sign if it is negative. -/
theorem isDigit_or_minus_of_mem_repr {n : ℤ} {c : Char} (member : c ∈ n.repr.toList) :
    c.isDigit = true ∨ c = '-' := by
  rw [Int.repr_eq_if] at member
  split at member
  · rw [Nat.toList_repr] at member
    left; exact Nat.isDigit_of_mem_toDigits (by decide) (by decide) member
  · rw [String.toList_append, List.mem_append, Nat.toList_repr] at member
    rcases member with minus | digit
    · right; simpa using minus
    · left; exact Nat.isDigit_of_mem_toDigits (by decide) (by decide) digit

/-- Splitting at the first occurrence of an element is unique. -/
theorem append_cons_cancel {α : Type*} {separator : α} :
    ∀ {left left' right right' : List α}, separator ∉ left → separator ∉ left' →
      left ++ separator :: right = left' ++ separator :: right' → left = left' ∧ right = right'
  | [], [], _, _, _, _, equal => by simpa using equal
  | [], head :: _, _, _, _, absent, equal => by
    simp only [List.nil_append, List.cons_append, List.cons.injEq] at equal
    exact absurd (by simp [equal.1]) absent
  | head :: _, [], _, _, absent, _, equal => by
    simp only [List.nil_append, List.cons_append, List.cons.injEq] at equal
    exact absurd (by simp [equal.1]) absent
  | head :: left, head' :: left', right, right', absent, absent', equal => by
    simp only [List.cons_append, List.cons.injEq] at equal
    simp only [List.mem_cons, not_or] at absent absent'
    obtain ⟨lefts, rights⟩ := append_cons_cancel absent.2 absent'.2 equal.2
    exact ⟨by rw [equal.1, lefts], rights⟩

/-- Two integers in decimal, joined by a separator. -/
def joinDecimal (separator : Char) (first second : ℤ) : String :=
  first.repr ++ separator.toString ++ second.repr

theorem joinDecimal_injective {separator : Char} (noDigit : separator.isDigit = false)
    (noMinus : separator ≠ '-') {first second first' second' : ℤ}
    (equal : joinDecimal separator first second = joinDecimal separator first' second') :
    first = first' ∧ second = second' := by
  have absent : ∀ n : ℤ, separator ∉ n.repr.toList := by
    intro n member
    rcases isDigit_or_minus_of_mem_repr member with digit | minus
    · rw [noDigit] at digit; cases digit
    · exact noMinus minus
  -- The separator is in neither first number, so both texts split at its first occurrence.
  have characters := congrArg String.toList equal
  simp only [joinDecimal, String.toList_append, Char.toString, String.toList_singleton,
    List.append_assoc, List.singleton_append] at characters
  obtain ⟨firsts, seconds⟩ := append_cons_cancel (absent _) (absent _) characters
  exact ⟨Int.repr_injective (String.toList_injective firsts),
    Int.repr_injective (String.toList_injective seconds)⟩

end SneakySneaky.Foundation
