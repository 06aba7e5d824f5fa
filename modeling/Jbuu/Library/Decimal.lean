/-
# Library.Decimal — decimal fields of one width, in order

`fixed w n` writes the low `w` digits of `n`. Texts compare by their first difference, so
fields of one width compare as their numbers (`fixed_lt`), and a text made of such fields
compares field by field (`fixed_append_lt`). `fill_toDigits` says that a number filled up with
zeros is one.
-/
import Mathlib.Data.List.Lex
import Mathlib.Order.Defs.LinearOrder
import Mathlib.Tactic.Ring

namespace Jbuu.Library.Decimal

set_option autoImplicit false

/-- The low `width` digits of a number. -/
def fixed : Nat → Nat → List Char
  | 0, _ => []
  | width + 1, n => fixed width (n / 10) ++ [(n % 10).digitChar]

@[simp] theorem length_fixed (width n : Nat) : (fixed width n).length = width := by
  induction width generalizing n with
  | zero => rfl
  | succ width ih => simp [fixed, ih]

/-- In front of texts of one length the order is decided. -/
theorem append_lt_append {α : Type} [LT α] {a b : List α} (same : a.length = b.length) (less : a < b)
    (s t : List α) : a ++ s < b ++ t := by
  induction a generalizing b with
  | nil =>
      rw [List.length_eq_zero_iff.mp same.symm] at less
      nomatch less
  | cons x a ih =>
      cases less with
      | rel less => exact .rel less
      | cons less => exact .cons (ih (by simpa using same) less)

theorem digitChar_lt : ∀ d < 10, ∀ e < d, e.digitChar < d.digitChar := by decide

/-- Fields of one width are in the order of their numbers. -/
theorem fixed_lt {width n m : Nat} (less : n < m) (fits : m < 10 ^ width) : fixed width n < fixed width m := by
  induction width generalizing n m with
  | zero => omega
  | succ width ih =>
      rw [Nat.pow_succ] at fits
      simp only [fixed]
      by_cases front : n / 10 = m / 10
      · rw [front]
        refine List.Lex.append_left _ (.rel ?_) _
        exact digitChar_lt _ (by omega) _ (by omega)
      · have above : n / 10 < m / 10 := by omega
        exact append_lt_append (by simp) (ih above (by omega)) _ _

/-- One field, and what follows it. -/
theorem fixed_append_lt {width n m : Nat} {s t : List Char} (fits : m < 10 ^ width)
    (less : n < m ∨ n = m ∧ s < t) : fixed width n ++ s < fixed width m ++ t := by
  rcases less with less | ⟨rfl, less⟩
  · exact append_lt_append (by simp) (fixed_lt less fits) s t
  · exact List.Lex.append_left _ less _

/-- A number with zeros in front of it. -/
theorem fill_toDigits {width n : Nat} (some_ : 0 < width) (fits : n < 10 ^ width) :
    List.replicate (width - (Nat.toDigits 10 n).length) '0' ++ Nat.toDigits 10 n = fixed width n := by
  induction width, some_ using Nat.le_induction generalizing n with
  | base =>
      rw [Nat.pow_one] at fits
      simp [fixed, Nat.toDigits_of_lt_base fits, Nat.mod_eq_of_lt fits]
  | succ width some_ ih =>
      rw [Nat.pow_succ] at fits
      have front := ih (show n / 10 < 10 ^ width by omega)
      rw [fixed, ← front]
      by_cases digit : n < 10
      · -- one digit: the zeros reach up to it
        obtain ⟨zeros, rfl⟩ : ∃ zeros, width = zeros + 1 := ⟨width - 1, by omega⟩
        simp [Nat.toDigits_of_lt_base digit, Nat.div_eq_of_lt digit, Nat.mod_eq_of_lt digit,
          List.replicate_succ']
      · rw [Nat.toDigits_of_base_le (by omega) (by omega)]
        simp

end Jbuu.Library.Decimal
