/-
# Library.Utf8 — UTF-8, decoded whatever the bytes are

`decodeLossy` puts U+FFFD for what is no UTF-8: for each byte that begins no character, and for
each start of a character that does not go on. A start goes on as long as the bytes may still
belong to one character: after some lead bytes the second has less room than a continuation byte,
which keeps overlong forms, surrogates and values above U+10FFFF out.

On the UTF-8 of a text it is that text (`decodeLossy_encode`).
-/
import Mathlib.Data.List.Basic
import Mathlib.Tactic.Common

namespace Jbuu.Library.Utf8

set_option autoImplicit false

/-- U+FFFD. -/
def replacement : Char := '\uFFFD'

/-- Between characters, or within one: how many bytes it still has, what the next may be, and the
bits so far. -/
inductive State where
  | start
  | within (more : Nat) (low high : UInt8) (bits : Nat)
  deriving DecidableEq, Repr

/-- The first byte of a character. -/
def first (b : UInt8) : List Char × State :=
  if b ≤ 0x7F then ([Char.ofNat b.toNat], .start)
  else if 0xC2 ≤ b ∧ b ≤ 0xDF then ([], .within 1 0x80 0xBF (b.toNat % 32))
  else if b = 0xE0 then ([], .within 2 0xA0 0xBF 0)
  else if b = 0xED then ([], .within 2 0x80 0x9F 13)
  else if 0xE1 ≤ b ∧ b ≤ 0xEF then ([], .within 2 0x80 0xBF (b.toNat % 16))
  else if b = 0xF0 then ([], .within 3 0x90 0xBF 0)
  else if b = 0xF4 then ([], .within 3 0x80 0x8F 4)
  else if 0xF1 ≤ b ∧ b ≤ 0xF3 then ([], .within 3 0x80 0xBF (b.toNat % 8))
  else ([replacement], .start)

/-- What one byte gives, and where it leaves the decoder. -/
def step : State → UInt8 → List Char × State
  | .start, b => first b
  | .within more low high bits, b =>
      if low ≤ b ∧ b ≤ high then
        if more ≤ 1 then ([Char.ofNat (bits * 64 + b.toNat % 64)], .start)
        else ([], .within (more - 1) 0x80 0xBF (bits * 64 + b.toNat % 64))
      else (replacement :: (first b).1, (first b).2)

def decodeFrom : State → List UInt8 → List Char
  | .start, [] => []
  | .within _ _ _ _, [] => [replacement]
  | s, b :: rest => (step s b).1 ++ decodeFrom (step s b).2 rest

def decodeLossy (bytes : List UInt8) : List Char := decodeFrom .start bytes

/-! ## The UTF-8 of a text -/

theorem first_one : ∀ n < 0x80, first (UInt8.ofNat n) = ([Char.ofNat n], .start) := by decide

theorem first_two : ∀ n < 0x20, 2 ≤ n →
    first (UInt8.ofNat (n + 0xC0)) = ([], .within 1 0x80 0xBF n) := by decide

theorem first_three : ∀ n < 0x10, first (UInt8.ofNat (n + 0xE0)) =
    ([], .within 2 (if n = 0 then 0xA0 else 0x80) (if n = 13 then 0x9F else 0xBF) n) := by decide

theorem first_four : ∀ n < 5, first (UInt8.ofNat (n + 0xF0)) =
    ([], .within 3 (if n = 0 then 0x90 else 0x80) (if n = 4 then 0x8F else 0xBF) n) := by decide

theorem decodeFrom_cons (s : State) (b : UInt8) (rest : List UInt8) :
    decodeFrom s (b :: rest) = (step s b).1 ++ decodeFrom (step s b).2 rest := by
  cases s <;> rfl

section Tails

variable {more bits n : Nat} {low high : UInt8} (rest : List UInt8)

/-- A continuation byte, where the character allows it. -/
theorem step_tail (six : n < 0x40) (least : low.toNat ≤ n + 0x80) (most : n + 0x80 ≤ high.toNat) :
    step (.within more low high bits) (UInt8.ofNat (n + 0x80)) =
      if more ≤ 1 then ([Char.ofNat (bits * 64 + n)], .start)
      else ([], .within (more - 1) 0x80 0xBF (bits * 64 + n)) := by
  have value : (UInt8.ofNat (n + 0x80)).toNat = n + 0x80 := by
    rw [UInt8.toNat_ofNat', Nat.mod_eq_of_lt (by omega)]
  have six_bits : (n + 0x80) % 64 = n := by omega
  simp only [step, UInt8.le_iff_toNat_le, value, least, most, six_bits, and_self, if_true]

theorem decodeFrom_tail (six : n < 0x40) (least : low.toNat ≤ n + 0x80)
    (most : n + 0x80 ≤ high.toNat) (inside : 2 ≤ more) :
    decodeFrom (.within more low high bits) (UInt8.ofNat (n + 0x80) :: rest) =
      decodeFrom (.within (more - 1) 0x80 0xBF (bits * 64 + n)) rest := by
  rw [decodeFrom_cons, step_tail six least most, if_neg (by omega), List.nil_append]

theorem decodeFrom_last (six : n < 0x40) :
    decodeFrom (.within 1 0x80 0xBF bits) (UInt8.ofNat (n + 0x80) :: rest) =
      Char.ofNat (bits * 64 + n) :: decodeFrom .start rest := by
  have least : (0x80 : UInt8).toNat = 0x80 := rfl
  have most : (0xBF : UInt8).toNat = 0xBF := rfl
  rw [decodeFrom_cons, step_tail six (by omega) (by omega), if_pos (Nat.le_refl 1)]
  rfl

end Tails

/-- One character. -/
theorem decodeFrom_encodeChar (c : Char) (rest : List UInt8) :
    decodeFrom .start (String.utf8EncodeChar c ++ rest) = c :: decodeFrom .start rest := by
  have whole : Char.ofNat c.val.toNat = c := Char.ofNat_toNat c
  have valid : c.val.toNat < 0xD800 ∨ 0xDFFF < c.val.toNat ∧ c.val.toNat < 0x110000 := c.valid
  simp only [String.utf8EncodeChar]
  generalize c.val.toNat = v at whole valid
  split
  · rw [List.cons_append, List.nil_append, decodeFrom_cons]
    simp only [step]
    rw [first_one v (by omega), whole]
    rfl
  split
  · have bits : v / 64 % 32 * 64 + v % 64 = v := by omega
    simp only [List.cons_append, List.nil_append]
    rw [decodeFrom_cons]
    simp only [step]
    rw [first_two _ (by omega) (by omega), List.nil_append, decodeFrom_last _ (by omega), bits, whole]
  split
  · have bits : (v / 4096 % 16 * 64 + v / 64 % 64) * 64 + v % 64 = v := by omega
    simp only [List.cons_append, List.nil_append]
    rw [decodeFrom_cons]
    simp only [step]
    rw [first_three _ (by omega), List.nil_append, decodeFrom_tail _ (by omega) ?_ ?_ (Nat.le_refl 2),
      decodeFrom_last _ (by omega), bits, whole]
    · -- no overlong form
      split
      · simp
        omega
      · simp
    · -- no surrogate
      split <;> simp <;> omega
  · have bits : ((v / 262144 % 8 * 64 + v / 4096 % 64) * 64 + v / 64 % 64) * 64 + v % 64 = v := by omega
    have least : (0x80 : UInt8).toNat = 0x80 := rfl
    have most : (0xBF : UInt8).toNat = 0xBF := rfl
    simp only [List.cons_append, List.nil_append]
    rw [decodeFrom_cons]
    simp only [step]
    rw [first_four _ (by omega), List.nil_append, decodeFrom_tail _ (by omega) ?_ ?_ (by omega),
      decodeFrom_tail _ (by omega) (by omega) (by omega) (Nat.le_refl 2), decodeFrom_last _ (by omega),
      bits, whole]
    · split
      · simp
        omega
      · simp
    · split <;> simp <;> omega

theorem decodeLossy_encode (text : List Char) : decodeLossy (text.flatMap String.utf8EncodeChar) = text := by
  induction text with
  | nil => rfl
  | cons c text ih => rw [List.flatMap_cons, decodeLossy, decodeFrom_encodeChar, ← decodeLossy, ih]

example : decodeLossy [0x41, 0xE2, 0x82, 0x42, 0xED, 0xA0, 0x80, 0xF0, 0x9F, 0x98, 0x80] =
    ['A', replacement, 'B', replacement, replacement, replacement, Char.ofNat 0x1F600] := by decide

end Jbuu.Library.Utf8
