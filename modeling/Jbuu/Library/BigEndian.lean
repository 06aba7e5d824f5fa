/-
# Library.BigEndian — fixed-width big-endian bytes

A `w`-byte field of a wire format is `encode w n`; `decode` reads a byte string
back as a natural. The two are inverse on `n < 256 ^ w` (`decode_encode`) and on
byte strings of length `w` (`encode_decode`), which is what makes a format whose
fields are all of this kind canonical. `Exactly n` is a byte string of `n`
bytes, the fixed-size array of a systems language.
-/
import Mathlib.Data.List.Basic
import Mathlib.Tactic.Ring

namespace Jbuu.Library.BigEndian

set_option autoImplicit false

abbrev Bytes := List UInt8

/-- A byte string of exactly `n` bytes. -/
abbrev Exactly (n : Nat) := { bytes : Bytes // bytes.length = n }

namespace Exactly

/-- `n` copies of one byte. -/
def replicate (n : Nat) (b : UInt8) : Exactly n := ⟨List.replicate n b, by simp⟩

@[simp] theorem length_val {n : Nat} (b : Exactly n) : b.val.length = n := b.property

end Exactly

/-- The low `w` bytes of `n`, most significant first. -/
def encode : Nat → Nat → Bytes
  | 0, _ => []
  | w + 1, n => UInt8.ofNat (n / 256 ^ w) :: encode w n

/-- A byte string read as a natural, most significant byte first. -/
def decode : Bytes → Nat
  | [] => 0
  | b :: rest => b.toNat * 256 ^ rest.length + decode rest

@[simp] theorem length_encode (w n : Nat) : (encode w n).length = w := by
  induction w with
  | zero => rfl
  | succ w ih => simp [encode, ih]

theorem decode_lt (bytes : Bytes) : decode bytes < 256 ^ bytes.length := by
  induction bytes with
  | nil => simp [decode]
  | cons b rest ih =>
      have byte : b.toNat + 1 ≤ 256 := b.toNat_lt
      have scaled := Nat.mul_le_mul_right (256 ^ rest.length) byte
      rw [decode, List.length_cons, Nat.pow_succ, Nat.mul_comm (256 ^ rest.length)]
      rw [Nat.add_mul, Nat.one_mul] at scaled
      omega

/-- What `encode` keeps of `n` is its residue. -/
theorem decode_encode_mod (w n : Nat) : decode (encode w n) = n % 256 ^ w := by
  induction w with
  | zero => simp [encode, decode, Nat.mod_one]
  | succ w ih =>
      have byte : (UInt8.ofNat (n / 256 ^ w)).toNat = n / 256 ^ w % 256 := by simp
      rw [encode, decode, ih, length_encode, byte, Nat.pow_succ, Nat.mod_mul]
      ring

theorem decode_encode {w n : Nat} (fits : n < 256 ^ w) : decode (encode w n) = n := by
  rw [decode_encode_mod, Nat.mod_eq_of_lt fits]

/-- Only the low `w` bytes matter. -/
theorem encode_add_mul (w q n : Nat) : encode w (q * 256 ^ w + n) = encode w n := by
  induction w generalizing q with
  | zero => rfl
  | succ w ih =>
      have shift : q * 256 ^ (w + 1) + n = q * 256 * 256 ^ w + n := by ring
      rw [shift, encode, encode, ih]
      congr 1
      rw [Nat.add_comm, Nat.add_mul_div_right _ _ (Nat.pow_pos (by decide))]
      apply UInt8.toNat_inj.mp
      simp only [UInt8.toNat_ofNat']
      omega

theorem encode_decode (bytes : Bytes) : encode bytes.length (decode bytes) = bytes := by
  induction bytes with
  | nil => rfl
  | cons b rest ih =>
      rw [List.length_cons, decode, encode, encode_add_mul, ih]
      congr 1
      rw [Nat.add_comm, Nat.add_mul_div_right _ _ (Nat.pow_pos (by decide)),
        Nat.div_eq_of_lt (decode_lt rest), Nat.zero_add]
      exact UInt8.ofNat_toNat

/-! ## Fields of a concatenation -/

/-- Two concatenations whose heads have one length agree field by field. -/
theorem append_eq_iff {a b s t : Bytes} (same : a.length = b.length) :
    a ++ s = b ++ t ↔ a = b ∧ s = t := by
  constructor
  · exact fun h => List.append_inj h same
  · rintro ⟨rfl, rfl⟩
    rfl

theorem take_append {a s : Bytes} {n : Nat} (len : a.length = n) : (a ++ s).take n = a := by
  rw [List.take_append_of_le_length (by omega), List.take_of_length_le (by omega)]

theorem drop_append {a s : Bytes} {n : Nat} (len : a.length = n) : (a ++ s).drop n = s := by
  rw [List.drop_append_of_le_length (by omega), List.drop_of_length_le (by omega), List.nil_append]

end Jbuu.Library.BigEndian
