/-
# FullOtp.Pad — pad streams, their cursor and what is taken from them

`PadStream` of `otp-fullotp/src/pad.rs`: the 4096 pad bytes of one direction, consumed from
the front. A record takes a 32-byte one-time key and then its XOR pad; both are zeroed in
place as they are taken, and the cursor moves once the record is made or verified. The
cursor bound is a field, and the functions whose slices need room ask for it.

As ghosts, what is taken also names its absolute bytes (`Span`), and `held` is what a
stream still has to give, by address.
-/
import Jbuu.Library.OneTime
import Jbuu.FullOtp.Wire

namespace Jbuu.FullOtp

set_option autoImplicit false

open Jbuu.Library.BigEndian (Bytes Exactly)
open Jbuu.Library

/-- `PAD_HALF`: the pad bytes of one direction. -/
def padHalf : Nat := 4096

/-- `MAC_KEY_LEN`. -/
def macKeyLen : Nat := 32

/-- `LOW_WATER`. -/
def lowWater : Nat := 1024

abbrev MacKey := Exactly 32

/-- The 128 segments of a bundle. -/
abbrev Bundle := Exactly 8192

structure PadStream where
  bundleId : UInt64
  baseSegment : UInt64
  buf : Exactly 4096
  cursor : Nat
  inside : cursor ≤ padHalf
  deriving DecidableEq

/-- `n` bytes from `start` on zeroed. -/
def burn (buf : Exactly 4096) (start n : Nat) : Exactly 4096 :=
  ⟨buf.val.take start ++ (List.replicate (min n (4096 - start)) 0 ++ buf.val.drop (start + n)), by
    simp
    omega⟩

/-- What an operation took from a stream, where it lay in the book, and the stream after it. -/
structure Cut (α σ : Type) where
  value : α
  span : Span
  rest : σ

namespace PadStream

def fromHalf (bundleId baseSegment : UInt64) (half : Exactly 4096) : PadStream where
  bundleId := bundleId
  baseSegment := baseSegment
  buf := half
  cursor := 0
  inside := Nat.zero_le _

def consumed (s : PadStream) : Nat := s.cursor

def remaining (s : PadStream) : Nat := padHalf - s.cursor

def maxRecordLen (s : PadStream) : Nat := min (s.remaining - macKeyLen) maxCiphertextLen

abbrev Fits (s : PadStream) (l : Nat) : Prop := macKeyLen + l ≤ s.remaining

def belowLowWater (s : PadStream) : Bool := s.remaining < lowWater

/-- The absolute bytes of the book at an offset of the stream. -/
def span (s : PadStream) (offset length : Nat) : Span :=
  ⟨s.baseSegment.toNat * 64 + offset, length⟩

/-- The next 32 bytes; the cursor stays. -/
def takeMacKey (s : PadStream) (_room : s.Fits 0) : Cut MacKey PadStream where
  value := sliceExactly 32 s.buf.val s.cursor
  span := s.span s.cursor macKeyLen
  rest := { s with buf := burn s.buf s.cursor macKeyLen }

/-- XOR with the bytes after the key; the cursor stays. -/
def xorBurnPad (s : PadStream) (dst : Bytes) (_room : s.Fits dst.length) : Cut Bytes PadStream where
  value := List.zipWith (· ^^^ ·) dst (s.buf.val.drop (s.cursor + macKeyLen))
  span := s.span (s.cursor + macKeyLen) dst.length
  rest := { s with buf := burn s.buf (s.cursor + macKeyLen) dst.length }

def advance (s : PadStream) (l : Nat) (room : s.Fits l) : PadStream where
  bundleId := s.bundleId
  baseSegment := s.baseSegment
  buf := s.buf
  cursor := s.cursor + (macKeyLen + l)
  inside := by
    have := s.inside
    simp only [Fits, remaining] at room
    omega

/-- The whole stream is wasted. -/
def waste (s : PadStream) : PadStream where
  bundleId := s.bundleId
  baseSegment := s.baseSegment
  buf := .replicate 4096 0
  cursor := padHalf
  inside := Nat.le_refl _

/-- The stream that takes the place of this one, and this one as it is dropped. -/
def retireInto (s next : PadStream) : PadStream × PadStream := (next, s.waste)

end PadStream

/-- The client's half and the server's half of a bundle. -/
def splitBundle (bundleId baseSegment : UInt64) (flat : Bundle) : PerDirection PadStream where
  c2s := .fromHalf bundleId baseSegment ⟨flat.val.take padHalf, by simp [padHalf]⟩
  s2c := .fromHalf bundleId (baseSegment + 64) ⟨flat.val.drop padHalf, by simp [padHalf]⟩

/-- `PadSource`: where bundles come from. `σ` is the state of the source. -/
structure PadSource (σ : Type) where
  reserveNextBundle : σ → Except PadSourceError (UInt64 × Bundle) × σ
  reserveBundleAt : UInt64 → σ → Except PadSourceError Bundle × σ

/-! ## What the operations change -/

namespace PadStream

variable {s : PadStream}

@[simp] theorem remaining_fromHalf (bundleId baseSegment : UInt64) (half : Exactly 4096) :
    (fromHalf bundleId baseSegment half).remaining = 4096 := Nat.sub_zero 4096

@[simp] theorem remaining_waste : s.waste.remaining = 0 := Nat.sub_self padHalf

theorem fits_of_le_maxRecordLen {l : Nat} (some_ : 0 < l) (small : l ≤ s.maxRecordLen) : s.Fits l := by
  unfold maxRecordLen at small
  unfold Fits
  omega

theorem Fits.zero {l : Nat} (room : s.Fits l) : s.Fits 0 := by
  unfold Fits at *
  omega

/-- The consumed front of the buffer reads as zero. -/
def Burned (s : PadStream) : Prop := s.buf.val.take s.cursor = List.replicate s.cursor 0

theorem burned_fromHalf (bundleId baseSegment : UInt64) (half : Exactly 4096) :
    (fromHalf bundleId baseSegment half).Burned := rfl

theorem burned_waste (s : PadStream) : s.waste.Burned := by
  apply List.take_of_length_le
  show (List.replicate 4096 (0 : UInt8)).length ≤ padHalf
  rw [List.length_replicate]
  exact Nat.le_refl _

/-- Burning from the end of a zero front on makes the front longer. -/
theorem take_burn {buf : Exactly 4096} {start n : Nat} (fits : start + n ≤ 4096)
    (zero : buf.val.take start = List.replicate start 0) :
    (burn buf start n).val.take (start + n) = List.replicate (start + n) 0 := by
  have room : min n (4096 - start) = n := by omega
  simp only [burn, zero, room]
  rw [← List.append_assoc, ← List.replicate_add, List.take_left' (List.length_replicate)]

end PadStream

/-! ## What a stream still has to give -/

namespace PadStream

variable {s : PadStream}

/-- The bytes from the cursor on, by address. -/
def held (s : PadStream) : Multiset Nat := (s.span s.cursor s.remaining).addresses

theorem held_waste (s : PadStream) : s.waste.held = 0 := by
  unfold held
  rw [remaining_waste]
  rfl

end PadStream

/-- The absolute bytes of a bundle. -/
def bundleSpan (base : UInt64) : Span := ⟨base.toNat * 64, 8192⟩

/-- The half of a bundle that one direction has. -/
def halfSpan (base : UInt64) : Direction → Span
  | .clientToServer => ⟨base.toNat * 64, 4096⟩
  | .serverToClient => ⟨base.toNat * 64 + 4096, 4096⟩

/-- The range of 128 segments from `base` on is one of a book. -/
def RangeFits (base : UInt64) : Prop := base.toNat + 128 ≤ 2 ^ 64

theorem toNat_add_64 {base : UInt64} (fits : RangeFits base) : (base + 64).toNat = base.toNat + 64 := by
  unfold RangeFits at fits
  rw [UInt64.toNat_add, Nat.mod_eq_of_lt]
  · rfl
  · simp
    omega

theorem span_splitBundle {bundleId base : UInt64} (fits : RangeFits base) (flat : Bundle) (d : Direction) :
    ((splitBundle bundleId base flat).get d).span 0 4096 = halfSpan base d := by
  cases d with
  | clientToServer => rfl
  | serverToClient =>
      simp only [splitBundle, PerDirection.get, PadStream.span, PadStream.fromHalf, halfSpan,
        toNat_add_64 fits]
      congr 1
      omega

/-- A new bundle has all its bytes to give. -/
theorem held_splitBundle (bundleId : UInt64) {base : UInt64} (fits : RangeFits base) (flat : Bundle) :
    (splitBundle bundleId base flat).c2s.held + (splitBundle bundleId base flat).s2c.held =
      (bundleSpan base).addresses := by
  have client := @span_splitBundle bundleId base fits flat .clientToServer
  have server := @span_splitBundle bundleId base fits flat .serverToClient
  exact (congrArg₂ (fun a b => Span.addresses a + Span.addresses b) client server).trans
    (Span.addresses_add _ 4096 4096).symm

end Jbuu.FullOtp
