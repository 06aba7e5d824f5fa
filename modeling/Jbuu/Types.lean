/-
# Types — the shared value types of the workspace

The newtypes of `otp-types`: pointers, generations, sequences, epochs, directions,
roles and nonces. Integers keep the width the code gives them. `checkedAdd` is
`checked_add`: `none` where the sum leaves the type, so that a pointer, a
generation or a sequence never wraps.
-/
import Jbuu.Library.BigEndian

namespace Jbuu

set_option autoImplicit false

open Jbuu.Library.BigEndian (Bytes Exactly)

/-! ## Fixed-width integers and their wire form -/

/-- `u64::checked_add`. -/
def checkedAdd (a b : UInt64) : Option UInt64 :=
  if a.toNat + b.toNat < 2 ^ 64 then some (a + b) else none

theorem checkedAdd_eq_some {a b c : UInt64} :
    checkedAdd a b = some c ↔ a.toNat + b.toNat < 2 ^ 64 ∧ c.toNat = a.toNat + b.toNat := by
  unfold checkedAdd
  split
  · rename_i fits
    simp only [Option.some.injEq, fits, true_and, ← UInt64.toNat_inj, UInt64.toNat_add,
      Nat.mod_eq_of_lt fits]
    exact eq_comm
  · simp_all

theorem checkedAdd_eq_none {a b : UInt64} :
    checkedAdd a b = none ↔ 2 ^ 64 ≤ a.toNat + b.toNat := by
  unfold checkedAdd
  split <;> simp_all

/-- `u64::to_be_bytes`. -/
def u64Bytes (x : UInt64) : Bytes := Library.BigEndian.encode 8 x.toNat

/-- `u64::from_be_bytes`, on a slice of eight bytes. -/
def u64Of (bytes : Bytes) : UInt64 := UInt64.ofNat (Library.BigEndian.decode bytes)

def u32Bytes (x : UInt32) : Bytes := Library.BigEndian.encode 4 x.toNat

def u32Of (bytes : Bytes) : UInt32 := UInt32.ofNat (Library.BigEndian.decode bytes)

def u16Bytes (x : UInt16) : Bytes := Library.BigEndian.encode 2 x.toNat

def u16Of (bytes : Bytes) : UInt16 := UInt16.ofNat (Library.BigEndian.decode bytes)

@[simp] theorem length_u64Bytes (x : UInt64) : (u64Bytes x).length = 8 :=
  Library.BigEndian.length_encode 8 _

@[simp] theorem length_u32Bytes (x : UInt32) : (u32Bytes x).length = 4 :=
  Library.BigEndian.length_encode 4 _

@[simp] theorem length_u16Bytes (x : UInt16) : (u16Bytes x).length = 2 :=
  Library.BigEndian.length_encode 2 _

@[simp] theorem u64Of_u64Bytes (x : UInt64) : u64Of (u64Bytes x) = x := by
  rw [u64Of, u64Bytes, Library.BigEndian.decode_encode (by simpa using x.toNat_lt)]
  exact UInt64.ofNat_toNat

@[simp] theorem u32Of_u32Bytes (x : UInt32) : u32Of (u32Bytes x) = x := by
  rw [u32Of, u32Bytes, Library.BigEndian.decode_encode (by simpa using x.toNat_lt)]
  exact UInt32.ofNat_toNat

@[simp] theorem u16Of_u16Bytes (x : UInt16) : u16Of (u16Bytes x) = x := by
  rw [u16Of, u16Bytes, Library.BigEndian.decode_encode (by simpa using x.toNat_lt)]
  exact UInt16.ofNat_toNat

theorem u64Bytes_u64Of {bytes : Bytes} (len : bytes.length = 8) :
    u64Bytes (u64Of bytes) = bytes := by
  have small := Library.BigEndian.decode_lt bytes
  have back := Library.BigEndian.encode_decode bytes
  rw [len] at small back
  rw [u64Bytes, u64Of, UInt64.toNat_ofNat', Nat.mod_eq_of_lt (by simpa using small), back]

theorem u32Bytes_u32Of {bytes : Bytes} (len : bytes.length = 4) :
    u32Bytes (u32Of bytes) = bytes := by
  have small := Library.BigEndian.decode_lt bytes
  have back := Library.BigEndian.encode_decode bytes
  rw [len] at small back
  rw [u32Bytes, u32Of, UInt32.toNat_ofNat', Nat.mod_eq_of_lt (by simpa using small), back]

theorem u16Bytes_u16Of {bytes : Bytes} (len : bytes.length = 2) :
    u16Bytes (u16Of bytes) = bytes := by
  have small := Library.BigEndian.decode_lt bytes
  have back := Library.BigEndian.encode_decode bytes
  rw [len] at small back
  rw [u16Bytes, u16Of, UInt16.toNat_ofNat', Nat.mod_eq_of_lt (by simpa using small), back]

theorem u64Bytes_inj {x y : UInt64} : u64Bytes x = u64Bytes y ↔ x = y :=
  ⟨fun same => by rw [← u64Of_u64Bytes x, same, u64Of_u64Bytes], fun same => by rw [same]⟩

theorem u32Bytes_inj {x y : UInt32} : u32Bytes x = u32Bytes y ↔ x = y :=
  ⟨fun same => by rw [← u32Of_u32Bytes x, same, u32Of_u32Bytes], fun same => by rw [same]⟩

theorem u16Bytes_inj {x y : UInt16} : u16Bytes x = u16Bytes y ↔ x = y :=
  ⟨fun same => by rw [← u16Of_u16Bytes x, same, u16Of_u16Bytes], fun same => by rw [same]⟩

/-- The bytes of an ASCII literal. -/
def ascii (text : String) : Bytes := text.toList.map fun c => UInt8.ofNat c.toNat

/-! ## Fields of a buffer -/

/-- `buf[from..to]`. -/
def slice (buf : Bytes) (start stop : Nat) : Bytes := (buf.drop start).take (stop - start)

/-- `buf[i]`. -/
def byteAt (buf : Bytes) (i : Nat) : UInt8 := buf.getD i 0

theorem length_slice {buf : Bytes} {start stop : Nat} (fits : stop ≤ buf.length) :
    (slice buf start stop).length = stop - start := by
  simp [slice]
  omega

/-- A slice that lies in the front of a concatenation is a slice of the front. -/
theorem slice_append {front rest : Bytes} {start stop : Nat} (inside : stop ≤ front.length) :
    slice (front ++ rest) start stop = slice front start stop := by
  unfold slice
  by_cases empty : front.length < start
  · have none_left : stop - start = 0 := by omega
    simp [none_left]
  · rw [List.drop_append_of_le_length (by omega), List.take_append_of_le_length (by simp; omega)]

/-- Two adjacent slices. -/
theorem slice_append_slice {buf : Bytes} {start mid stop : Nat} (low : start ≤ mid)
    (high : mid ≤ stop) : slice buf start mid ++ slice buf mid stop = slice buf start stop := by
  unfold slice
  rw [show buf.drop mid = (buf.drop start).drop (mid - start) by rw [List.drop_drop]; congr 1; omega,
    show stop - start = (mid - start) + (stop - mid) by omega, List.take_add]

theorem slice_one {buf : Bytes} {i : Nat} (inside : i < buf.length) :
    slice buf i (i + 1) = [byteAt buf i] := by
  rw [slice, Nat.add_sub_cancel_left, List.drop_eq_getElem_cons inside, List.take_succ_cons,
    List.take_zero, byteAt, List.getD_eq_getElem?_getD, List.getElem?_eq_getElem inside]
  rfl

theorem byteAt_append {front rest : Bytes} {i : Nat} (inside : i < front.length) :
    byteAt (front ++ rest) i = byteAt front i := by
  simp [byteAt, List.getElem?_append, inside]

/-- A field that lies in both. -/
theorem slice_of_front {front whole : Bytes} (within : front <+: whole) {start stop : Nat}
    (inside : stop ≤ front.length) : slice front start stop = slice whole start stop := by
  obtain ⟨rest, rfl⟩ := within
  exact (slice_append inside).symm

/-- A slice of known width as a fixed-size array: `copy_from_slice`. -/
def sliceExactly (n : Nat) (buf : Bytes) (start : Nat) : Exactly n :=
  if h : (slice buf start (start + n)).length = n then ⟨slice buf start (start + n), h⟩
  else Exactly.replicate n 0

theorem sliceExactly_eq {n : Nat} {buf : Bytes} {start : Nat} (field : Exactly n)
    (same : slice buf start (start + n) = field.val) : sliceExactly n buf start = field := by
  unfold sliceExactly
  split
  · exact Subtype.ext same
  · rename_i wrong
    exact absurd (same ▸ field.property) wrong

/-! ## The newtypes -/

/-- `SEGMENT_LEN`: a segment is two 256-bit direction keys. -/
def segmentLen : Nat := 64

/-- `DIRECTION_KEY_LEN`. -/
def directionKeyLen : Nat := 32

/-- `TAG_LEN`. -/
def tagLen : Nat := 16

/-- A 64-byte segment body. -/
abbrev Segment := Exactly 64

/-- A SHA-256 digest. The hash itself is a parameter of every model that uses it. -/
abbrev Digest := Exactly 32

abbrev Tag := Exactly 16

structure BookId where
  asBytes : Exactly 16
  deriving DecidableEq, Repr

/-- Segment index, the monotone pointer. -/
structure SegmentIndex where
  get : UInt64
  deriving DecidableEq, Repr

namespace SegmentIndex

def zero : SegmentIndex := ⟨0⟩

/-- One step forward; `none` is the panic of the code's `expect`. -/
def next (i : SegmentIndex) : Option SegmentIndex := (checkedAdd i.get 1).map .mk

end SegmentIndex

structure Generation where
  get : UInt64
  deriving DecidableEq, Repr

structure Sequence where
  get : UInt64
  deriving DecidableEq, Repr

namespace Sequence

def zero : Sequence := ⟨0⟩

/-- The next sequence number, `none` after `2^64 - 1`. -/
def next (s : Sequence) : Option Sequence := (checkedAdd s.get 1).map .mk

theorem next_eq_some {s t : Sequence} :
    s.next = some t ↔ s.get.toNat + 1 < 2 ^ 64 ∧ t.get.toNat = s.get.toNat + 1 := by
  obtain ⟨n⟩ := t
  simp [next, checkedAdd_eq_some]

end Sequence

structure Epoch where
  get : UInt32
  deriving DecidableEq, Repr

inductive Direction where
  | clientToServer
  | serverToClient
  deriving DecidableEq, Repr

def Direction.opposite : Direction → Direction
  | .clientToServer => .serverToClient
  | .serverToClient => .clientToServer

@[simp] theorem Direction.opposite_opposite (d : Direction) : d.opposite.opposite = d := by
  cases d <;> rfl

theorem Direction.eq_or_opposite (d d' : Direction) : d' = d ∨ d' = d.opposite := by
  cases d <;> cases d' <;> simp [Direction.opposite]

theorem Direction.opposite_ne (d : Direction) : d.opposite ≠ d := by
  cases d <;> nofun

inductive Role where
  | client
  | server
  deriving DecidableEq, Repr

/-- The direction this role sends in. -/
def Role.sendDirection : Role → Direction
  | .client => .clientToServer
  | .server => .serverToClient

/-- A 16-byte nonce of the handshake (`ClientNonce`, `ServerNonce`, `SessionNonce`). -/
abbrev Nonce16 := Exactly 16

/-- The 96-bit AEAD nonce. -/
abbrev Nonce96 := Exactly 12

/-- A pair indexed by direction: the code's two-element arrays indexed by
`direction_index`. -/
structure PerDirection (α : Type) where
  c2s : α
  s2c : α
  deriving DecidableEq, Repr

namespace PerDirection

variable {α : Type}

def get (p : PerDirection α) : Direction → α
  | .clientToServer => p.c2s
  | .serverToClient => p.s2c

def set (p : PerDirection α) (d : Direction) (value : α) : PerDirection α :=
  match d with
  | .clientToServer => { p with c2s := value }
  | .serverToClient => { p with s2c := value }

@[simp] theorem get_set_same (p : PerDirection α) (d : Direction) (value : α) :
    (p.set d value).get d = value := by
  cases d <;> rfl

theorem get_set_other (p : PerDirection α) {d e : Direction} (value : α) (ne : e ≠ d) :
    (p.set d value).get e = p.get e := by
  cases d <;> cases e <;> first | rfl | exact absurd rfl ne

/-- What holds of every entry, after one was replaced. -/
theorem forall_set {P : Direction → α → Prop} {p : PerDirection α} {d : Direction} {value : α}
    (there : P d value) (others : ∀ e, P e (p.get e)) : ∀ e, P e ((p.set d value).get e) := by
  intro e
  by_cases here : e = d
  · subst here
    rwa [get_set_same]
  · rw [get_set_other _ _ here]
    exact others e

@[simp] theorem get_set_opposite (p : PerDirection α) (d : Direction) (value : α) :
    (p.set d value).get d.opposite = p.get d.opposite := by
  cases d <;> rfl

end PerDirection

/-! ## Errors -/

inductive ErrorCategory where
  | book
  | codec
  | anchor
  | allocation
  | recovery
  | handshake
  | session
  | transport
  | terminal
  | platform
  | internal
  deriving DecidableEq, Repr

end Jbuu
