/-
# Book.Header — the 128 bytes at the front of a book

`otp-book/src/header.rs`: a fixed layout of big-endian fields, a reserved area of zeroes and
the hash of what stands before it. `decode` and `encode` are inverse on what they accept
(`encode_of_decode`, `decode_encode`), and a header that `validate` accepts has a file size
that fits 64 bits (`expectedFileSize_of_valid`).
-/
import Jbuu.Types

namespace Jbuu

set_option autoImplicit false

open Jbuu.Library.BigEndian (Bytes Exactly)

inductive BookError where
  | notFound
  | invalidHeader (reason : String)
  | segmentOutOfRange (index : SegmentIndex) (count : UInt64)
  | io
  deriving DecidableEq, Repr

/-- `u64::checked_mul`. -/
def checkedMul (a b : UInt64) : Option UInt64 :=
  if a.toNat * b.toNat < 2 ^ 64 then some (a * b) else none

namespace Book

/-- `BOOK_MAGIC`, the ASCII of `OTPB`. -/
def bookMagic : Bytes := [0x4f, 0x54, 0x50, 0x42]

def bookVersion : UInt16 := 1

def headerLen : Nat := 128

def segmentAreaOffset : UInt64 := 128

/-- `(1 << 40) - 1`. -/
def maxSegmentCount : UInt64 := 1099511627775

def hashedPrefixLen : Nat := 96

def reservedLen : Nat := 62

structure BookHeader where
  version : UInt16
  bookId : BookId
  segmentLen : UInt32
  segmentCount : UInt64
  deriving DecidableEq, Repr

namespace BookHeader

def validate (h : BookHeader) : Except String Unit :=
  if h.version ≠ bookVersion then .error "unsupported-version"
  else if h.segmentLen.toNat ≠ Jbuu.segmentLen then .error "segment-len-not-64"
  else if h.segmentCount = 0 ∨ maxSegmentCount < h.segmentCount then
    .error "segment-count-out-of-range"
  else .ok ()

def new (bookId : BookId) (segmentCount : UInt64) : Except String BookHeader := do
  let h : BookHeader :=
    { version := bookVersion, bookId, segmentLen := UInt32.ofNat Jbuu.segmentLen, segmentCount }
  h.validate
  pure h

/-- The checked sum of the two areas. -/
def expectedFileSize (h : BookHeader) : Option UInt64 :=
  match checkedMul h.segmentCount (UInt64.ofNat Jbuu.segmentLen) with
  | some body => checkedAdd segmentAreaOffset body
  | none => none

/-- What the hash covers: `out[..HASHED_PREFIX_LEN]`. -/
def hashedPrefix (h : BookHeader) : Bytes :=
  bookMagic ++ (u16Bytes h.version ++ (u32Bytes h.segmentLen ++ (u64Bytes h.segmentCount ++
    (h.bookId.asBytes.val ++ List.replicate reservedLen 0))))

def encode (sha : Bytes → Digest) (h : BookHeader) : Bytes :=
  h.hashedPrefix ++ (sha h.hashedPrefix).val

def decode (sha : Bytes → Digest) (bytes : Bytes) : Except String BookHeader :=
  let version := u16Of (slice bytes 4 6)
  let segmentLen := u32Of (slice bytes 6 10)
  let segmentCount := u64Of (slice bytes 10 18)
  if bytes.length ≠ headerLen then .error "header-length"
  else if slice bytes 0 4 ≠ bookMagic then .error "magic"
  else if version ≠ bookVersion then .error "unsupported-version"
  else if segmentLen.toNat ≠ Jbuu.segmentLen then .error "segment-len-not-64"
  else if segmentCount = 0 ∨ maxSegmentCount < segmentCount then
    .error "segment-count-out-of-range"
  else if slice bytes 34 hashedPrefixLen ≠ List.replicate reservedLen 0 then
    .error "reserved-not-zero"
  else if slice bytes hashedPrefixLen headerLen ≠ (sha (slice bytes 0 hashedPrefixLen)).val then
    .error "header-hash-mismatch"
  else .ok { version, bookId := ⟨sliceExactly 16 bytes 18⟩, segmentLen, segmentCount }

/-! ## The layout -/

variable {sha : Bytes → Digest} {h : BookHeader} {bytes : Bytes}

@[simp] theorem length_hashedPrefix (h : BookHeader) : h.hashedPrefix.length = 96 := by
  simp [hashedPrefix, bookMagic, reservedLen]

@[simp] theorem length_encode (sha : Bytes → Digest) (h : BookHeader) : (h.encode sha).length = 128 := by
  simp [encode]

/-- What `validate` checks. -/
structure Valid (h : BookHeader) : Prop where
  version : h.version = bookVersion
  segmentLen : h.segmentLen.toNat = 64
  positive : 0 < h.segmentCount.toNat
  bounded : h.segmentCount.toNat < 2 ^ 40

theorem count_in_range {n : UInt64} :
    ¬(n = 0 ∨ maxSegmentCount < n) ↔ 0 < n.toNat ∧ n.toNat < 2 ^ 40 := by
  rw [UInt64.lt_iff_toNat_lt, ← UInt64.toNat_inj, show maxSegmentCount.toNat = 2 ^ 40 - 1 by decide,
    UInt64.toNat_zero]
  omega

theorem validate_eq_ok : h.validate = .ok () ↔ h.Valid := by
  unfold validate
  split
  · rename_i wrong
    exact ⟨nofun, fun valid => absurd valid.version wrong⟩
  · rename_i version
    split
    · rename_i wrong
      exact ⟨nofun, fun valid => absurd valid.segmentLen wrong⟩
    · rename_i len
      split
      · rename_i wrong
        exact ⟨nofun, fun valid => absurd wrong (count_in_range.mpr ⟨valid.positive, valid.bounded⟩)⟩
      · rename_i range
        obtain ⟨positive, bounded⟩ := count_in_range.mp range
        exact ⟨fun _ => ⟨not_not.mp version, not_not.mp len, positive, bounded⟩, fun _ => rfl⟩

theorem new_eq_ok {bookId : BookId} {n : UInt64} (made : new bookId n = .ok h) :
    h.Valid ∧ h.bookId = bookId ∧ h.segmentCount = n := by
  simp only [new] at made
  cases valid : validate ⟨bookVersion, bookId, UInt32.ofNat Jbuu.segmentLen, n⟩ with
  | error reason => rw [valid] at made; nomatch made
  | ok =>
      rw [valid] at made
      cases made
      exact ⟨validate_eq_ok.mp valid, rfl, rfl⟩

section Fields

variable (sha : Bytes → Digest) (h : BookHeader)

theorem slice_hashedPrefix : slice (h.encode sha) 0 96 = h.hashedPrefix := by
  simp [slice, encode]

theorem slice_headerHash : slice (h.encode sha) 96 128 = (sha h.hashedPrefix).val := by
  simp [slice, encode, List.take_of_length_le]

/-- A field that lies in what the hash covers. -/
theorem slice_encode {start stop : Nat} (inside : stop ≤ 96) :
    slice (h.encode sha) start stop = slice h.hashedPrefix start stop := by
  apply slice_append
  simpa using inside

/-- **`decode` reads back every valid header.** -/
theorem decode_encode (valid : h.Valid) : decode sha (h.encode sha) = .ok h := by
  have magic : slice (h.encode sha) 0 4 = bookMagic := by
    rw [slice_encode sha h (by decide)]
    simp [slice, hashedPrefix, bookMagic]
  have version : slice (h.encode sha) 4 6 = u16Bytes h.version := by
    rw [slice_encode sha h (by decide)]
    simp [slice, hashedPrefix, bookMagic]
  have segmentLen : slice (h.encode sha) 6 10 = u32Bytes h.segmentLen := by
    rw [slice_encode sha h (by decide)]
    simp [slice, hashedPrefix, bookMagic]
  have segmentCount : slice (h.encode sha) 10 18 = u64Bytes h.segmentCount := by
    rw [slice_encode sha h (by decide)]
    simp [slice, hashedPrefix, bookMagic, List.drop_append, List.drop_of_length_le]
  have id : slice (h.encode sha) 18 34 = h.bookId.asBytes.val := by
    rw [slice_encode sha h (by decide)]
    simp [slice, hashedPrefix, bookMagic, List.drop_append, List.drop_of_length_le]
  have reserved : slice (h.encode sha) 34 96 = List.replicate reservedLen 0 := by
    rw [slice_encode sha h le_rfl]
    simp [slice, hashedPrefix, bookMagic, List.drop_append, List.drop_of_length_le, List.take_of_length_le,
      show reservedLen = 62 from rfl]
  have idExactly : sliceExactly 16 (h.encode sha) 18 = h.bookId.asBytes := sliceExactly_eq _ id
  have range := count_in_range.mpr ⟨valid.positive, valid.bounded⟩
  simp only [decode, headerLen, hashedPrefixLen, length_encode, magic, version, segmentLen, segmentCount,
    reserved, slice_hashedPrefix, slice_headerHash, idExactly, u16Of_u16Bytes, u32Of_u32Bytes,
    u64Of_u64Bytes, valid.version, valid.segmentLen, range, Jbuu.segmentLen, ne_eq, not_true_eq_false,
    if_false]
  rw [← valid.version]

end Fields

/-- What `decode` accepts is the encoding of a valid header. -/
theorem decode_eq_ok (accepted : decode sha bytes = .ok h) : h.Valid ∧ h.encode sha = bytes := by
  simp only [decode] at accepted
  -- one check after the other
  split at accepted
  · nomatch accepted
  rename_i len
  split at accepted
  · nomatch accepted
  rename_i magic
  split at accepted
  · nomatch accepted
  rename_i version
  split at accepted
  · nomatch accepted
  rename_i segmentLen
  split at accepted
  · nomatch accepted
  rename_i range
  split at accepted
  · nomatch accepted
  rename_i reserved
  split at accepted
  · nomatch accepted
  rename_i hash
  cases accepted
  rw [not_not] at len magic version segmentLen reserved hash
  obtain ⟨positive, bounded⟩ := count_in_range.mp range
  refine ⟨⟨version, segmentLen, positive, bounded⟩, ?_⟩
  have inside {start stop : Nat} (fits : stop ≤ 128) : (slice bytes start stop).length = stop - start :=
    length_slice (by rw [len]; exact fits)
  have id : (sliceExactly 16 bytes 18).val = slice bytes 18 34 := by
    rw [sliceExactly, dif_pos (inside (by decide))]
  have front : hashedPrefix ⟨u16Of (slice bytes 4 6), ⟨sliceExactly 16 bytes 18⟩, u32Of (slice bytes 6 10),
      u64Of (slice bytes 10 18)⟩ = slice bytes 0 96 := by
    simp only [hashedPrefix]
    rw [← magic, u16Bytes_u16Of (inside (by decide)), u32Bytes_u32Of (inside (by decide)),
      u64Bytes_u64Of (inside (by decide)), id, ← reserved, hashedPrefixLen,
      slice_append_slice (by decide) (by decide), slice_append_slice (by decide) (by decide),
      slice_append_slice (by decide) (by decide), slice_append_slice (by decide) (by decide),
      slice_append_slice (by decide) (by decide)]
  have hash96 : slice bytes 96 128 = (sha (slice bytes 0 96)).val := hash
  rw [encode, front, ← hash96, slice_append_slice (by decide) (by decide), slice]
  exact List.take_of_length_le (by simp [len, headerLen])

/-- **`encode` gives back what `decode` accepts.** -/
theorem encode_of_decode (accepted : decode sha bytes = .ok h) : h.encode sha = bytes :=
  (decode_eq_ok accepted).2

/-- The size of the file of a valid header, without overflow. -/
theorem expectedFileSize_of_valid (valid : h.Valid) :
    ∃ size, h.expectedFileSize = some size ∧ size.toNat = 128 + 64 * h.segmentCount.toNat := by
  have bounded := valid.bounded
  have width : (UInt64.ofNat Jbuu.segmentLen).toNat = 64 := by decide
  obtain ⟨body, product, exact_⟩ : ∃ body, checkedMul h.segmentCount (UInt64.ofNat Jbuu.segmentLen) = some body ∧
      body.toNat = h.segmentCount.toNat * 64 := by
    have fits : h.segmentCount.toNat * (UInt64.ofNat Jbuu.segmentLen).toNat < 2 ^ 64 := by rw [width]; omega
    refine ⟨h.segmentCount * UInt64.ofNat Jbuu.segmentLen, by simp only [checkedMul, fits, if_true], ?_⟩
    rw [UInt64.toNat_mul, Nat.mod_eq_of_lt fits, width]
  have area : segmentAreaOffset.toNat = 128 := by decide
  have fits : segmentAreaOffset.toNat + body.toNat < 2 ^ 64 := by rw [area, exact_]; omega
  refine ⟨segmentAreaOffset + body, ?_, ?_⟩
  · simp only [expectedFileSize, product, checkedAdd, fits, if_true]
  · rw [UInt64.toNat_add, Nat.mod_eq_of_lt fits, area, exact_]
    omega

end BookHeader

end Book

end Jbuu
