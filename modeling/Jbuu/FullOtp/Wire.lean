/-
# FullOtp.Wire — the OTP_DATA record on the wire

`otp-fullotp`'s `wire` and `error`: a record is a canonical header of 34 bytes, the
ciphertext and the tag. `decode` checks structure and bounds and nothing else; what the
fields mean is checked by the record layer and the pump. `decode_encode` is the round
trip of every record within the bounds (`OtpDataRecord.Bounded`).
-/
import Jbuu.Codec.Message

namespace Jbuu.FullOtp

set_option autoImplicit false

open Jbuu.Library.BigEndian (Bytes Exactly)

/-! ## Errors -/

inductive WireError where
  | tooShort
  | tooLong
  | version
  | msgType
  | mode
  | direction
  | ciphertextLen
  | lengthMismatch
  | offsetBounds
  deriving DecidableEq, Repr

/-- Errors of the data plane and the pump. -/
inductive OtpError where
  | wire (e : WireError)
  | direction
  | bundle
  | replay
  | gap
  | offset
  | tag
  | closed
  | doesNotFit
  deriving DecidableEq, Repr

inductive SendError where
  | closed
  | emptyPlaintext
  | sequenceExhausted
  | internal
  deriving DecidableEq, Repr

inductive PadSourceError where
  | pointerMismatch (localPointer announced : UInt64)
  | reserve (why : String)
  deriving DecidableEq, Repr

inductive PumpError where
  | data (e : OtpError)
  | source (e : PadSourceError)
  deriving DecidableEq, Repr

/-! ## The record -/

def otpVersion : UInt16 := 0x0003
def msgTypeOtpData : UInt16 := 0x0010
def modeFullOtpPoly1305 : UInt8 := 0x01
def headerLen : Nat := 34
def maxCiphertextLen : Nat := 4064
def minCiphertextLen : Nat := 1
def maxFrameLen : Nat := headerLen + maxCiphertextLen + tagLen
def padHalfWire : Nat := 4096

/-- `MAC_KEY_BOUND`. -/
def macKeyBound : Nat := 32

structure OtpDataRecord where
  direction : Direction
  bundleId : UInt64
  baseSegment : UInt64
  recordSeq : UInt64
  padOffset : UInt16
  ciphertext : Bytes
  tag : Tag
  deriving DecidableEq, Repr

def canonicalHeader (direction : Direction) (bundleId baseSegment recordSeq : UInt64)
    (padOffset : UInt16) (ciphertextLen : Nat) : Bytes :=
  u16Bytes otpVersion ++ (u16Bytes msgTypeOtpData ++ (modeFullOtpPoly1305 ::
    directionWire direction :: (u64Bytes bundleId ++ (u64Bytes baseSegment ++
      (u64Bytes recordSeq ++ (u16Bytes padOffset ++ u16Bytes (.ofNat ciphertextLen)))))))

@[simp] theorem length_canonicalHeader (direction : Direction)
    (bundleId baseSegment recordSeq : UInt64) (padOffset : UInt16) (ciphertextLen : Nat) :
    (canonicalHeader direction bundleId baseSegment recordSeq padOffset ciphertextLen).length =
      headerLen := by
  simp [canonicalHeader, headerLen]

namespace OtpDataRecord

def header (r : OtpDataRecord) : Bytes :=
  canonicalHeader r.direction r.bundleId r.baseSegment r.recordSeq r.padOffset r.ciphertext.length

def encode (r : OtpDataRecord) : Bytes := r.header ++ (r.ciphertext ++ r.tag.val)

/-- The bounds the format puts on a record. -/
structure Bounded (r : OtpDataRecord) : Prop where
  min : minCiphertextLen ≤ r.ciphertext.length
  max : r.ciphertext.length ≤ maxCiphertextLen
  offset : r.padOffset.toNat + macKeyBound + r.ciphertext.length ≤ padHalfWire

end OtpDataRecord

/-- `decode`, from the offset bound on: the fields of a frame whose header was accepted. -/
def decodeBody (bytes : Bytes) (direction : Direction) (ciphertextLen : Nat) :
    Except WireError OtpDataRecord :=
  let padOffset := u16Of (slice bytes 30 32)
  if padHalfWire < padOffset.toNat + macKeyBound + ciphertextLen then .error .offsetBounds
  else
    .ok
      { direction
        bundleId := u64Of (slice bytes 6 14)
        baseSegment := u64Of (slice bytes 14 22)
        recordSeq := u64Of (slice bytes 22 30)
        padOffset
        ciphertext := slice bytes headerLen (headerLen + ciphertextLen)
        tag := sliceExactly 16 bytes (bytes.length - tagLen) }

def decode (bytes : Bytes) : Except WireError OtpDataRecord :=
  if bytes.length < headerLen + minCiphertextLen + tagLen then .error .tooShort
  else if maxFrameLen < bytes.length then .error .tooLong
  else if u16Of (slice bytes 0 2) ≠ otpVersion then .error .version
  else if u16Of (slice bytes 2 4) ≠ msgTypeOtpData then .error .msgType
  else if byteAt bytes 4 ≠ modeFullOtpPoly1305 then .error .mode
  else
    match directionFromWire (byteAt bytes 5) with
    | none => .error .direction
    | some direction =>
        let ciphertextLen := (u16Of (slice bytes 32 34)).toNat
        if ¬(minCiphertextLen ≤ ciphertextLen ∧ ciphertextLen ≤ maxCiphertextLen) then
          .error .ciphertextLen
        else if bytes.length ≠ headerLen + ciphertextLen + tagLen then .error .lengthMismatch
        else decodeBody bytes direction ciphertextLen

/-! ## The round trip -/

section Fields

variable (r : OtpDataRecord)

@[simp] theorem length_header : r.header.length = headerLen := by
  simp [OtpDataRecord.header]

@[simp] theorem length_encode : r.encode.length = headerLen + r.ciphertext.length + tagLen := by
  simp [OtpDataRecord.encode, tagLen]
  omega

/-- A field of the header is read from the header. -/
theorem slice_encode {start stop : Nat} (inside : stop ≤ headerLen) :
    slice r.encode start stop = slice r.header start stop := by
  apply slice_append
  simpa using inside

theorem byteAt_encode {i : Nat} (inside : i < headerLen) :
    byteAt r.encode i = byteAt r.header i := by
  apply byteAt_append
  simpa using inside

theorem slice_ciphertext :
    slice r.encode headerLen (headerLen + r.ciphertext.length) = r.ciphertext := by
  unfold slice OtpDataRecord.encode
  rw [Library.BigEndian.drop_append (length_header r), Library.BigEndian.take_append (by omega)]

theorem slice_tag :
    slice r.encode (headerLen + r.ciphertext.length) (headerLen + r.ciphertext.length + 16) =
      r.tag.val := by
  unfold slice OtpDataRecord.encode
  rw [← List.append_assoc, Library.BigEndian.drop_append (by simp), List.take_of_length_le]
  simp

end Fields

theorem decode_encode {r : OtpDataRecord} (bounded : r.Bounded) : decode r.encode = .ok r := by
  have len := length_encode r
  have min := bounded.min
  have max := bounded.max
  have offset := bounded.offset
  have version : slice r.encode 0 2 = u16Bytes otpVersion := by
    rw [slice_encode r (by decide)]
    simp [slice, OtpDataRecord.header, canonicalHeader]
  have type : slice r.encode 2 4 = u16Bytes msgTypeOtpData := by
    rw [slice_encode r (by decide)]
    simp [slice, OtpDataRecord.header, canonicalHeader]
  have mode : byteAt r.encode 4 = modeFullOtpPoly1305 := by
    rw [byteAt_encode r (by decide)]
    simp [byteAt, OtpDataRecord.header, canonicalHeader, u16Bytes, Library.BigEndian.encode]
  have direction : byteAt r.encode 5 = directionWire r.direction := by
    rw [byteAt_encode r (by decide)]
    simp [byteAt, OtpDataRecord.header, canonicalHeader, u16Bytes, Library.BigEndian.encode]
  have bundle : slice r.encode 6 14 = u64Bytes r.bundleId := by
    rw [slice_encode r (by decide)]
    simp [slice, OtpDataRecord.header, canonicalHeader, List.drop_append, List.drop_of_length_le]
  have base : slice r.encode 14 22 = u64Bytes r.baseSegment := by
    rw [slice_encode r (by decide)]
    simp [slice, OtpDataRecord.header, canonicalHeader, List.drop_append, List.drop_of_length_le]
  have seq : slice r.encode 22 30 = u64Bytes r.recordSeq := by
    rw [slice_encode r (by decide)]
    simp [slice, OtpDataRecord.header, canonicalHeader, List.drop_append, List.drop_of_length_le]
  have pad : slice r.encode 30 32 = u16Bytes r.padOffset := by
    rw [slice_encode r (by decide)]
    simp [slice, OtpDataRecord.header, canonicalHeader, List.drop_append, List.drop_of_length_le]
  have wide : slice r.encode 32 34 = u16Bytes (.ofNat r.ciphertext.length) := by
    rw [slice_encode r (by decide)]
    simp [slice, OtpDataRecord.header, canonicalHeader, List.drop_append, List.drop_of_length_le,
      List.take_of_length_le]
  have count : (UInt16.ofNat r.ciphertext.length).toNat = r.ciphertext.length := by
    rw [UInt16.toNat_ofNat', Nat.mod_eq_of_lt]
    simp only [maxCiphertextLen] at max
    omega
  have tag : sliceExactly 16 r.encode (r.encode.length - tagLen) = r.tag := by
    apply sliceExactly_eq
    rw [len, Nat.add_sub_cancel]
    exact slice_tag r
  have long_ : ¬r.encode.length < headerLen + minCiphertextLen + tagLen := by omega
  have short : ¬maxFrameLen < r.encode.length := by
    simp only [maxFrameLen]
    omega
  unfold decode decodeBody
  rw [version, type, mode, direction, bundle, base, seq, pad, wide, tag, if_neg long_, if_neg short]
  simp only [u16Of_u16Bytes, u64Of_u64Bytes, directionFromWire_directionWire, count,
    slice_ciphertext, ne_eq, not_true_eq_false, if_false]
  rw [if_neg (not_not.mpr ⟨min, max⟩), if_neg (not_not.mpr len), if_neg (by omega)]

/-- What is in bytes that `decode` accepts. -/
structure WireFields (bytes : Bytes) (r : OtpDataRecord) : Prop where
  version : u16Of (slice bytes 0 2) = otpVersion
  type : u16Of (slice bytes 2 4) = msgTypeOtpData
  mode : byteAt bytes 4 = modeFullOtpPoly1305
  direction : directionFromWire (byteAt bytes 5) = some r.direction
  bundleId : r.bundleId = u64Of (slice bytes 6 14)
  baseSegment : r.baseSegment = u64Of (slice bytes 14 22)
  recordSeq : r.recordSeq = u64Of (slice bytes 22 30)
  padOffset : r.padOffset = u16Of (slice bytes 30 32)
  length : bytes.length = headerLen + (u16Of (slice bytes 32 34)).toNat + tagLen
  ciphertext : r.ciphertext = slice bytes headerLen (headerLen + (u16Of (slice bytes 32 34)).toNat)
  tag : r.tag = sliceExactly 16 bytes (bytes.length - tagLen)
  min : minCiphertextLen ≤ (u16Of (slice bytes 32 34)).toNat
  max : (u16Of (slice bytes 32 34)).toNat ≤ maxCiphertextLen
  offset : (u16Of (slice bytes 30 32)).toNat + macKeyBound + (u16Of (slice bytes 32 34)).toNat ≤ padHalfWire

theorem fields_of_decode {bytes : Bytes} {r : OtpDataRecord} (decoded : decode bytes = .ok r) : WireFields bytes r := by
  unfold decode at decoded
  split at decoded
  · nomatch decoded
  split at decoded
  · nomatch decoded
  split at decoded
  · nomatch decoded
  rename_i version
  split at decoded
  · nomatch decoded
  rename_i type
  split at decoded
  · nomatch decoded
  rename_i mode
  split at decoded
  · nomatch decoded
  rename_i direction known
  dsimp only at decoded
  split at decoded
  · nomatch decoded
  rename_i sized
  split at decoded
  · nomatch decoded
  rename_i exact_
  unfold decodeBody at decoded
  dsimp only at decoded
  split at decoded
  · nomatch decoded
  rename_i inside
  obtain rfl := Except.ok.inj decoded
  obtain ⟨min, max⟩ := not_not.mp sized
  exact ⟨not_not.mp version, not_not.mp type, not_not.mp mode, known, rfl, rfl, rfl, rfl, not_not.mp exact_, rfl,
    rfl, min, max, not_lt.mp inside⟩

theorem WireFields.length_ciphertext {bytes : Bytes} {r : OtpDataRecord} (reads : WireFields bytes r) :
    r.ciphertext.length = (u16Of (slice bytes 32 34)).toNat := by
  have length := reads.length
  rw [reads.ciphertext, length_slice (by omega)]
  omega

/-- What `decode` accepts is within the bounds. -/
theorem bounded_of_decode {bytes : Bytes} {r : OtpDataRecord} (decoded : decode bytes = .ok r) :
    r.Bounded := by
  have reads := fields_of_decode decoded
  have length := reads.length_ciphertext
  refine ⟨?_, ?_, ?_⟩
  · rw [length]
    exact reads.min
  · rw [length]
    exact reads.max
  · rw [length, reads.padOffset]
    exact reads.offset

theorem directionWire_of {b : UInt8} {d : Direction} (known : directionFromWire b = some d) :
    directionWire d = b := by
  unfold directionFromWire at known
  split at known
  · rename_i same
    rw [← Option.some.inj known, same]
    rfl
  · split at known
    · rename_i same
      rw [← Option.some.inj known, same]
      rfl
    · nomatch known

/-- **Bytes that are read as a record are its encoding.** -/
theorem encode_decode {bytes : Bytes} {r : OtpDataRecord} (decoded : decode bytes = .ok r) :
    r.encode = bytes := by
  have reads := fields_of_decode decoded
  have count := reads.length_ciphertext
  have length := reads.length
  simp only [headerLen, tagLen] at length
  have header : r.header = slice bytes 0 34 := by
    have one (i : Nat) (inside : i < bytes.length) (rest : Bytes) : byteAt bytes i :: rest = slice bytes i (i + 1) ++ rest := by
      rw [slice_one inside]
      rfl
    rw [OtpDataRecord.header, canonicalHeader, count, UInt16.ofNat_toNat, ← reads.version, ← reads.type, ← reads.mode,
      directionWire_of reads.direction, reads.bundleId, reads.baseSegment, reads.recordSeq, reads.padOffset,
      one 4 (by omega), one 5 (by omega), u16Bytes_u16Of (length_slice (by omega)),
      u16Bytes_u16Of (length_slice (by omega)), u16Bytes_u16Of (length_slice (by omega)),
      u16Bytes_u16Of (length_slice (by omega)), u64Bytes_u64Of (length_slice (by omega)),
      u64Bytes_u64Of (length_slice (by omega)), u64Bytes_u64Of (length_slice (by omega))]
    simp only [slice_append_slice, Nat.reduceLeDiff, Nat.reduceAdd]
  have tag : r.tag.val = slice bytes (34 + (u16Of (slice bytes 32 34)).toNat) bytes.length := by
    have start : bytes.length - tagLen = 34 + (u16Of (slice bytes 32 34)).toNat := by
      simp only [tagLen]
      omega
    have fits : (slice bytes (34 + (u16Of (slice bytes 32 34)).toNat)
        (34 + (u16Of (slice bytes 32 34)).toNat + 16)).length = 16 := by
      rw [length_slice (by omega)]
      omega
    rw [reads.tag, start, sliceExactly, dif_pos fits, length]
  rw [OtpDataRecord.encode, header, reads.ciphertext, tag, headerLen, slice_append_slice (by omega) (by omega),
    slice_append_slice (by omega) (by omega), slice, Nat.sub_zero, List.drop_zero, List.take_length]

/-- Of two accepted byte strings neither goes on from the other. -/
theorem eq_of_prefix {bytes other : Bytes} {r r' : OtpDataRecord} (decoded : decode bytes = .ok r)
    (decoded' : decode other = .ok r') (front : bytes <+: other) : bytes = other := by
  have length := (fields_of_decode decoded).length
  have length' := (fields_of_decode decoded').length
  have same := @slice_of_front _ _ front 32 34 (by simp only [headerLen] at length; omega)
  rw [← same] at length'
  exact front.eq_of_length (length.trans length'.symm)

end Jbuu.FullOtp
