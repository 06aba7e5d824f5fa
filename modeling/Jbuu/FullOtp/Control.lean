/-
# FullOtp.Control — the PAD control messages on the wire

`otp-fullotp`'s `control`: a code and, for an offer and an acknowledgement, one or two
numbers of eight bytes. The code settles the length, so no encoding goes on from another.

With the round trips of `FullOtp.Wire` this is what makes both formats canonical
(`codecs_are_canonical`): one byte string for a value, and no value for any other.
-/
import Jbuu.FullOtp.Pump

namespace Jbuu.FullOtp

set_option autoImplicit false

open Jbuu.Library.BigEndian (Bytes)

inductive ControlError where
  | tooShort
  | tooLong
  | unknownCode
  | lengthMismatch
  deriving DecidableEq, Repr

def controlPadOffer : UInt8 := 0x01
def controlPadAck : UInt8 := 0x02
def controlPadNeed : UInt8 := 0x03
def controlClose : UInt8 := 0x04

def padOfferLen : Nat := 17
def padAckLen : Nat := 9

namespace PadControl

def encode : PadControl → Bytes
  | .padOffer bundleId baseSegment => controlPadOffer :: (u64Bytes bundleId ++ u64Bytes baseSegment)
  | .padAck bundleId => controlPadAck :: u64Bytes bundleId
  | .padNeed => [controlPadNeed]
  | .close => [controlClose]

def decode : Bytes → Except ControlError PadControl
  | [] => .error .tooShort
  | code :: rest =>
      if code = controlPadOffer then
        if rest.length ≠ padOfferLen - 1 then .error .lengthMismatch
        else .ok (.padOffer (u64Of (slice rest 0 8)) (u64Of (slice rest 8 rest.length)))
      else if code = controlPadAck then
        if rest.length ≠ padAckLen - 1 then .error .lengthMismatch else .ok (.padAck (u64Of rest))
      else if code = controlPadNeed ∧ rest = [] then .ok .padNeed
      else if code = controlClose ∧ rest = [] then .ok .close
      -- a known code with a payload it must not have
      else if code = 0x03 ∨ code = 0x04 then .error .lengthMismatch
      else .error .unknownCode

theorem decode_encode (m : PadControl) : decode m.encode = .ok m := by
  cases m with
  | padOffer bundleId baseSegment =>
      have first : slice (u64Bytes bundleId ++ u64Bytes baseSegment) 0 8 = u64Bytes bundleId := by
        rw [slice, List.drop_zero, Library.BigEndian.take_append (by simp)]
      have second : slice (u64Bytes bundleId ++ u64Bytes baseSegment) 8 16 = u64Bytes baseSegment := by
        rw [slice, Library.BigEndian.drop_append (by simp), List.take_of_length_le (by simp)]
      have len : (u64Bytes bundleId ++ u64Bytes baseSegment).length = 16 := by simp
      have exact_ : (u64Bytes bundleId ++ u64Bytes baseSegment).length = padOfferLen - 1 := len
      show (if (u64Bytes bundleId ++ u64Bytes baseSegment).length ≠ padOfferLen - 1 then .error .lengthMismatch
        else Except.ok (padOffer _ _)) = _
      rw [if_neg (not_not.mpr exact_), len, first, second, u64Of_u64Bytes, u64Of_u64Bytes]
  | padAck bundleId =>
      have exact_ : (u64Bytes bundleId).length = padAckLen - 1 := length_u64Bytes bundleId
      show (if (u64Bytes bundleId).length ≠ padAckLen - 1 then .error .lengthMismatch
        else Except.ok (padAck _)) = _
      rw [if_neg (not_not.mpr exact_), u64Of_u64Bytes]
  | padNeed => rfl
  | close => rfl

/-- How long a message with this code is. -/
def width (code : UInt8) : Nat :=
  if code = controlPadOffer then padOfferLen else if code = controlPadAck then padAckLen else 1

/-- **Bytes that are read as a message are its encoding**, and as long as their code says. -/
theorem encode_decode {bytes : Bytes} {m : PadControl} (decoded : decode bytes = .ok m) :
    m.encode = bytes ∧ ∃ code rest, bytes = code :: rest ∧ bytes.length = width code := by
  cases bytes with
  | nil => cases decoded
  | cons code rest =>
      unfold decode at decoded
      dsimp only at decoded
      suffices both : m.encode = code :: rest ∧ (code :: rest).length = width code from
        ⟨both.1, code, rest, rfl, both.2⟩
      by_cases offer : code = controlPadOffer
      · rw [if_pos offer] at decoded
        split at decoded
        · cases decoded
        rename_i len
        have len : rest.length = 16 := not_not.mp len
        obtain rfl := Except.ok.inj decoded
        subst offer
        refine ⟨?_, congrArg (· + 1) len⟩
        show _ :: (u64Bytes _ ++ u64Bytes _) = _
        rw [u64Bytes_u64Of (length_slice (by omega)), u64Bytes_u64Of (by rw [length_slice (by omega), len]),
          slice_append_slice (by omega) (by omega), slice, Nat.sub_zero, List.drop_zero, List.take_length]
      rw [if_neg offer] at decoded
      by_cases ack : code = controlPadAck
      · rw [if_pos ack] at decoded
        split at decoded
        · cases decoded
        rename_i len
        have len : rest.length = 8 := not_not.mp len
        obtain rfl := Except.ok.inj decoded
        subst ack
        refine ⟨?_, congrArg (· + 1) len⟩
        show _ :: u64Bytes _ = _
        rw [u64Bytes_u64Of len]
      rw [if_neg ack] at decoded
      have single : width code = 1 := by rw [width, if_neg offer, if_neg ack]
      split at decoded
      · rename_i need
        obtain ⟨rfl, rfl⟩ := need
        obtain rfl := Except.ok.inj decoded
        exact ⟨rfl, single.symm⟩
      · split at decoded
        · rename_i close
          obtain ⟨rfl, rfl⟩ := close
          obtain rfl := Except.ok.inj decoded
          exact ⟨rfl, single.symm⟩
        · split at decoded <;> cases decoded

theorem eq_of_prefix {bytes other : Bytes} {m m' : PadControl} (decoded : decode bytes = .ok m)
    (decoded' : decode other = .ok m') (front : bytes <+: other) : bytes = other := by
  obtain ⟨-, code, rest, rfl, length⟩ := encode_decode decoded
  obtain ⟨-, code', rest', rfl, length'⟩ := encode_decode decoded'
  obtain rfl : code = code' := (List.cons_prefix_cons.mp front).1
  exact front.eq_of_length (length.trans length'.symm)

end PadControl

/-- A codec whose encodings do not go on from one another rejects what is not one of them. -/
theorem rejects_of_eq_of_prefix {α ε : Type} {read : Bytes → Except ε α}
    (free : ∀ {bytes other : Bytes} {a b : α}, read bytes = .ok a → read other = .ok b → bytes <+: other → bytes = other)
    {bytes other : Bytes} {a : α} (accepted : read bytes = .ok a) (near : other <+: bytes ∨ bytes <+: other)
    (apart : other ≠ bytes) : ∃ e, read other = .error e := by
  cases came : read other with
  | error e => exact ⟨e, rfl⟩
  | ok b =>
      rcases near with front | back
      · exact absurd (free came accepted front) apart
      · exact absurd (free accepted came back).symm apart

/-- **Both formats are canonical.** A record within the bounds and every control message are
read back as they were; what is read was the encoding of what it was read as; a record that is
read is within the bounds, and no sum that `decode` computes leaves 32 bits; and an accepted
byte string, cut short or continued, is rejected. -/
theorem codecs_are_canonical :
    (∀ r : OtpDataRecord, r.Bounded → decode r.encode = .ok r) ∧
    (∀ bytes r, decode bytes = .ok r →
      r.encode = bytes ∧ r.padOffset.toNat + 32 + r.ciphertext.length ≤ 4096 ∧
        ∀ other : Bytes, other <+: bytes ∨ bytes <+: other → other ≠ bytes → ∃ e, decode other = .error e) ∧
    (∀ bytes : Bytes, (u16Of (slice bytes 30 32)).toNat + macKeyBound + (u16Of (slice bytes 32 34)).toNat < 2 ^ 32 ∧
      headerLen + (u16Of (slice bytes 32 34)).toNat + tagLen < 2 ^ 32) ∧
    (∀ m : PadControl, PadControl.decode m.encode = .ok m) ∧
    ∀ bytes m, PadControl.decode bytes = .ok m →
      m.encode = bytes ∧
        ∀ other : Bytes, other <+: bytes ∨ bytes <+: other → other ≠ bytes → ∃ e, PadControl.decode other = .error e := by
  refine ⟨fun r => decode_encode, ?_, ?_, PadControl.decode_encode, ?_⟩
  · intro bytes r decoded
    exact ⟨encode_decode decoded, (bounded_of_decode decoded).offset, fun other =>
      rejects_of_eq_of_prefix (fun one two => eq_of_prefix one two) decoded⟩
  · intro bytes
    have offset := (u16Of (slice bytes 30 32)).toNat_lt
    have length := (u16Of (slice bytes 32 34)).toNat_lt
    simp only [macKeyBound, headerLen, tagLen]
    omega
  · intro bytes m decoded
    exact ⟨(PadControl.encode_decode decoded).1, fun other =>
      rejects_of_eq_of_prefix (fun one two => PadControl.eq_of_prefix one two) decoded⟩

end Jbuu.FullOtp
