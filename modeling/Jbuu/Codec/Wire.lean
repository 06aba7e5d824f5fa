/-
# Codec.Wire — messages as frames

`encode`, `encode_into` and `decode` of `otp-codec`. A frame is eight bytes of header
(version, type, payload length) and the payload. `decode` checks in a fixed order: the
header (`checkHeader`, its steps 2 to 4), the exact length, the direction, then the
payload field by field.

A payload reader succeeds on exactly the payloads of its messages (`run_readPayload`), so
`decode_eq_ok_iff` says in one line what is accepted: the encoding of a message this role
may receive. `codec_is_canonical` reads the laws of the format off it.
-/
import Jbuu.Codec.Message

namespace Jbuu

set_option autoImplicit false

open Jbuu.Library.BigEndian (Bytes Exactly take_append drop_append)
open Jbuu.Library

/-! ## The registry -/

namespace Codec

/-- `FRAME_HEADER_LEN`. -/
def frameHeaderLen : Nat := 8

def maxAppPlaintext : Nat := 65536

def maxDataField : Nat := 65552

def minDataField : Nat := 16

def maxFramePayload : Nat := 65568

def minFramePayload : Nat := 32

def helloPayloadLen : Nat := 44

def arbitratePayloadLen : Nat := 25

def issuePayloadLen : Nat := 40

def confirmPayloadLen : Nat := 139

end Codec

inductive MsgType where
  | hello
  | arbitrate
  | issueRequest
  | confirmC2s
  | confirmS2c
  | data
  deriving DecidableEq, Repr

namespace MsgType

def wire : MsgType → UInt16
  | .hello => 0x0001
  | .arbitrate => 0x0002
  | .issueRequest => 0x0003
  | .confirmC2s => 0x0004
  | .confirmS2c => 0x0005
  | .data => 0x0006

def fromWire : UInt16 → Option MsgType
  | 0x0001 => some .hello
  | 0x0002 => some .arbitrate
  | 0x0003 => some .issueRequest
  | 0x0004 => some .confirmC2s
  | 0x0005 => some .confirmS2c
  | 0x0006 => some .data
  | _ => none

/-- DATA goes both ways. -/
def sendDirection : MsgType → Option Direction
  | .hello | .issueRequest | .confirmC2s => some .clientToServer
  | .arbitrate | .confirmS2c => some .serverToClient
  | .data => none

/-- Both ends of the range are allowed. -/
def payloadLenRange : MsgType → Nat × Nat
  | .hello => (Codec.helloPayloadLen, Codec.helloPayloadLen)
  | .arbitrate => (Codec.arbitratePayloadLen, Codec.arbitratePayloadLen)
  | .issueRequest => (Codec.issuePayloadLen, Codec.issuePayloadLen)
  | .confirmC2s | .confirmS2c => (Codec.confirmPayloadLen, Codec.confirmPayloadLen)
  | .data => (Codec.minFramePayload, Codec.maxFramePayload)

theorem fromWire_eq_some {v : UInt16} {t : MsgType} : fromWire v = some t ↔ v = t.wire := by
  constructor
  · unfold fromWire
    split <;> rintro ⟨⟩ <;> rfl
  · rintro rfl
    cases t <;> rfl

@[simp] theorem fromWire_wire (t : MsgType) : fromWire t.wire = some t :=
  fromWire_eq_some.mpr rfl

end MsgType

/-- `plen_ok`. -/
def plenOk (t : MsgType) (plen : UInt32) : Bool :=
  t.payloadLenRange.1 ≤ plen.toNat ∧ plen.toNat ≤ t.payloadLenRange.2

namespace ArbitrateResult

def wire : ArbitrateResult → UInt8
  | .ok => 0x00
  | .serverAhead => 0x01
  | .exhausted => 0x02
  | .bookMismatch => 0x03
  | .clientAhead => 0x04

def fromWire : UInt8 → Option ArbitrateResult
  | 0x00 => some .ok
  | 0x01 => some .serverAhead
  | 0x02 => some .exhausted
  | 0x03 => some .bookMismatch
  | 0x04 => some .clientAhead
  | _ => none

theorem fromWire_eq_some {v : UInt8} {r : ArbitrateResult} :
    fromWire v = some r ↔ v = r.wire := by
  constructor
  · unfold fromWire
    split <;> rintro ⟨⟩ <;> rfl
  · rintro rfl
    cases r <;> rfl

end ArbitrateResult

namespace Message

def msgType : Message → MsgType
  | .hello .. => .hello
  | .arbitrate .. => .arbitrate
  | .issueRequest .. => .issueRequest
  | .confirmC2s .. => .confirmC2s
  | .confirmS2c .. => .confirmS2c
  | .data .. => .data

def direction (m : Message) : Option Direction := m.msgType.sendDirection

end Message

/-! ## Encoding -/

/-- `payload_len_of`. -/
def payloadLenOf : Message → Nat
  | .data _ _ data => 16 + data.length
  | msg => msg.msgType.payloadLenRange.1

/-- The constructions `encode_into` refuses before it writes. -/
def checkCanonical : Message → Except ErrorCode Unit
  | .arbitrate _ serverPointer result =>
      if result = .bookMismatch ∧ serverPointer.get ≠ 0 then .error .badEnum else .ok ()
  | .data _ _ data =>
      if ¬(Codec.minDataField ≤ data.length ∧ data.length ≤ Codec.maxDataField) then
        .error .badLength
      else .ok ()
  | _ => .ok ()

/-- The bytes `encode_into` writes after the header. -/
def payloadOf : Message → Bytes
  | .hello bookId clientNonce clientPointer features =>
      bookId.asBytes.val ++ (clientNonce.val ++ (u64Bytes clientPointer.get ++
        u32Bytes features.bits))
  | .arbitrate serverNonce serverPointer result =>
      serverNonce.val ++ (u64Bytes serverPointer.get ++ [result.wire])
  | .issueRequest chosenPointer clientNonce serverNonce =>
      u64Bytes chosenPointer.get ++ (clientNonce.val ++ serverNonce.val)
  | .confirmC2s segmentIndex sessionNonce epoch seq sealed
  | .confirmS2c segmentIndex sessionNonce epoch seq sealed =>
      u64Bytes segmentIndex.get ++ (sessionNonce.val ++ (u32Bytes epoch.get ++
        (u64Bytes seq.get ++ sealed.val)))
  | .data epoch seq data =>
      u32Bytes epoch.get ++ (u64Bytes seq.get ++
        (u32Bytes (UInt32.ofNat data.length) ++ data))

/-- The eight bytes in front of a payload. -/
def frameHeader (msg : Message) : Bytes :=
  u16Bytes wireVersion ++ (u16Bytes msg.msgType.wire ++
    u32Bytes (UInt32.ofNat (payloadLenOf msg)))

/-- `encode_into`: the result, and what is then in `out`. -/
def encodeInto (msg : Message) (out : Bytes) : Except ErrorCode Unit × Bytes :=
  match checkCanonical msg with
  | .error e => (.error e, out)
  | .ok () => (.ok (), out ++ (frameHeader msg ++ payloadOf msg))

def encode (msg : Message) : Except ErrorCode Bytes :=
  match encodeInto msg [] with
  | (.ok (), out) => .ok out
  | (.error e, _) => .error e

/-! ## Decoding -/

section

open Cursor

def decodeHello : Reader ErrorCode Message := do
  let bookId ← fixed 16
  let clientNonce ← fixed 16
  let clientPointer ← u64
  let features ← u32
  done
  pure (.hello ⟨bookId⟩ clientNonce ⟨clientPointer⟩ ⟨features⟩)

def decodeArbitrate : Reader ErrorCode Message := do
  let serverNonce ← fixed 16
  let serverPointer ← u64
  let wire ← u8
  let result ← Reader.okOr .badEnum (ArbitrateResult.fromWire wire)
  done
  Reader.failIf (result = .bookMismatch ∧ serverPointer ≠ 0) .badEnum
  pure (.arbitrate serverNonce ⟨serverPointer⟩ result)

def decodeIssue : Reader ErrorCode Message := do
  let chosenPointer ← u64
  let clientNonce ← fixed 16
  let serverNonce ← fixed 16
  done
  pure (.issueRequest ⟨chosenPointer⟩ clientNonce serverNonce)

/-- The payload of either CONFIRM; `make` is the message it is the payload of. -/
def decodeConfirm (make : SegmentIndex → Nonce16 → Epoch → Sequence → Exactly 103 → Message) :
    Reader ErrorCode Message := do
  let segmentIndex ← u64
  let sessionNonce ← fixed 16
  let epoch ← u32
  let seq ← u64
  let sealed ← fixed 103
  done
  pure (make ⟨segmentIndex⟩ sessionNonce ⟨epoch⟩ ⟨seq⟩ sealed)

def decodeData : Reader ErrorCode Message := do
  let epoch ← u32
  let seq ← u64
  let dataLen ← u32
  Reader.failIf (¬(Codec.minDataField ≤ dataLen.toNat ∧ dataLen.toNat ≤ Codec.maxDataField))
    .badLength
  let data ← fixed dataLen.toNat
  done
  pure (.data ⟨epoch⟩ ⟨seq⟩ data.val)

end

def readPayload : MsgType → Reader ErrorCode Message
  | .hello => decodeHello
  | .arbitrate => decodeArbitrate
  | .issueRequest => decodeIssue
  | .confirmC2s => decodeConfirm .confirmC2s
  | .confirmS2c => decodeConfirm .confirmS2c
  | .data => decodeData

/-- Steps 2 to 4: version, type, and the payload length the type allows. -/
def checkHeader (header : Bytes) : Except ErrorCode (MsgType × Nat) :=
  if u16Of (slice header 0 2) ≠ wireVersion then .error .badVersion
  else
    match MsgType.fromWire (u16Of (slice header 2 4)) with
    | none => .error .unknownMsgType
    | some msgType =>
        let payloadLen := u32Of (slice header 4 8)
        if plenOk msgType payloadLen = false then .error .badLength
        else .ok (msgType, payloadLen.toNat)

/-- Step 6. -/
def checkDirection (role : Role) (t : MsgType) : Except ErrorCode Unit :=
  match t.sendDirection with
  | some .clientToServer => if role ≠ .server then .error .wrongDirection else .ok ()
  | some .serverToClient => if role ≠ .client then .error .wrongDirection else .ok ()
  | none => .ok ()

/-- `role` is the receiver's. -/
def decode (role : Role) (buf : Bytes) : Except ErrorCode Message :=
  if buf.length < Codec.frameHeaderLen then .error .frameTruncated
  else
    match checkHeader buf with
    | .error e => .error e
    | .ok (msgType, payloadLen) =>
        let stop := Codec.frameHeaderLen + payloadLen
        if buf.length < stop then .error .frameTruncated
        else if stop < buf.length then .error .trailingBytes
        else
          match checkDirection role msgType with
          | .error e => .error e
          | .ok () => (readPayload msgType).parse (slice buf Codec.frameHeaderLen stop)

/-! ## What the payload readers accept -/

section

open Cursor
open Reader (run_bind_eq_ok run_pure_eq_ok run_okOr_eq_ok run_failIf_eq_ok)

theorem run_decodeConfirm {buf rest : Bytes} {m : Message}
    {make : SegmentIndex → Nonce16 → Epoch → Sequence → Exactly 103 → Message} :
    (decodeConfirm make).run buf = .ok (m, rest) ↔ rest = [] ∧
      ∃ segmentIndex sessionNonce epoch seq sealed,
        m = make segmentIndex sessionNonce epoch seq sealed ∧
        buf = u64Bytes segmentIndex.get ++ (sessionNonce.val ++ (u32Bytes epoch.get ++
          (u64Bytes seq.get ++ sealed.val))) := by
  simp only [decodeConfirm, run_bind_eq_ok, run_fixed_eq_ok, run_u64_eq_ok, run_u32_eq_ok,
    run_done_eq_ok, run_pure_eq_ok]
  constructor
  · rintro ⟨segment, _, rfl, nonce, _, rfl, epoch, _, rfl, seq, _, rfl, sealed, _, rfl, _, _,
      ⟨rfl, rfl⟩, rfl, rfl⟩
    exact ⟨rfl, ⟨segment⟩, nonce, ⟨epoch⟩, ⟨seq⟩, sealed, rfl, by rw [List.append_nil]⟩
  · rintro ⟨rfl, segment, nonce, epoch, seq, sealed, rfl, rfl⟩
    exact ⟨_, _, rfl, _, _, rfl, _, _, rfl, _, _, rfl, _, _, (List.append_nil _).symm, (), _,
      ⟨rfl, rfl⟩, rfl, rfl⟩

/-- A DATA payload declares the length of what follows, so its length field is no loss. -/
theorem run_decodeData {buf rest : Bytes} {m : Message} :
    decodeData.run buf = .ok (m, rest) ↔ rest = [] ∧
      ∃ epoch seq data, m = .data epoch seq data ∧ checkCanonical m = .ok () ∧
        buf = payloadOf m := by
  simp only [decodeData, run_bind_eq_ok, run_fixed_eq_ok, run_u64_eq_ok, run_u32_eq_ok,
    run_failIf_eq_ok, run_done_eq_ok, run_pure_eq_ok]
  constructor
  · rintro ⟨epoch, _, rfl, seq, _, rfl, dataLen, _, rfl, _, _, ⟨range, rfl⟩, data, _, rfl, _, _,
      ⟨rfl, rfl⟩, rfl, rfl⟩
    refine ⟨rfl, ⟨epoch⟩, ⟨seq⟩, data.val, rfl, ?_, ?_⟩
    · rw [checkCanonical, if_neg (by simpa using range)]
    · simp [payloadOf]
  · rintro ⟨rfl, epoch, seq, data, rfl, canonical, rfl⟩
    have range : Codec.minDataField ≤ data.length ∧ data.length ≤ Codec.maxDataField := by
      by_contra out
      rw [checkCanonical, if_pos out] at canonical
      cases canonical
    have small : (UInt32.ofNat data.length).toNat = data.length := by
      rw [UInt32.toNat_ofNat', Nat.mod_eq_of_lt]
      simp only [Codec.maxDataField] at range
      omega
    refine ⟨_, _, rfl, _, _, rfl, _, _, rfl, (), _, ⟨?_, rfl⟩, ⟨data, small.symm⟩, _,
      (List.append_nil _).symm, (), _, ⟨rfl, rfl⟩, rfl, rfl⟩
    rw [small]
    simpa using range

/-- **What a payload reader accepts**: the payload of a message of its type that may be
encoded, and nothing after it. -/
theorem run_readPayload {t : MsgType} {buf rest : Bytes} {m : Message} :
    (readPayload t).run buf = .ok (m, rest) ↔
      rest = [] ∧ m.msgType = t ∧ checkCanonical m = .ok () ∧ buf = payloadOf m := by
  cases t with
  | hello =>
      simp only [readPayload, decodeHello, run_bind_eq_ok, run_fixed_eq_ok, run_u64_eq_ok,
        run_u32_eq_ok, run_done_eq_ok, run_pure_eq_ok]
      constructor
      · rintro ⟨bookId, _, rfl, nonce, _, rfl, pointer, _, rfl, features, _, rfl, _, _, ⟨rfl, rfl⟩,
          rfl, rfl⟩
        exact ⟨rfl, rfl, rfl, by simp [payloadOf]⟩
      · rintro ⟨rfl, type, -, rfl⟩
        cases m with
        | hello bookId nonce pointer features =>
            exact ⟨_, _, rfl, _, _, rfl, _, _, rfl, _, _, (List.append_nil _).symm, (), _,
              ⟨rfl, rfl⟩, rfl, rfl⟩
        | _ => cases type
  | arbitrate =>
      simp only [readPayload, decodeArbitrate, run_bind_eq_ok, run_fixed_eq_ok, run_u64_eq_ok,
        run_u8_eq_ok, run_okOr_eq_ok, ArbitrateResult.fromWire_eq_some, run_done_eq_ok,
        run_failIf_eq_ok, run_pure_eq_ok]
      constructor
      · rintro ⟨nonce, _, rfl, pointer, _, rfl, _, _, rfl, result, _, ⟨rfl, rfl⟩, _, _, ⟨rfl, rfl⟩,
          _, _, ⟨allowed, rfl⟩, rfl, rfl⟩
        refine ⟨rfl, rfl, ?_, by simp [payloadOf]⟩
        rw [checkCanonical, if_neg allowed]
      · rintro ⟨rfl, type, canonical, rfl⟩
        cases m with
        | arbitrate nonce pointer result =>
            have allowed : ¬(result = .bookMismatch ∧ pointer.get ≠ 0) := by
              intro refused
              rw [checkCanonical, if_pos refused] at canonical
              cases canonical
            exact ⟨_, _, rfl, _, _, rfl, _, _, rfl, _, _, ⟨rfl, rfl⟩, (), _, ⟨rfl, rfl⟩, (), _,
              ⟨allowed, rfl⟩, rfl, rfl⟩
        | _ => cases type
  | issueRequest =>
      simp only [readPayload, decodeIssue, run_bind_eq_ok, run_fixed_eq_ok, run_u64_eq_ok,
        run_done_eq_ok, run_pure_eq_ok]
      constructor
      · rintro ⟨pointer, _, rfl, client, _, rfl, server, _, rfl, _, _, ⟨rfl, rfl⟩, rfl, rfl⟩
        exact ⟨rfl, rfl, rfl, by simp [payloadOf]⟩
      · rintro ⟨rfl, type, -, rfl⟩
        cases m with
        | issueRequest pointer client server =>
            exact ⟨_, _, rfl, _, _, rfl, _, _, (List.append_nil _).symm, (), _, ⟨rfl, rfl⟩, rfl, rfl⟩
        | _ => cases type
  | confirmC2s =>
      rw [readPayload, run_decodeConfirm]
      refine and_congr_right fun _ => ⟨?_, ?_⟩
      · rintro ⟨segment, nonce, epoch, seq, sealed, rfl, rfl⟩
        exact ⟨rfl, rfl, rfl⟩
      · rintro ⟨type, -, rfl⟩
        cases m with
        | confirmC2s segment nonce epoch seq sealed => exact ⟨_, _, _, _, _, rfl, rfl⟩
        | _ => cases type
  | confirmS2c =>
      rw [readPayload, run_decodeConfirm]
      refine and_congr_right fun _ => ⟨?_, ?_⟩
      · rintro ⟨segment, nonce, epoch, seq, sealed, rfl, rfl⟩
        exact ⟨rfl, rfl, rfl⟩
      · rintro ⟨type, -, rfl⟩
        cases m with
        | confirmS2c segment nonce epoch seq sealed => exact ⟨_, _, _, _, _, rfl, rfl⟩
        | _ => cases type
  | data =>
      rw [readPayload, run_decodeData]
      refine and_congr_right fun _ => ⟨?_, ?_⟩
      · rintro ⟨epoch, seq, data, rfl, canonical, rfl⟩
        exact ⟨rfl, canonical, rfl⟩
      · rintro ⟨type, canonical, rfl⟩
        cases m with
        | data epoch seq data => exact ⟨_, _, _, rfl, canonical, rfl⟩
        | _ => cases type

end

/-! ## Frames -/

/-- The payload length a message is encoded with is one its type allows. -/
theorem payloadLenOf_range {m : Message} (canonical : checkCanonical m = .ok ()) :
    m.msgType.payloadLenRange.1 ≤ payloadLenOf m ∧
      payloadLenOf m ≤ m.msgType.payloadLenRange.2 := by
  cases m with
  | data epoch seq data =>
      have range : Codec.minDataField ≤ data.length ∧ data.length ≤ Codec.maxDataField := by
        by_contra out
        rw [checkCanonical, if_pos out] at canonical
        cases canonical
      simp only [Message.msgType, MsgType.payloadLenRange, payloadLenOf, Codec.minFramePayload,
        Codec.maxFramePayload, Codec.minDataField, Codec.maxDataField] at range ⊢
      omega
  | _ => exact ⟨Nat.le_refl _, Nat.le_refl _⟩

theorem payloadLenRange_le (t : MsgType) : t.payloadLenRange.2 ≤ Codec.maxFramePayload := by
  cases t <;> decide

theorem payloadLenOf_toNat {m : Message} (canonical : checkCanonical m = .ok ()) :
    (UInt32.ofNat (payloadLenOf m)).toNat = payloadLenOf m := by
  have range := (payloadLenOf_range canonical).2
  have small := payloadLenRange_le m.msgType
  rw [UInt32.toNat_ofNat', Nat.mod_eq_of_lt]
  simp only [Codec.maxFramePayload] at small
  omega

@[simp] theorem length_payloadOf (m : Message) : (payloadOf m).length = payloadLenOf m := by
  cases m <;> simp [payloadOf, payloadLenOf, Message.msgType, MsgType.payloadLenRange,
    Codec.helloPayloadLen, Codec.arbitratePayloadLen, Codec.issuePayloadLen,
    Codec.confirmPayloadLen]
  omega

@[simp] theorem length_frameHeader (m : Message) :
    (frameHeader m).length = Codec.frameHeaderLen := by
  simp [frameHeader, Codec.frameHeaderLen]

/-- The frame of a message. -/
def frameOf (m : Message) : Bytes := frameHeader m ++ payloadOf m

theorem length_frameOf (m : Message) :
    (frameOf m).length = Codec.frameHeaderLen + payloadLenOf m := by
  simp [frameOf]

theorem encode_eq_ok {m : Message} {wire : Bytes} :
    encode m = .ok wire ↔ checkCanonical m = .ok () ∧ wire = frameOf m := by
  unfold encode encodeInto
  cases checkCanonical m with
  | error e => simp
  | ok u => simp [frameOf, eq_comm]

/-- `Vec::extend` in front of the frame changes nothing of it. -/
theorem encodeInto_eq (m : Message) (out : Bytes) :
    encodeInto m out = match encode m with
      | .ok wire => (.ok (), out ++ wire)
      | .error e => (.error e, out) := by
  unfold encode encodeInto
  cases checkCanonical m with
  | error e => rfl
  | ok u => simp

/-! ### The header -/

/-- The fields of the first eight bytes. -/
theorem frame_fields {version type : UInt16} {len : UInt32} (rest : Bytes) :
    let buf := u16Bytes version ++ (u16Bytes type ++ (u32Bytes len ++ rest))
    u16Of (slice buf 0 2) = version ∧ u16Of (slice buf 2 4) = type ∧
      u32Of (slice buf 4 8) = len := by
  refine ⟨?_, ?_, ?_⟩
  · rw [slice_append (by simp), slice, List.drop_zero, List.take_of_length_le (by simp),
      u16Of_u16Bytes]
  · rw [slice, drop_append (by simp), take_append (by simp), u16Of_u16Bytes]
  · rw [slice, ← List.append_assoc, drop_append (by simp), take_append (by simp), u32Of_u32Bytes]

theorem checkHeader_eq_ok {header : Bytes} {t : MsgType} {payloadLen : Nat} :
    checkHeader header = .ok (t, payloadLen) ↔
      u16Of (slice header 0 2) = wireVersion ∧ u16Of (slice header 2 4) = t.wire ∧
        (u32Of (slice header 4 8)).toNat = payloadLen ∧
        t.payloadLenRange.1 ≤ payloadLen ∧ payloadLen ≤ t.payloadLenRange.2 := by
  unfold checkHeader
  by_cases version : u16Of (slice header 0 2) = wireVersion
  · rw [if_neg (not_not_intro version)]
    cases type : MsgType.fromWire (u16Of (slice header 2 4)) with
    | none =>
        refine ⟨nofun, ?_⟩
        rintro ⟨-, same, -⟩
        rw [MsgType.fromWire_eq_some.mpr same] at type
        cases type
    | some t' =>
        dsimp only
        have wire := MsgType.fromWire_eq_some.mp type
        by_cases fits : plenOk t' (u32Of (slice header 4 8)) = false
        · rw [if_pos fits]
          refine ⟨nofun, ?_⟩
          rintro ⟨-, same, rfl, range⟩
          rw [MsgType.fromWire_eq_some.mpr same] at type
          cases type
          simp [plenOk, range] at fits
        · rw [if_neg fits]
          simp only [plenOk, decide_eq_false_iff_not, not_not] at fits
          constructor
          · intro same
            cases same
            exact ⟨version, wire, rfl, fits⟩
          · rintro ⟨-, same, rfl, -⟩
            rw [MsgType.fromWire_eq_some.mpr same] at type
            cases type
            rfl
  · rw [if_pos version]
    simp [version]

/-- A frame, whatever follows it or is cut off its payload, has the header of its message. -/
theorem checkHeader_frameHeader {m : Message} (canonical : checkCanonical m = .ok ())
    (rest : Bytes) :
    checkHeader (frameHeader m ++ rest) = .ok (m.msgType, payloadLenOf m) := by
  have fields := @frame_fields wireVersion m.msgType.wire (UInt32.ofNat (payloadLenOf m)) rest
  rw [frameHeader, List.append_assoc, List.append_assoc]
  exact checkHeader_eq_ok.mpr ⟨fields.1, fields.2.1,
    by rw [fields.2.2, payloadLenOf_toNat canonical], payloadLenOf_range canonical⟩

/-- Eight bytes and more are their header fields and the rest. -/
theorem eq_header_append {buf : Bytes} (long : Codec.frameHeaderLen ≤ buf.length) :
    buf = u16Bytes (u16Of (slice buf 0 2)) ++ (u16Bytes (u16Of (slice buf 2 4)) ++
      (u32Bytes (u32Of (slice buf 4 8)) ++ buf.drop Codec.frameHeaderLen)) := by
  simp only [Codec.frameHeaderLen] at long ⊢
  rw [u16Bytes_u16Of (length_slice (by omega)), u16Bytes_u16Of (length_slice (by omega)),
    u32Bytes_u32Of (length_slice (by omega))]
  simp only [slice, List.drop_zero]
  rw [show buf.drop 8 = (buf.drop 4).drop (8 - 4) by rw [List.drop_drop],
    List.take_append_drop, show buf.drop 4 = (buf.drop 2).drop (4 - 2) by rw [List.drop_drop],
    List.take_append_drop, List.take_append_drop]

/-- A buffer that passes the header check is the header of its type and length, and a payload. -/
theorem eq_of_checkHeader {buf : Bytes} {t : MsgType} {payloadLen : Nat}
    (long : Codec.frameHeaderLen ≤ buf.length) (passed : checkHeader buf = .ok (t, payloadLen)) :
    buf = u16Bytes wireVersion ++ (u16Bytes t.wire ++
      (u32Bytes (UInt32.ofNat payloadLen) ++ buf.drop Codec.frameHeaderLen)) := by
  obtain ⟨version, type, len, -, -⟩ := checkHeader_eq_ok.mp passed
  conv_lhs => rw [eq_header_append long]
  rw [version, type, ← len, UInt32.ofNat_toNat]

/-- This role may receive messages that go in this direction. -/
def Receives (role : Role) (m : Message) : Prop :=
  ∀ d, m.direction = some d → d = role.sendDirection.opposite

instance (role : Role) (m : Message) : Decidable (Receives role m) :=
  match h : m.direction with
  | none => .isTrue (by intro d same; rw [h] at same; cases same)
  | some d =>
      if same : d = role.sendDirection.opposite then
        .isTrue (by intro d' there; rw [h] at there; cases there; exact same)
      else .isFalse fun all => same (all d h)

theorem checkDirection_of_receives {role : Role} {m : Message} (may : Receives role m) :
    checkDirection role m.msgType = .ok () := by
  unfold Receives Message.direction at may
  unfold checkDirection
  cases h : m.msgType.sendDirection with
  | none => rfl
  | some d =>
      have same := may d h
      cases role <;> subst same <;> rfl

theorem checkDirection_of_not_receives {role : Role} {m : Message} (not : ¬Receives role m) :
    checkDirection role m.msgType = .error .wrongDirection := by
  unfold Receives Message.direction at not
  unfold checkDirection
  cases h : m.msgType.sendDirection with
  | none => exact absurd (by simp [h]) not
  | some d =>
      have other : d ≠ role.sendDirection.opposite := by
        intro same
        apply not
        intro d' there
        rw [h] at there
        cases there
        exact same
      cases role <;> cases d <;> first | rfl | exact absurd rfl other

theorem checkDirection_eq_ok {role : Role} {m : Message} :
    checkDirection role m.msgType = .ok () ↔ Receives role m := by
  by_cases may : Receives role m
  · simp [checkDirection_of_receives may, may]
  · simp [checkDirection_of_not_receives may, may]

/-- A whole frame comes down to its direction. -/
theorem decode_frameOf {role : Role} {m : Message} (canonical : checkCanonical m = .ok ()) :
    decode role (frameOf m) = if Receives role m then .ok m else .error .wrongDirection := by
  have len := length_frameOf m
  have header := checkHeader_frameHeader canonical (payloadOf m)
  have payload : slice (frameOf m) Codec.frameHeaderLen (Codec.frameHeaderLen + payloadLenOf m) =
      payloadOf m := by
    rw [slice, frameOf, drop_append (by simp), List.take_of_length_le (by simp)]
  unfold decode
  rw [if_neg (by omega), show checkHeader (frameOf m) = _ from header]
  dsimp only
  rw [if_neg (by omega), if_neg (by omega), payload]
  by_cases may : Receives role m
  · rw [checkDirection_of_receives may, if_pos may]
    exact Reader.parse_eq_ok.mpr ⟨[], run_readPayload.mpr ⟨rfl, rfl, canonical, rfl⟩⟩
  · rw [checkDirection_of_not_receives may, if_neg may]

/-- **What is accepted**: the frame of a message that may be encoded and that this role may
receive. -/
theorem decode_eq_ok_iff {role : Role} {buf : Bytes} {m : Message} :
    decode role buf = .ok m ↔
      checkCanonical m = .ok () ∧ Receives role m ∧ buf = frameOf m := by
  constructor
  · intro accepted
    unfold decode at accepted
    split at accepted
    · cases accepted
    rename_i long
    cases header : checkHeader buf with
    | error e => simp [header] at accepted
    | ok found =>
        obtain ⟨t, payloadLen⟩ := found
        simp only [header] at accepted
        split at accepted
        · cases accepted
        split at accepted
        · cases accepted
        rename_i enough exact_
        cases direction : checkDirection role t with
        | error e => simp [direction] at accepted
        | ok u =>
            simp only [direction] at accepted
            obtain ⟨rest, read⟩ := Reader.parse_eq_ok.mp accepted
            obtain ⟨-, rfl, canonical, payload⟩ := run_readPayload.mp read
            have rebuilt := eq_of_checkHeader (by omega) header
            have whole : slice buf Codec.frameHeaderLen (Codec.frameHeaderLen + payloadLen) =
                buf.drop Codec.frameHeaderLen := by
              rw [slice, List.take_of_length_le]
              rw [List.length_drop]
              omega
            rw [whole] at payload
            have length : payloadLen = payloadLenOf m := by
              rw [← length_payloadOf, ← payload, List.length_drop]
              omega
            refine ⟨canonical, checkDirection_eq_ok.mp direction, ?_⟩
            rw [rebuilt, payload, length, frameOf, frameHeader, List.append_assoc,
              List.append_assoc]
  · rintro ⟨canonical, may, rfl⟩
    rw [decode_frameOf canonical, if_pos may]

/-! ### The order of the checks -/

theorem decode_short {role : Role} {buf : Bytes} (short : buf.length < Codec.frameHeaderLen) :
    decode role buf = .error .frameTruncated := by
  rw [decode, if_pos short]

theorem decode_refused {role : Role} {buf : Bytes} {e : ErrorCode}
    (long : ¬buf.length < Codec.frameHeaderLen) (refused : checkHeader buf = .error e) :
    decode role buf = .error e := by
  rw [decode, if_neg long, refused]

theorem decode_cut {role : Role} {buf : Bytes} {t : MsgType} {payloadLen : Nat}
    (passed : checkHeader buf = .ok (t, payloadLen))
    (cut : buf.length < Codec.frameHeaderLen + payloadLen) :
    decode role buf = .error .frameTruncated := by
  unfold decode
  split
  · rfl
  · rw [passed]
    dsimp only
    rw [if_pos cut]

/-- Steps 2 to 4 have three errors. -/
theorem checkHeader_error {header : Bytes} {e : ErrorCode} (refused : checkHeader header = .error e) :
    e = .badVersion ∨ e = .unknownMsgType ∨ e = .badLength := by
  unfold checkHeader at refused
  split at refused
  · cases refused
    exact .inl rfl
  · split at refused
    · cases refused
      exact .inr (.inl rfl)
    · dsimp only at refused
      split at refused
      · cases refused
        exact .inr (.inr rfl)
      · cases refused

/-- A frame whose payload is cut short. -/
theorem decode_take {role : Role} {m : Message} (canonical : checkCanonical m = .ok ()) {n : Nat}
    (proper : n < (frameOf m).length) :
    decode role ((frameOf m).take n) = .error .frameTruncated := by
  by_cases short : ((frameOf m).take n).length < Codec.frameHeaderLen
  · exact decode_short short
  · simp only [List.length_take] at short
    have cut : (frameOf m).take n =
        frameHeader m ++ (payloadOf m).take (n - Codec.frameHeaderLen) := by
      rw [frameOf, List.take_append, length_frameHeader,
        List.take_of_length_le (by rw [length_frameHeader]; omega)]
    have len := length_frameOf m
    rw [cut]
    refine decode_cut (checkHeader_frameHeader canonical _) ?_
    rw [← cut, List.length_take]
    omega

/-- A frame with bytes after it. -/
theorem decode_append {role : Role} {m : Message} (canonical : checkCanonical m = .ok ())
    {extra : Bytes} (some : extra ≠ []) :
    decode role (frameOf m ++ extra) = .error .trailingBytes := by
  have len := length_frameOf m
  have more := List.length_pos_iff.mpr some
  unfold decode
  rw [if_neg (by rw [List.length_append]; omega), frameOf, List.append_assoc,
    checkHeader_frameHeader canonical]
  dsimp only
  rw [← List.append_assoc, ← frameOf, if_neg (by rw [List.length_append]; omega),
    if_pos (by rw [List.length_append]; omega)]

/-! ### The confirmation body -/

theorem directionFromWire_eq_some {v : UInt8} {d : Direction} :
    directionFromWire v = some d ↔ v = directionWire d := by
  constructor
  · unfold directionFromWire
    split
    · rintro ⟨⟩
      assumption
    · split
      · rintro ⟨⟩
        assumption
      · nofun
  · rintro rfl
    exact directionFromWire_directionWire d

open Cursor in
open Reader (run_bind_eq_ok run_pure_eq_ok run_okOr_eq_ok run_failIf_eq_ok) in
/-- A body that was decoded is the encoding of what it decoded to. -/
theorem encodeConfirmBody_of_decode {buf : Bytes} {body : ConfirmBody}
    (accepted : decodeConfirmBody buf = .ok body) : encodeConfirmBody body = buf := by
  unfold decodeConfirmBody at accepted
  split at accepted
  · cases accepted
  · obtain ⟨rest, read⟩ := Reader.parse_eq_ok.mp accepted
    simp only [confirmBody, run_bind_eq_ok, run_fixed_eq_ok, run_u64_eq_ok, run_u32_eq_ok,
      run_u16_eq_ok, run_u8_eq_ok, run_okOr_eq_ok, directionFromWire_eq_some, run_failIf_eq_ok,
      run_done_eq_ok, run_pure_eq_ok, not_not] at read
    obtain ⟨_, _, rfl, _, _, ⟨rfl, rfl⟩, bookId, _, rfl, segment, _, rfl, client, _, rfl, server, _,
      rfl, _, _, rfl, direction, _, ⟨rfl, rfl⟩, epoch, _, rfl, seq, _, rfl, type, _, rfl, label, _,
      rfl, _, _, ⟨rfl, rfl⟩, rfl, rfl⟩ := read
    simp [encodeConfirmBody]

/-! ## The laws of the format -/

/-- **The codec is a canonical bijection.** A message that is encoded is decoded to itself by
the role that may receive it, and refused for its direction by the other; what is decoded
was the encoding of the message it gave; a proper prefix of an encoding is truncated and a
proper extension has trailing bytes, whoever decodes it; `encode_into` appends the encoding
or leaves the buffer alone; and the confirmation bodies and the byte strings of 87 bytes
that are decoded to one correspond. -/
theorem codec_is_canonical :
    (∀ m wire role, encode m = .ok wire → Receives role m → decode role wire = .ok m) ∧
    (∀ b role m, decode role b = .ok m → encode m = .ok b) ∧
    (∀ m wire role, encode m = .ok wire → ¬Receives role m →
      decode role wire = .error .wrongDirection) ∧
    (∀ m wire role part, encode m = .ok wire → part <+: wire → part ≠ wire →
      decode role part = .error .frameTruncated) ∧
    (∀ m wire role more, encode m = .ok wire → wire <+: more → more ≠ wire →
      decode role more = .error .trailingBytes) ∧
    (∀ m out, encodeInto m out = match encode m with
      | .ok wire => (.ok (), out ++ wire)
      | .error e => (.error e, out)) ∧
    (∀ body, (encodeConfirmBody body).length = confirmBodyLen ∧
      decodeConfirmBody (encodeConfirmBody body) = .ok body) ∧
    ∀ buf body, decodeConfirmBody buf = .ok body → encodeConfirmBody body = buf := by
  refine ⟨?_, ?_, ?_, ?_, ?_, encodeInto_eq, ?_, ?_⟩
  · intro m wire role encoded may
    obtain ⟨canonical, rfl⟩ := encode_eq_ok.mp encoded
    exact decode_eq_ok_iff.mpr ⟨canonical, may, rfl⟩
  · intro b role m decoded
    obtain ⟨canonical, -, whole⟩ := decode_eq_ok_iff.mp decoded
    exact encode_eq_ok.mpr ⟨canonical, whole⟩
  · intro m wire role encoded not
    obtain ⟨canonical, rfl⟩ := encode_eq_ok.mp encoded
    rw [decode_frameOf canonical, if_neg not]
  · intro m wire role part encoded front other
    obtain ⟨canonical, rfl⟩ := encode_eq_ok.mp encoded
    have shorter : part.length < (frameOf m).length := by
      refine Nat.lt_of_le_of_ne front.length_le ?_
      intro same
      exact other (front.eq_of_length same)
    rw [List.prefix_iff_eq_take.mp front]
    exact decode_take canonical shorter
  · intro m wire role more encoded front other
    obtain ⟨canonical, rfl⟩ := encode_eq_ok.mp encoded
    obtain ⟨extra, rfl⟩ := front
    apply decode_append canonical
    rintro rfl
    exact other (List.append_nil _)
  · intro body
    exact ⟨length_encodeConfirmBody body, decodeConfirmBody_encode body⟩
  · intro buf body decoded
    exact encodeConfirmBody_of_decode decoded

end Jbuu
