/-
# Codec.Message — the messages of the handshake and the confirmation inside them

`otp-codec`'s message model: the six messages as the state machines see them, the error
codes, and the 87-byte body that each CONFIRM carries under the AEAD, with its encoder
and its decoder. `decodeConfirmBody_encode` is the round trip.
-/
import Jbuu.Library.Reader
import Jbuu.Session.Nonce

namespace Jbuu

set_option autoImplicit false

open Jbuu.Library.BigEndian (Bytes Exactly)
open Jbuu.Library

/-! ## Error codes -/

structure ErrorCode where
  code : UInt16
  deriving DecidableEq, Repr

namespace ErrorCode

def bookMismatch : ErrorCode := ⟨0x0100⟩
def exhausted : ErrorCode := ⟨0x0101⟩
def clientAhead : ErrorCode := ⟨0x0102⟩
def tagInvalid : ErrorCode := ⟨0x0201⟩
def segmentBinding : ErrorCode := ⟨0x0202⟩
def nonceMismatch : ErrorCode := ⟨0x0203⟩
def seqReplay : ErrorCode := ⟨0x0204⟩
def badVersion : ErrorCode := ⟨0x0301⟩
def badLength : ErrorCode := ⟨0x0302⟩
def trailingBytes : ErrorCode := ⟨0x0303⟩
def badEnum : ErrorCode := ⟨0x0304⟩
def unknownMsgType : ErrorCode := ⟨0x0305⟩
def wrongDirection : ErrorCode := ⟨0x0306⟩
def issuePointerMismatch : ErrorCode := ⟨0x0307⟩
def frameTruncated : ErrorCode := ⟨0x0308⟩
def badOrder : ErrorCode := ⟨0x0309⟩
def epochMismatch : ErrorCode := ⟨0x030A⟩
def seqUnexpected : ErrorCode := ⟨0x030B⟩
def internal : ErrorCode := ⟨0x0400⟩
def ioError : ErrorCode := ⟨0x0401⟩
def persistenceUnverified : ErrorCode := ⟨0x0402⟩
def csprngFailure : ErrorCode := ⟨0x0403⟩

end ErrorCode

/-! ## Messages -/

/-- `SEALED_LEN`: 87 bytes of ciphertext and the tag. -/
def sealedLen : Nat := 103

/-- `CONFIRM_BODY_LEN`. -/
def confirmBodyLen : Nat := 87

/-- `ProtocolVersion::V2`. -/
structure ProtocolVersion where
  get : UInt16
  deriving DecidableEq, Repr

def ProtocolVersion.v2 : ProtocolVersion := ⟨wireVersion⟩

structure FeatureFlags where
  bits : UInt32
  deriving DecidableEq, Repr

inductive ArbitrateResult where
  | ok
  | serverAhead
  | exhausted
  | bookMismatch
  | clientAhead
  deriving DecidableEq, Repr

inductive Message where
  | hello (bookId : BookId) (clientNonce : Nonce16) (clientPointer : SegmentIndex)
      (features : FeatureFlags)
  | arbitrate (serverNonce : Nonce16) (serverPointer : SegmentIndex) (result : ArbitrateResult)
  | issueRequest (chosenPointer : SegmentIndex) (clientNonce serverNonce : Nonce16)
  | confirmC2s (segmentIndex : SegmentIndex) (sessionNonce : Nonce16) (epoch : Epoch)
      (seq : Sequence) (sealed : Exactly 103)
  | confirmS2c (segmentIndex : SegmentIndex) (sessionNonce : Nonce16) (epoch : Epoch)
      (seq : Sequence) (sealed : Exactly 103)
  | data (epoch : Epoch) (seq : Sequence) (data : Bytes)
  deriving DecidableEq, Repr

/-! ## The confirmation body -/

structure ConfirmBody where
  bookId : BookId
  segmentIndex : SegmentIndex
  clientNonce : Nonce16
  serverNonce : Nonce16
  direction : Direction
  epoch : Epoch
  seq : Sequence
  msgType : UInt16
  label : Exactly 14
  deriving DecidableEq, Repr

def encodeConfirmBody (body : ConfirmBody) : Bytes :=
  u16Bytes wireVersion ++ (body.bookId.asBytes.val ++ (u64Bytes body.segmentIndex.get ++
    (body.clientNonce.val ++ (body.serverNonce.val ++ ([directionWire body.direction] ++
      (u32Bytes body.epoch.get ++ (u64Bytes body.seq.get ++ (u16Bytes body.msgType ++
        body.label.val))))))))

@[simp] theorem length_encodeConfirmBody (body : ConfirmBody) :
    (encodeConfirmBody body).length = confirmBodyLen := by
  simp [encodeConfirmBody, confirmBodyLen]

/-- `body_direction_from_wire`. -/
def directionFromWire (v : UInt8) : Option Direction :=
  if v = 0x01 then some .clientToServer else if v = 0x02 then some .serverToClient else none

@[simp] theorem directionFromWire_directionWire (d : Direction) :
    directionFromWire (directionWire d) = some d := by
  cases d <;> decide

/-! ### The cursor: fields too short are `BAD_LENGTH`, bytes left over `TRAILING_BYTES` -/

namespace Cursor

def fixed (n : Nat) : Reader ErrorCode (Exactly n) := Reader.exactly .badLength n

def u8 : Reader ErrorCode UInt8 := do
  let field ← fixed 1
  pure (byteAt field.val 0)

def u16 : Reader ErrorCode UInt16 := do
  let field ← fixed 2
  pure (u16Of field.val)

def u32 : Reader ErrorCode UInt32 := do
  let field ← fixed 4
  pure (u32Of field.val)

def u64 : Reader ErrorCode UInt64 := do
  let field ← fixed 8
  pure (u64Of field.val)

def done : Reader ErrorCode Unit := Reader.done .trailingBytes

theorem run_fixed {n : Nat} (field : Exactly n) (rest : Bytes) :
    (fixed n).run (field.val ++ rest) = .ok (field, rest) :=
  Reader.run_exactly_append field rest

theorem run_u8 (v : UInt8) (rest : Bytes) : u8.run (v :: rest) = .ok (v, rest) :=
  Reader.run_map_ok (run_fixed ⟨[v], rfl⟩ rest)

theorem run_u16 (v : UInt16) (rest : Bytes) :
    u16.run (u16Bytes v ++ rest) = .ok (v, rest) :=
  (Reader.run_map_ok (run_fixed ⟨u16Bytes v, length_u16Bytes v⟩ rest)).trans
    (by rw [u16Of_u16Bytes])

theorem run_u32 (v : UInt32) (rest : Bytes) :
    u32.run (u32Bytes v ++ rest) = .ok (v, rest) :=
  (Reader.run_map_ok (run_fixed ⟨u32Bytes v, length_u32Bytes v⟩ rest)).trans
    (by rw [u32Of_u32Bytes])

theorem run_u64 (v : UInt64) (rest : Bytes) :
    u64.run (u64Bytes v ++ rest) = .ok (v, rest) :=
  (Reader.run_map_ok (run_fixed ⟨u64Bytes v, length_u64Bytes v⟩ rest)).trans
    (by rw [u64Of_u64Bytes])

/-! What a field that was read says of the bytes it was read from. -/

theorem run_fixed_eq_ok {n : Nat} {buf rest : Bytes} {field : Exactly n} :
    (fixed n).run buf = .ok (field, rest) ↔ buf = field.val ++ rest :=
  Reader.run_exactly_eq_ok

theorem run_u8_eq_ok {buf rest : Bytes} {v : UInt8} :
    u8.run buf = .ok (v, rest) ↔ buf = v :: rest := by
  constructor
  · intro read
    obtain ⟨⟨field, len⟩, mid, taken, same⟩ := Reader.run_bind_eq_ok.mp read
    obtain ⟨rfl, rfl⟩ := Reader.run_pure_eq_ok.mp same
    obtain ⟨b, rfl⟩ := List.length_eq_one_iff.mp len
    exact run_fixed_eq_ok.mp taken
  · rintro rfl
    exact run_u8 v rest

theorem run_u16_eq_ok {buf rest : Bytes} {v : UInt16} :
    u16.run buf = .ok (v, rest) ↔ buf = u16Bytes v ++ rest := by
  constructor
  · intro read
    obtain ⟨field, mid, taken, same⟩ := Reader.run_bind_eq_ok.mp read
    obtain ⟨rfl, rfl⟩ := Reader.run_pure_eq_ok.mp same
    rw [u16Bytes_u16Of field.property]
    exact run_fixed_eq_ok.mp taken
  · rintro rfl
    exact run_u16 v rest

theorem run_u32_eq_ok {buf rest : Bytes} {v : UInt32} :
    u32.run buf = .ok (v, rest) ↔ buf = u32Bytes v ++ rest := by
  constructor
  · intro read
    obtain ⟨field, mid, taken, same⟩ := Reader.run_bind_eq_ok.mp read
    obtain ⟨rfl, rfl⟩ := Reader.run_pure_eq_ok.mp same
    rw [u32Bytes_u32Of field.property]
    exact run_fixed_eq_ok.mp taken
  · rintro rfl
    exact run_u32 v rest

theorem run_u64_eq_ok {buf rest : Bytes} {v : UInt64} :
    u64.run buf = .ok (v, rest) ↔ buf = u64Bytes v ++ rest := by
  constructor
  · intro read
    obtain ⟨field, mid, taken, same⟩ := Reader.run_bind_eq_ok.mp read
    obtain ⟨rfl, rfl⟩ := Reader.run_pure_eq_ok.mp same
    rw [u64Bytes_u64Of field.property]
    exact run_fixed_eq_ok.mp taken
  · rintro rfl
    exact run_u64 v rest

theorem run_done_eq_ok {buf rest : Bytes} {u : Unit} :
    done.run buf = .ok (u, rest) ↔ buf = [] ∧ rest = [] :=
  Reader.run_done_eq_ok

end Cursor

open Cursor in
def confirmBody : Reader ErrorCode ConfirmBody := do
  let version ← u16
  Reader.failIf (version ≠ wireVersion) .badVersion
  let bookId ← fixed 16
  let segmentIndex ← u64
  let clientNonce ← fixed 16
  let serverNonce ← fixed 16
  let wire ← u8
  let direction ← Reader.okOr .badEnum (directionFromWire wire)
  let epoch ← u32
  let seq ← u64
  let msgType ← u16
  let label ← fixed 14
  done
  pure { bookId := ⟨bookId⟩, segmentIndex := ⟨segmentIndex⟩, clientNonce, serverNonce, direction,
         epoch := ⟨epoch⟩, seq := ⟨seq⟩, msgType, label }

def decodeConfirmBody (buf : Bytes) : Except ErrorCode ConfirmBody :=
  if buf.length ≠ confirmBodyLen then .error .badLength else confirmBody.parse buf

/-- **A body that was encoded decodes to itself.** -/
theorem decodeConfirmBody_encode (body : ConfirmBody) :
    decodeConfirmBody (encodeConfirmBody body) = .ok body := by
  rw [decodeConfirmBody, if_neg (by simp), Reader.parse, confirmBody, encodeConfirmBody,
    Reader.run_bind_ok (Cursor.run_u16 _ _), Reader.run_bind_ok (Reader.run_failIf_not (by simp)),
    Reader.run_bind_ok (Cursor.run_fixed _ _), Reader.run_bind_ok (Cursor.run_u64 _ _),
    Reader.run_bind_ok (Cursor.run_fixed _ _), Reader.run_bind_ok (Cursor.run_fixed _ _),
    List.singleton_append, Reader.run_bind_ok (Cursor.run_u8 _ _),
    Reader.run_bind_ok (Reader.run_okOr_some (directionFromWire_directionWire _)),
    Reader.run_bind_ok (Cursor.run_u32 _ _), Reader.run_bind_ok (Cursor.run_u64 _ _),
    Reader.run_bind_ok (Cursor.run_u16 _ _), ← List.append_nil body.label.val,
    Reader.run_bind_ok (Cursor.run_fixed _ _)]
  rfl

end Jbuu
