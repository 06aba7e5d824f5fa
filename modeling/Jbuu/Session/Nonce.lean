/-
# Session.Nonce — nonces, associated data and direction keys of a session

`otp-session`'s `nonce`, `aad` and `keys`. The 96-bit nonce is three bytes of the
session nonce, the direction byte and the full sequence number; the 73-byte associated
data is nine fields in a fixed order. Both are injective in what they bind
(`recordNonce_inj`, `buildAad_inj`), since every field has a fixed width.
-/
import Jbuu.Types

namespace Jbuu

set_option autoImplicit false

open Jbuu.Library.BigEndian (Bytes Exactly append_eq_iff)

inductive MessageType where
  | clientConfirm
  | serverConfirm
  | data
  deriving DecidableEq, Repr

namespace MessageType

def wireCode : MessageType → UInt16
  | .clientConfirm => 0x0004
  | .serverConfirm => 0x0005
  | .data => 0x0006

/-- Confirmations take sequence 0; data starts at 1. -/
def isConfirm : MessageType → Bool
  | .data => false
  | _ => true

theorem wireCode_inj {mt mt' : MessageType} : mt.wireCode = mt'.wireCode ↔ mt = mt' := by
  cases mt <;> cases mt' <;> decide

end MessageType

/-- `VERSION` of the wire format. -/
def wireVersion : UInt16 := 0x0002

def directionWire : Direction → UInt8
  | .clientToServer => 0x01
  | .serverToClient => 0x02

theorem directionWire_inj {d d' : Direction} : directionWire d = directionWire d' ↔ d = d' := by
  cases d <;> cases d' <;> decide

/-- Type and direction that go together: each CONFIRM has its direction, DATA either. -/
def pairingValid : MessageType → Direction → Bool
  | .clientConfirm, .clientToServer => true
  | .serverConfirm, .serverToClient => true
  | .data, _ => true
  | _, _ => false

structure SessionContext where
  role : Role
  bookId : BookId
  segment : SegmentIndex
  clientNonce : Nonce16
  serverNonce : Nonce16
  deriving DecidableEq, Repr

namespace SessionContext

/-- `client_nonce xor server_nonce`. -/
def sessionNonce (ctx : SessionContext) : Nonce16 :=
  ⟨List.zipWith (· ^^^ ·) ctx.clientNonce.val ctx.serverNonce.val, by simp⟩

/-- The first three bytes of the session nonce. -/
def nonceDomain (ctx : SessionContext) : Exactly 3 :=
  ⟨ctx.sessionNonce.val.take 3, by simp⟩

def buildAad (ctx : SessionContext) (mt : MessageType) (direction : Direction) (epoch : Epoch)
    (seq : Sequence) : Bytes :=
  u16Bytes wireVersion ++ (u16Bytes mt.wireCode ++ (directionWire direction ::
    (ctx.bookId.asBytes.val ++ (u64Bytes ctx.segment.get ++ (ctx.clientNonce.val ++
      (ctx.serverNonce.val ++ (u32Bytes epoch.get ++ u64Bytes seq.get)))))))

theorem length_buildAad (ctx : SessionContext) (mt : MessageType) (direction : Direction)
    (epoch : Epoch) (seq : Sequence) : (ctx.buildAad mt direction epoch seq).length = 73 := by
  simp [buildAad]

/-- **The associated data determines every field it binds.** -/
theorem buildAad_inj {ctx ctx' : SessionContext} {mt mt' : MessageType}
    {direction direction' : Direction} {epoch epoch' : Epoch} {seq seq' : Sequence}
    (same : ctx.buildAad mt direction epoch seq = ctx'.buildAad mt' direction' epoch' seq') :
    mt = mt' ∧ direction = direction' ∧ ctx.bookId = ctx'.bookId ∧ ctx.segment = ctx'.segment ∧
      ctx.clientNonce = ctx'.clientNonce ∧ ctx.serverNonce = ctx'.serverNonce ∧ epoch = epoch' ∧
      seq = seq' := by
  unfold buildAad at same
  obtain ⟨-, same⟩ := (append_eq_iff (by simp)).mp same
  obtain ⟨type, same⟩ := (append_eq_iff (by simp)).mp same
  obtain ⟨dir, same⟩ := List.cons.inj same
  obtain ⟨book, same⟩ := (append_eq_iff (by simp)).mp same
  obtain ⟨segment, same⟩ := (append_eq_iff (by simp)).mp same
  obtain ⟨client, same⟩ := (append_eq_iff (by simp)).mp same
  obtain ⟨server, same⟩ := (append_eq_iff (by simp)).mp same
  obtain ⟨epoch_, seq_⟩ := (append_eq_iff (by simp)).mp same
  refine ⟨MessageType.wireCode_inj.mp (u16Bytes_inj.mp type), directionWire_inj.mp dir, ?_, ?_,
    Subtype.ext client, Subtype.ext server, ?_, ?_⟩
  · exact congrArg BookId.mk (Subtype.ext book)
  · exact congrArg SegmentIndex.mk (u64Bytes_inj.mp segment)
  · exact congrArg Epoch.mk (u32Bytes_inj.mp epoch_)
  · exact congrArg Sequence.mk (u64Bytes_inj.mp seq_)

end SessionContext

/-! ## The record nonce -/

def recordNonce (domain : Exactly 3) (direction : Direction) (seq : Sequence) : Nonce96 :=
  ⟨domain.val ++ directionWire direction :: u64Bytes seq.get, by simp⟩

/-- **The nonce determines direction and sequence**, and the domain it was made for. -/
theorem recordNonce_inj {domain domain' : Exactly 3} {direction direction' : Direction}
    {seq seq' : Sequence} :
    recordNonce domain direction seq = recordNonce domain' direction' seq' ↔
      domain = domain' ∧ direction = direction' ∧ seq = seq' := by
  constructor
  · intro same
    have bytes := congrArg Subtype.val same
    simp only [recordNonce] at bytes
    obtain ⟨dom, rest⟩ := (append_eq_iff (by simp)).mp bytes
    obtain ⟨dir, rest⟩ := List.cons.inj rest
    exact ⟨Subtype.ext dom, directionWire_inj.mp dir,
      congrArg Sequence.mk (u64Bytes_inj.mp rest)⟩
  · rintro ⟨rfl, rfl, rfl⟩
    rfl

/-! ## The direction keys -/

abbrev DirectionKey := Exactly 32

/-- `SessionKeys`: the two halves of a segment. -/
structure SessionKeys where
  c2s : DirectionKey
  s2c : DirectionKey
  deriving DecidableEq, Repr

namespace SessionKeys

/-- The first half is the client's sending key, the second the server's; no derivation. -/
def split (segment : Segment) : SessionKeys where
  c2s := ⟨segment.val.take directionKeyLen, by simp [directionKeyLen]⟩
  s2c := ⟨segment.val.drop directionKeyLen, by simp [directionKeyLen]⟩

def keyFor (keys : SessionKeys) : Direction → DirectionKey
  | .clientToServer => keys.c2s
  | .serverToClient => keys.s2c

/-- The halves give the segment back. -/
theorem split_inj {segment segment' : Segment} (same : split segment = split segment') :
    segment = segment' := by
  have first := congrArg (fun keys => keys.c2s.val) same
  have second := congrArg (fun keys => keys.s2c.val) same
  simp only [split] at first second
  apply Subtype.ext
  rw [← List.take_append_drop directionKeyLen segment.val, first, second, List.take_append_drop]

end SessionKeys

end Jbuu
