/-
# Handshake.Confirm — what both sides of the handshake share

`otp-handshake`'s errors, the result of a step, and the two CONFIRM messages: sealing
one, checking its outer fields, and checking the body that came out of the AEAD.
`wp_sealConfirm` is the rule for sealing: on a session that has sent nothing, one
request to the cipher at sequence 0.
-/
import Jbuu.Codec.Message
import Jbuu.Session.Session

namespace Jbuu

set_option autoImplicit false

open Jbuu.Library.BigEndian (Bytes Exactly)
open Jbuu.Library
open Jbuu.Library.Program (expect wp_bind wp_expect)
open Jbuu.Allocator (IssueError)

inductive HandshakeError where
  | bookMismatch
  | exhausted (next : SegmentIndex)
  | clientAhead (client server : SegmentIndex)
  | authentication (code : ErrorCode)
  | violation (code : ErrorCode)
  | issuer (e : IssueError)
  | csprng
  deriving DecidableEq, Repr

/-- What one call of the state machine gives. -/
inductive Step where
  | send (outbox : List Message)
  | established (outbox : List Message) (session : Session) (segment : SegmentIndex)
  | awaitPeer
  | failed (e : HandshakeError)
  deriving DecidableEq, Repr

def mapSessionOpenErr : SessionError → HandshakeError
  | .authenticationFailed => .authentication .tagInvalid
  | .sequenceReplay => .authentication .seqReplay
  | .sequenceUnexpected | .sequenceOverflow => .violation .seqUnexpected
  | .wrongDirection => .violation .wrongDirection
  | .closed => .violation .badOrder

def mapSessionSealErr : SessionError → HandshakeError
  | .sequenceOverflow => .violation .seqUnexpected
  | _ => .violation .internal

/-- `CONFIRM_LABEL_C2S`, `CONFIRM_LABEL_S2C`. -/
def confirmLabel : Direction → Exactly 14
  | .clientToServer => ⟨ascii "client-confirm", by decide⟩
  | .serverToClient => ⟨ascii "server-confirm", by decide⟩

/-- The record type of a CONFIRM, by direction. -/
def confirmType : Direction → MessageType
  | .clientToServer => .clientConfirm
  | .serverToClient => .serverConfirm

/-- `MsgType::wire` of a CONFIRM, by direction. -/
def confirmWire : Direction → UInt16
  | .clientToServer => 0x0004
  | .serverToClient => 0x0005

def confirmMessage : Direction → SegmentIndex → Nonce16 → Epoch → Sequence → Exactly 103 → Message
  | .clientToServer => .confirmC2s
  | .serverToClient => .confirmS2c

/-- The body `seal_confirm` writes. -/
def sealedBody (bookId : BookId) (segment : SegmentIndex) (clientNonce serverNonce : Nonce16)
    (direction : Direction) : ConfirmBody where
  bookId := bookId
  segmentIndex := segment
  clientNonce := clientNonce
  serverNonce := serverNonce
  direction := direction
  epoch := ⟨0⟩
  seq := .zero
  msgType := confirmWire direction
  label := confirmLabel direction

/-- What the body of a CONFIRM is expected to say. -/
structure ConfirmExpectations where
  bookId : BookId
  segment : SegmentIndex
  clientNonce : Nonce16
  serverNonce : Nonce16
  direction : Direction
  msgType : UInt16
  label : Exactly 14
  deriving DecidableEq, Repr

/-- A byte string as an array of `n`, where it has that length. -/
def sized (n : Nat) (bytes : Bytes) : Option (Exactly n) :=
  if fits : bytes.length = n then some ⟨bytes, fits⟩ else none

/-- `seal_confirm`; the `expect` is the panic of `copy_from_slice`. -/
def sealConfirm (session : Session) (bookId : BookId) (segment : SegmentIndex)
    (clientNonce serverNonce : Nonce16) (direction : Direction) :
    Host (Except HandshakeError Message × Session) := do
  let plain := encodeConfirmBody (sealedBody bookId segment clientNonce serverNonce direction)
  let (sealed, session) ← session.seal (confirmType direction) plain
  match sealed with
  | .error e => pure (.error (mapSessionSealErr e), session)
  | .ok record => do
      let sealed ← expect (sized 103 record.sealed)
      let zeta := session.ctx.sessionNonce
      pure (.ok (confirmMessage direction segment zeta ⟨0⟩ record.sequence sealed), session)

def verifyConfirmOuter (segmentIndex : SegmentIndex) (sessionNonce : Nonce16) (epoch : Epoch)
    (seq : Sequence) (expectSegment : SegmentIndex) (expectNonce : Nonce16) :
    Except HandshakeError Unit :=
  if segmentIndex ≠ expectSegment then .error (.authentication .segmentBinding)
  else if sessionNonce ≠ expectNonce then .error (.authentication .nonceMismatch)
  else if epoch.get ≠ 0 then .error (.violation .epochMismatch)
  else if seq.get ≠ 0 then .error (.violation .seqUnexpected)
  else .ok ()

def verifyConfirmBody (body : ConfirmBody) (e : ConfirmExpectations) : Except HandshakeError Unit :=
  if body.bookId ≠ e.bookId ∨ body.segmentIndex ≠ e.segment then
    .error (.authentication .segmentBinding)
  else if body.clientNonce ≠ e.clientNonce ∨ body.serverNonce ≠ e.serverNonce then
    .error (.authentication .nonceMismatch)
  else if body.direction ≠ e.direction ∨ body.msgType ≠ e.msgType ∨ body.label ≠ e.label then
    .error (.authentication .segmentBinding)
  else if body.epoch.get ≠ 0 then .error (.violation .epochMismatch)
  else if body.seq.get ≠ 0 then .error (.violation .seqUnexpected)
  else .ok ()

/-- The checks of `on_confirm_s2c` and of `on_confirm`: outer fields, tag, body. -/
def acceptConfirm (session : Session) (segmentIndex : SegmentIndex) (sessionNonce : Nonce16)
    (epoch : Epoch) (seq : Sequence) (sealed : Exactly 103) (e : ConfirmExpectations) :
    Host (Except HandshakeError Session) :=
  match verifyConfirmOuter segmentIndex sessionNonce epoch seq e.segment session.ctx.sessionNonce with
  | .error err => pure (.error err)
  | .ok () => do
      let (payload, session) ← session.open (confirmType e.direction) seq sealed.val
      match payload with
      | .error err => pure (.error (mapSessionOpenErr err))
      | .ok payload =>
          match decodeConfirmBody payload with
          | .error code => pure (.error (.violation code))
          | .ok body =>
              match verifyConfirmBody body e with
              | .error err => pure (.error err)
              | .ok () => pure (.ok session)

theorem verifyConfirmOuter_ok {segmentIndex expectSegment : SegmentIndex}
    {sessionNonce expectNonce : Nonce16} {epoch : Epoch} {seq : Sequence}
    (ok : verifyConfirmOuter segmentIndex sessionNonce epoch seq expectSegment expectNonce = .ok ()) :
    segmentIndex = expectSegment ∧ sessionNonce = expectNonce ∧ epoch = ⟨0⟩ ∧ seq = .zero := by
  unfold verifyConfirmOuter at ok
  split at ok
  · cases ok
  split at ok
  · cases ok
  split at ok
  · cases ok
  split at ok
  · cases ok
  · rename_i segment nonce zero first
    exact ⟨not_not.mp segment, not_not.mp nonce, congrArg Epoch.mk (not_not.mp zero),
      congrArg Sequence.mk (not_not.mp first)⟩

/-- **Sealing a CONFIRM** on a session that has sent nothing. -/
theorem wp_sealConfirm {φ σ : Type} {D : Device HostOp HostReply φ σ} {crash : σ → Prop} {st : σ}
    {s : Session} {keys : SessionKeys} {bookId : BookId} {segment : SegmentIndex}
    {clientNonce serverNonce : Nonce16} {direction : Direction}
    {post : Except HandshakeError Message × Session → σ → Prop}
    (active : s.terminated = none) (held : s.keys = some keys) (first : s.nextSend = .zero)
    (own : s.ctx.role.sendDirection = direction)
    (asks : ∀ fate, match D (.encrypt (keys.keyFor direction) (recordNonce s.domain direction .zero)
        (s.ctx.buildAad (confirmType direction) direction ⟨0⟩ .zero)
        (encodeConfirmBody (sealedBody bookId segment clientNonce serverNonce direction))) fate st with
      | (some none, st') =>
          post (.error (.violation .internal), s.terminate .authentication) st'
      | (some (some (ciphertext, tag)), st') =>
          ∃ fits : (ciphertext ++ tag.val).length = 103,
            post (.ok (confirmMessage direction segment s.ctx.sessionNonce ⟨0⟩ .zero
              ⟨ciphertext ++ tag.val, fits⟩),
              { s with sendSeq := s.sendSeq.set direction ⟨1⟩ }) st'
      | (none, st') => crash st') :
    (sealConfirm s bookId segment clientNonce serverNonce direction).wp D post crash st := by
  subst own
  have seals : s.Seals (confirmType s.ctx.role.sendDirection) := by
    refine ⟨?_, ?_⟩
    · cases s.ctx.role.sendDirection <;> rfl
    · rw [first]
      cases s.ctx.role.sendDirection <;> rfl
  have coherent : s.Coherent := by simp [Session.Coherent, active, held]
  rw [sealConfirm, wp_bind]
  apply Session.wp_seal coherent
  · intro _ ended
    exact absurd active ended
  · intro _ _ _ refused
    exact absurd seals refused
  · intro keys' _ held' _ fate
    obtain rfl : keys = keys' := Option.some.inj (held.symm.trans held')
    have answer := asks fate
    rw [first]
    revert answer
    generalize D _ fate st = given
    rcases given with ⟨_ | _ | ⟨ciphertext, tag⟩, st'⟩
    · exact id
    · exact id
    · rintro ⟨fits, now⟩
      have next : Sequence.zero.next = some ⟨1⟩ := by decide
      simp only [Session.sealedAfter, first, next]
      rw [wp_bind, wp_expect]
      exact ⟨⟨_, fits⟩, dif_pos fits, now⟩

/-- **Accepting a CONFIRM**: it opened under the peer's key at sequence 0. -/
theorem wp_acceptConfirm {φ σ : Type} {D : Device HostOp HostReply φ σ} {crash : σ → Prop} {st : σ}
    {s : Session} (coherent : s.Coherent) {segmentIndex : SegmentIndex} {sessionNonce : Nonce16}
    {epoch : Epoch} {seq : Sequence} {sealed : Exactly 103} {e : ConfirmExpectations}
    {post : Except HandshakeError Session → σ → Prop}
    (own : s.ctx.role.sendDirection.opposite = e.direction)
    (refuses : ∀ err, post (.error err) st)
    (asks : ∀ keys, s.terminated = none → s.keys = some keys → ∀ fate,
      match D (.decrypt (keys.keyFor e.direction) (recordNonce s.domain e.direction .zero)
          (s.ctx.buildAad (confirmType e.direction) e.direction ⟨0⟩ .zero)
          (splitTag sealed.val).1 (splitTag sealed.val).2) fate st with
        | (some none, st') => ∀ err, post (.error err) st'
        | (some (some _), st') => (∀ err, post (.error err) st') ∧
            post (.ok { s with recvLast := s.recvLast.set e.direction (some .zero) }) st'
        | (none, st') => crash st') :
    (acceptConfirm s segmentIndex sessionNonce epoch seq sealed e).wp D post crash st := by
  unfold acceptConfirm
  cases outer : verifyConfirmOuter segmentIndex sessionNonce epoch seq e.segment
    s.ctx.sessionNonce with
  | error err => exact refuses err
  | ok _ =>
      obtain ⟨-, -, -, rfl⟩ := verifyConfirmOuter_ok outer
      dsimp only
      rw [wp_bind]
      apply Session.wp_open coherent
      · intro err _
        exact refuses _
      · intro err _ _ _
        exact refuses _
      · intro keys active held opens fate
        have answer := asks keys active held fate
        rw [own]
        revert answer
        generalize D _ fate st = given
        rcases given with ⟨_ | _ | payload, st'⟩
        · exact id
        · exact fun refused => refused _
        · rintro ⟨refused, accepted⟩
          dsimp only [Session.openedAfter]
          rw [own]
          cases decodeConfirmBody payload with
          | error code => exact refused _
          | ok body =>
              dsimp only
              cases verifyConfirmBody body e with
              | error err => exact refused _
              | ok _ => exact accepted

end Jbuu
