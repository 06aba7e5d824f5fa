/-
# Session.Session — sealing, opening and ending a session

`Session` of `otp-session/src/session.rs`. What the code asks of the outside (the
AEAD, and for the handshake the random generator and the segment issuer) are requests
of one host; `seal` and `open` are programs over it that return the session they leave.
The `expect` on the keys is the panic of `aeadMaterial`.

`wp_seal` and `wp_open` say once what a call can do: refuse without a request, end the
session without one, or make one AEAD request at a fixed key, nonce and associated data
and go on from its reply (`sealedAfter`, `openedAfter`). Everything about sessions and
handshakes is derived from these two.
-/
import Jbuu.Allocator.Transaction
import Jbuu.Session.Nonce

namespace Jbuu

set_option autoImplicit false

open Jbuu.Library.BigEndian (Bytes Exactly)
open Jbuu.Library
open Jbuu.Library.Program (call expect)
open Jbuu.Allocator (IssueError)

/-- What the session and the handshake ask of their host. -/
inductive HostOp where
  | encrypt (key : DirectionKey) (nonce : Nonce96) (aad plaintext : Bytes)
  | decrypt (key : DirectionKey) (nonce : Nonce96) (aad ciphertext : Bytes) (tag : Tag)
  /-- `getrandom::fill` of 16 bytes. -/
  | csprng16
  /-- `SegmentIssuer::issue`. -/
  | issue
  deriving DecidableEq, Repr

abbrev HostReply : HostOp → Type
  | .encrypt _ _ _ _ => Option (Bytes × Tag)
  | .decrypt _ _ _ _ _ => Option Bytes
  | .csprng16 => Option Nonce16
  | .issue => Except IssueError Segment

abbrev Host := Program HostOp HostReply

def askHost (op : HostOp) : Host (HostReply op) := call op

/-- A sealed record: `sealed` is ciphertext and tag. -/
structure Record where
  sequence : Sequence
  sealed : Bytes
  deriving DecidableEq, Repr

inductive SessionError where
  | authenticationFailed
  | sequenceReplay
  | sequenceUnexpected
  | sequenceOverflow
  | wrongDirection
  | closed
  deriving DecidableEq, Repr

inductive Termination where
  | sequenceOverflow
  | authentication
  | sequenceViolation
  | misuse
  | closed
  deriving DecidableEq, Repr

structure Session where
  ctx : SessionContext
  domain : Exactly 3
  keys : Option SessionKeys
  /-- The next sequence to send, per direction. -/
  sendSeq : PerDirection Sequence
  /-- The last sequence accepted, per direction; `none` expects 0. -/
  recvLast : PerDirection (Option Sequence)
  terminated : Option Termination
  deriving DecidableEq, Repr

/-- A CONFIRM has sequence 0, DATA starts at 1. -/
def seqDiscipline (mt : MessageType) (seq : Sequence) : Bool :=
  if mt.isConfirm then seq = .zero else 1 ≤ seq.get

namespace Session

def new (segment : Segment) (ctx : SessionContext) : Session where
  ctx := ctx
  domain := ctx.nonceDomain
  keys := some (.split segment)
  sendSeq := ⟨.zero, .zero⟩
  recvLast := ⟨none, none⟩
  terminated := none

def ensureActive (s : Session) : Except SessionError Unit :=
  match s.terminated with
  | none => .ok ()
  | some .sequenceOverflow => .error .sequenceOverflow
  | some _ => .error .closed

/-- The keys go first; both directions end together. -/
def terminate (s : Session) (reason : Termination) : Session :=
  { s with keys := none, terminated := some reason }

def close (s : Session) : Session :=
  if s.terminated = none then s.terminate .closed else s

def aeadMaterial (s : Session) (mt : MessageType) (direction : Direction) (seq : Sequence) :
    Host (Nonce96 × Bytes × DirectionKey) := do
  let keys ← expect s.keys
  pure (recordNonce s.domain direction seq, s.ctx.buildAad mt direction ⟨0⟩ seq,
    keys.keyFor direction)

end Session

def Session.seal (s : Session) (mt : MessageType) (plaintext : Bytes) :
    Host (Except SessionError Record × Session) :=
  match s.ensureActive with
  | .error e => pure (.error e, s)
  | .ok () =>
    let direction := s.ctx.role.sendDirection
    if pairingValid mt direction = false then pure (.error .wrongDirection, s.terminate .misuse)
    else
      let seq := s.sendSeq.get direction
      if seqDiscipline mt seq = false then
        pure (.error .sequenceUnexpected, s.terminate .sequenceViolation)
      else do
        let (nonce, aad, key) ← s.aeadMaterial mt direction seq
        match ← askHost (.encrypt key nonce aad plaintext) with
        | none => pure (.error .authenticationFailed, s.terminate .authentication)
        | some (ciphertext, tag) =>
            let record : Record := { sequence := seq, sealed := ciphertext ++ tag.val }
            match seq.next with
            | some next => pure (.ok record, { s with sendSeq := s.sendSeq.set direction next })
            -- The last sequence number: this record still goes out, nothing after it.
            | none => pure (.ok record, s.terminate .sequenceOverflow)

def Session.open (s : Session) (mt : MessageType) (seq : Sequence) (sealed : Bytes) :
    Host (Except SessionError Bytes × Session) :=
  match s.ensureActive with
  | .error e => pure (.error e, s)
  | .ok () =>
    let direction := s.ctx.role.sendDirection.opposite
    if pairingValid mt direction = false then pure (.error .wrongDirection, s.terminate .misuse)
    else if seqDiscipline mt seq = false then
      pure (.error .sequenceUnexpected, s.terminate .sequenceViolation)
    else
      let last := s.recvLast.get direction
      if last = some seq then pure (.error .sequenceReplay, s.terminate .sequenceViolation)
      else
        let expected := match last with
          | none => some Sequence.zero
          | some l => l.next
        if expected ≠ some seq then
          pure (.error .sequenceUnexpected, s.terminate .sequenceViolation)
        else if sealed.length < tagLen then
          pure (.error .authenticationFailed, s.terminate .authentication)
        else do
          let (nonce, aad, key) ← s.aeadMaterial mt direction seq
          let cut := sealed.length - tagLen
          match ← askHost (.decrypt key nonce aad (sealed.take cut) (sliceExactly 16 sealed cut)) with
          | none => pure (.error .authenticationFailed, s.terminate .authentication)
          | some plaintext =>
              pure (.ok plaintext, { s with recvLast := s.recvLast.set direction (some seq) })

/-- Ciphertext and tag of a sealed record. -/
def splitTag (sealed : Bytes) : Bytes × Tag :=
  (sealed.take (sealed.length - tagLen), sliceExactly 16 sealed (sealed.length - tagLen))

theorem splitTag_append (ciphertext : Bytes) (tag : Tag) :
    splitTag (ciphertext ++ tag.val) = (ciphertext, tag) := by
  have cut : (ciphertext ++ tag.val).length - tagLen = ciphertext.length := by simp [tagLen]
  unfold splitTag
  rw [cut, List.take_left, sliceExactly_eq tag]
  rw [slice, List.drop_left, List.take_of_length_le (by simp)]

theorem append_splitTag {sealed : Bytes} (long : tagLen ≤ sealed.length) :
    (splitTag sealed).1 ++ (splitTag sealed).2.val = sealed := by
  have tail : (sealed.drop (sealed.length - tagLen)).length = 16 := by
    simp only [List.length_drop, tagLen] at long ⊢
    omega
  have same : sliceExactly 16 sealed (sealed.length - tagLen) =
      ⟨sealed.drop (sealed.length - tagLen), tail⟩ := by
    apply sliceExactly_eq
    simp only [slice, Nat.add_sub_cancel_left]
    exact List.take_of_length_le tail.le
  simp [splitTag, same]

/-! ## What a call can do -/

namespace Session

/-- Terminated exactly when the keys are gone. -/
def Coherent (s : Session) : Prop := s.terminated ≠ none ↔ s.keys = none

theorem coherent_new (segment : Segment) (ctx : SessionContext) :
    (Session.new segment ctx).Coherent := by
  simp [Coherent, Session.new]

@[simp] theorem coherent_terminate (s : Session) (reason : Termination) :
    (s.terminate reason).Coherent := by
  simp [Coherent, terminate]

@[simp] theorem ended_terminate (s : Session) (reason : Termination) :
    (s.terminate reason).terminated ≠ none := by
  simp [terminate]

theorem Coherent.close {s : Session} (coherent : s.Coherent) : s.close.Coherent := by
  unfold Session.close
  split
  · exact coherent_terminate s .closed
  · exact coherent

theorem Coherent.keys_of_active {s : Session} (coherent : s.Coherent) (active : s.terminated = none) :
    ∃ keys, s.keys = some keys := by
  apply Option.ne_none_iff_exists'.mp
  intro gone
  exact coherent.mpr gone active

theorem ended_close (s : Session) : s.close.terminated ≠ none := by
  unfold Session.close
  split
  · simp [terminate]
  · assumption

/-- An ended session stays as it is. -/
theorem close_ended {s : Session} (ended : s.terminated ≠ none) : s.close = s :=
  if_neg ended

theorem ensureActive_active {s : Session} (active : s.terminated = none) :
    s.ensureActive = .ok () := by
  simp [ensureActive, active]

theorem ensureActive_ended {s : Session} (ended : s.terminated ≠ none) :
    ∃ e, s.ensureActive = .error e := by
  unfold ensureActive
  split
  · contradiction
  · exact ⟨_, rfl⟩
  · exact ⟨_, rfl⟩

theorem seal_ended {s : Session} (ended : s.terminated ≠ none) (mt : MessageType)
    (plaintext : Bytes) : ∃ e, s.seal mt plaintext = pure (.error e, s) := by
  obtain ⟨e, refuses⟩ := ensureActive_ended ended
  exact ⟨e, by simp [Session.seal, refuses]⟩

theorem open_ended {s : Session} (ended : s.terminated ≠ none) (mt : MessageType)
    (seq : Sequence) (sealed : Bytes) : ∃ e, s.open mt seq sealed = pure (.error e, s) := by
  obtain ⟨e, refuses⟩ := ensureActive_ended ended
  exact ⟨e, by simp [Session.open, refuses]⟩

/-- After the last sequence number. -/
theorem seal_overflowed {s : Session} (overflow : s.terminated = some .sequenceOverflow)
    (mt : MessageType) (plaintext : Bytes) :
    s.seal mt plaintext = pure (.error .sequenceOverflow, s) := by
  simp [Session.seal, ensureActive, overflow]

/-- The sequence the next sealing takes. -/
def nextSend (s : Session) : Sequence := s.sendSeq.get s.ctx.role.sendDirection

theorem nextSend_new (segment : Segment) (ctx : SessionContext) :
    (Session.new segment ctx).nextSend = .zero := by
  simp only [nextSend, new]
  cases ctx.role.sendDirection <;> rfl

/-- The one sequence the session accepts; `none` once there is no successor. -/
def expected (s : Session) : Option Sequence :=
  match s.recvLast.get s.ctx.role.sendDirection.opposite with
  | none => some .zero
  | some last => last.next

/-- What `seal` checks before it asks the cipher. -/
structure Seals (s : Session) (mt : MessageType) : Prop where
  paired : pairingValid mt s.ctx.role.sendDirection = true
  disciplined : seqDiscipline mt s.nextSend = true

/-- What `open` checks before it asks the cipher. -/
structure Opens (s : Session) (mt : MessageType) (seq : Sequence) (sealed : Bytes) : Prop where
  paired : pairingValid mt s.ctx.role.sendDirection.opposite = true
  disciplined : seqDiscipline mt seq = true
  expected : s.expected = some seq
  long : tagLen ≤ sealed.length

theorem aeadMaterial_held {s : Session} {keys : SessionKeys} (held : s.keys = some keys)
    (mt : MessageType) (direction : Direction) (seq : Sequence) :
    s.aeadMaterial mt direction seq = pure (recordNonce s.domain direction seq,
      s.ctx.buildAad mt direction ⟨0⟩ seq, keys.keyFor direction) := by
  rw [aeadMaterial, held]
  rfl

/-- The last sequence accepted is not expected again. -/
theorem not_expected_last {s : Session} {seq : Sequence}
    (last : s.recvLast.get s.ctx.role.sendDirection.opposite = some seq) :
    s.expected ≠ some seq := by
  rw [expected, last]
  intro next
  have := (Sequence.next_eq_some.mp next).2
  omega

/-- What `seal` makes of the cipher's reply. -/
def sealedAfter (s : Session) : Option (Bytes × Tag) → Except SessionError Record × Session
  | none => (.error .authenticationFailed, s.terminate .authentication)
  | some (ciphertext, tag) =>
      (.ok { sequence := s.nextSend, sealed := ciphertext ++ tag.val },
        match s.nextSend.next with
        | some next => { s with sendSeq := s.sendSeq.set s.ctx.role.sendDirection next }
        | none => s.terminate .sequenceOverflow)

/-- What `open` makes of the cipher's reply. -/
def openedAfter (s : Session) (seq : Sequence) :
    Option Bytes → Except SessionError Bytes × Session
  | none => (.error .authenticationFailed, s.terminate .authentication)
  | some plaintext =>
      (.ok plaintext,
        { s with recvLast := s.recvLast.set s.ctx.role.sendDirection.opposite (some seq) })

section Rules

variable {φ σ : Type} {D : Device HostOp HostReply φ σ} {crash : σ → Prop} {st : σ}

/-- **What `seal` can do.** -/
theorem wp_seal {s : Session} (coherent : s.Coherent) {mt : MessageType} {plaintext : Bytes}
    {post : Except SessionError Record × Session → σ → Prop}
    (refuses : ∀ e, s.terminated ≠ none → post (.error e, s) st)
    (ends : ∀ e reason, s.terminated = none → ¬s.Seals mt → post (.error e, s.terminate reason) st)
    (asks : ∀ keys, s.terminated = none → s.keys = some keys → s.Seals mt → ∀ fate,
      match D (.encrypt (keys.keyFor s.ctx.role.sendDirection)
          (recordNonce s.domain s.ctx.role.sendDirection s.nextSend)
          (s.ctx.buildAad mt s.ctx.role.sendDirection ⟨0⟩ s.nextSend) plaintext) fate st with
        | (some reply, st') => post (s.sealedAfter reply) st'
        | (none, st') => crash st') :
    (s.seal mt plaintext).wp D post crash st := by
  by_cases active : s.terminated = none
  · obtain ⟨keys, held⟩ := coherent.keys_of_active active
    unfold Session.seal
    rw [ensureActive_active active]
    dsimp only
    split
    · rename_i unpaired
      exact ends _ _ active fun seals =>
        Bool.false_ne_true (unpaired.symm.trans seals.paired)
    · rename_i paired
      split
      · rename_i undisciplined
        exact ends _ _ active fun seals =>
          Bool.false_ne_true (undisciplined.symm.trans seals.disciplined)
      · rename_i disciplined
        rw [aeadMaterial_held held]
        intro fate
        have answer := asks keys active held
          ⟨by simpa using paired, by simpa [nextSend] using disciplined⟩ fate
        revert answer
        unfold sealedAfter nextSend
        generalize D _ fate st = given
        rcases given with ⟨_ | _ | ⟨ciphertext, tag⟩, st'⟩
        · exact id
        · exact id
        · dsimp only
          cases (s.sendSeq.get s.ctx.role.sendDirection).next <;> exact id
  · obtain ⟨e, same⟩ := seal_ended active mt plaintext
    rw [same]
    exact refuses e active

/-- **What `open` can do.** -/
theorem wp_open {s : Session} (coherent : s.Coherent) {mt : MessageType} {seq : Sequence}
    {sealed : Bytes} {post : Except SessionError Bytes × Session → σ → Prop}
    (refuses : ∀ e, s.terminated ≠ none → post (.error e, s) st)
    (ends : ∀ e reason, s.terminated = none → ¬s.Opens mt seq sealed →
      post (.error e, s.terminate reason) st)
    (asks : ∀ keys, s.terminated = none → s.keys = some keys → s.Opens mt seq sealed → ∀ fate,
      match D (.decrypt (keys.keyFor s.ctx.role.sendDirection.opposite)
          (recordNonce s.domain s.ctx.role.sendDirection.opposite seq)
          (s.ctx.buildAad mt s.ctx.role.sendDirection.opposite ⟨0⟩ seq)
          (splitTag sealed).1 (splitTag sealed).2) fate st with
        | (some reply, st') => post (s.openedAfter seq reply) st'
        | (none, st') => crash st') :
    (s.open mt seq sealed).wp D post crash st := by
  by_cases active : s.terminated = none
  · obtain ⟨keys, held⟩ := coherent.keys_of_active active
    unfold Session.open
    rw [ensureActive_active active]
    show Program.wp D post crash (if _ = false then _ else if _ = false then _ else
      if _ = some seq then _ else if s.expected ≠ some seq then _ else if _ then _ else _) st
    split
    · rename_i unpaired
      exact ends _ _ active fun opens =>
        Bool.false_ne_true (unpaired.symm.trans opens.paired)
    split
    · rename_i undisciplined
      exact ends _ _ active fun opens =>
        Bool.false_ne_true (undisciplined.symm.trans opens.disciplined)
    split
    · rename_i replayed
      exact ends _ _ active fun opens => not_expected_last replayed opens.expected
    split
    · rename_i unexpected
      exact ends _ _ active fun opens => unexpected opens.expected
    split
    · rename_i short
      exact ends _ _ active fun opens => short.not_ge opens.long
    · rename_i paired disciplined _ expected long
      rw [aeadMaterial_held held]
      intro fate
      have answer := asks keys active held ⟨by simpa using paired, by simpa using disciplined,
        by simpa using expected, by simpa using long⟩ fate
      revert answer
      unfold splitTag
      generalize D _ fate st = given
      rcases given with ⟨_ | _ | plaintext, st'⟩ <;> exact id
  · obtain ⟨e, same⟩ := open_ended active mt seq sealed
    rw [same]
    exact refuses e active

end Rules

end Session

end Jbuu
