/-
# Session.DataFrames — DATA frames on the wire, and what the endpoints accept

The four endpoints that read DATA frames once a session is established: the terminal
server, the terminal client, and the two sides of the echo of the command line tool. Each
decodes a frame, takes sequence and data from it, and gives these to `Session::open`.

An adversary drives both ends and hands an endpoint any bytes. Every call is a call of the
sessions of `Session.Channel` (`Takes`, `Mirrors.step`), so what is accepted was sealed by
the peer, with the same sequence and the same data. Nobody looks at the `epoch` field of a
frame: the associated data is built with epoch 0 whatever the field says. So an accepted
frame is the peer's in every byte but these four (`accepted_frame_is_sent_iff`).
-/
import Jbuu.Session.Channel
import Jbuu.Terminal.Frame
import Jbuu.Transport.Streaming

namespace Jbuu

set_option autoImplicit false

open Jbuu.Library.BigEndian (Bytes)
open Jbuu.Library
open Jbuu.Library.Program (exec_bind_pure)
open Jbuu.Transport (TransportError)
open Jbuu.Terminal (TerminalError TerminalFrame)

/-! ## Failures of the command line tool -/

structure SessionFailure where
  code : ErrorCode
  category : ErrorCategory
  deriving DecidableEq, Repr

/-- `SessionError::wire_code`. -/
def SessionError.wireCode : SessionError → Option UInt16
  | .authenticationFailed => some 0x0201
  | .sequenceReplay => some 0x0204
  | .sequenceUnexpected | .sequenceOverflow => some 0x030B
  | .wrongDirection => some 0x0306
  | .closed => none

namespace SessionFailure

/-- `From<TransportError>`. -/
def ofTransport (e : TransportError) : SessionFailure := ⟨e.code, .transport⟩

/-- `From<SessionError>`. -/
def ofSession (e : SessionError) : SessionFailure :=
  ⟨(e.wireCode.map ErrorCode.mk).getD .internal, .session⟩

end SessionFailure

/-! ## Sending -/

inductive FrameError where
  | codec (e : ErrorCode)
  | notData
  | session (e : SessionError)
  deriving DecidableEq, Repr

/-- A plaintext sealed and framed: what is handed to `send_frame`. -/
def sealFrame (s : Session) (plaintext : Bytes) : Host (Except FrameError Bytes × Session) := do
  let (sealed, s) ← s.seal .data plaintext
  pure (match sealed with
    | .error e => .error (.session e)
    | .ok record =>
        match encode (.data ⟨0⟩ record.sequence record.sealed) with
        | .error e => .error (.codec e)
        | .ok wire => .ok wire, s)

/-- `send_terminal_frame` of the server and `TerminalSession::send`, up to `send_frame`. -/
def sendTerminalFrame (s : Session) (frame : TerminalFrame) :
    Host (Except TerminalError Bytes × Session) := do
  let plaintext ← Program.expect frame.encode
  let (framed, s) ← sealFrame s plaintext
  pure (match framed with
    | .error (.session e) => .error (.session e)
    | .error _ => .error .protocol
    | .ok wire => .ok wire, s)

/-! ## Receiving -/

/-- A frame decoded and its record opened. -/
def openFrame (role : Role) (s : Session) (wire : Bytes) :
    Host (Except FrameError Bytes × Session) :=
  match decode role wire with
  | .error e => pure (.error (.codec e), s)
  | .ok (.data _ seq data) => do
      let (opened, s) ← s.open .data seq data
      pure (match opened with
        | .error e => .error (.session e)
        | .ok plain => .ok plain, s)
  | .ok _ => pure (.error .notData, s)

inductive RecvOutcome where
  | frame (f : TerminalFrame)
  | timeout
  | closed (e : TerminalError)

/-- `recv_terminal_frame`; `received` is what `recv_frame` returned. -/
def recvTerminalFrame (received : Except TransportError Bytes) (s : Session) :
    Host (RecvOutcome × Session) :=
  match received with
  | .error .timeout => pure (.timeout, s)
  | .error e => pure (.closed (.transport e), s)
  | .ok wire => do
      let (opened, s) ← openFrame .server s wire
      pure (match opened with
        | .error (.session e) => .closed (.session e)
        | .error _ => .closed .protocol
        | .ok plain =>
            match TerminalFrame.decode plain with
            | .ok f => .frame f
            | .error _ => .closed .protocol, s)

/-- `TerminalSession::recv_raw`. -/
def recvRaw (received : Except TransportError Bytes) (s : Session) :
    Host (Except TerminalError (Option TerminalFrame) × Session) :=
  match received with
  | .error .timeout => pure (.ok none, s)
  | .error e => pure (.error (.transport e), s)
  | .ok wire => do
      let (opened, s) ← openFrame .client s wire
      pure (match opened with
        | .error (.session e) => .error (.session e)
        | .error _ => .error .protocol
        | .ok plain => (TerminalFrame.decode plain).map some, s)

/-- The session a side of the echo leaves: a message that is not DATA closes it. -/
def afterFrame (opened : Except FrameError Bytes) (s : Session) : Session :=
  match opened with
  | .error .notData => s.close
  | _ => s

def echoFailure : FrameError → SessionFailure
  | .codec e => ⟨e, .codec⟩
  | .notData => ⟨.badOrder, .codec⟩
  | .session e => .ofSession e

/-- The receiving half of a turn of `server_echo_loop`; `none` is the end of the stream. -/
def echoReceive (received : Except TransportError Bytes) (s : Session) :
    Host (Except SessionFailure (Option Bytes) × Session) :=
  match received with
  | .error .closedByPeer => pure (.ok none, s)
  | .error e => pure (.error (.ofTransport e), s.close)
  | .ok wire => do
      let (opened, s) ← openFrame .server s wire
      pure (match opened with
        | .error e => .error (echoFailure e)
        | .ok plain => .ok (some plain), afterFrame opened s)

/-- The receiving half of `client_roundtrip`. -/
def roundtripReceive (received : Except TransportError Bytes) (s : Session) :
    Host (Except SessionFailure Bytes × Session) :=
  match received with
  | .error e => pure (.error (.ofTransport e), s)
  | .ok wire => do
      let (opened, s) ← openFrame .client s wire
      pure (match opened with
        | .error e => .error (echoFailure e)
        | .ok plain => .ok plain, afterFrame opened s)

/-! ## The endpoints -/

inductive DataEndpoint where
  | terminalServer
  | terminalClient
  | echoServer
  | echoClient
  deriving DecidableEq, Repr

namespace DataEndpoint

def role : DataEndpoint → Role
  | .terminalServer | .echoServer => .server
  | .terminalClient | .echoClient => .client

/-- Whether the frame was accepted, and the session then. -/
def receive (endpoint : DataEndpoint) (received : Except TransportError Bytes) (s : Session) :
    Host (Bool × Session) :=
  match endpoint with
  | .terminalServer => do
      let (outcome, s) ← recvTerminalFrame received s
      pure (match outcome with
        | .frame _ => true
        | _ => false, s)
  | .terminalClient => do
      let (outcome, s) ← recvRaw received s
      pure (match outcome with
        | .ok (some _) => true
        | _ => false, s)
  | .echoServer => do
      let (outcome, s) ← echoReceive received s
      pure (match outcome with
        | .ok (some _) => true
        | _ => false, s)
  | .echoClient => do
      let (outcome, s) ← roundtripReceive received s
      pure (match outcome with
        | .ok _ => true
        | _ => false, s)

/-- What receiving comes to: refusing without the cipher, or one call of `open` with the
sequence and the data of the frame. -/
inductive Takes (role : Role) (received : Except TransportError Bytes) (s : Session) :
    Host (Bool × Session) → Prop
  | refuses : Takes role received s (pure (false, s))
  | closes : Takes role received s (pure (false, s.close))
  | opens (wire : Bytes) (epoch : Epoch) (seq : Sequence) (data : Bytes)
      (accept : Except SessionError Bytes → Bool) (came : received = .ok wire)
      (decoded : decode role wire = .ok (.data epoch seq data))
      (honest : ∀ e, accept (.error e) = false) (p : Host (Bool × Session))
      (same : p = s.open .data seq data >>= fun out => pure (accept out.1, out.2)) :
      Takes role received s p

/-- The frame, decoded: refused, not DATA, or a record to open. -/
theorem openFrame_cases (role : Role) (s : Session) (wire : Bytes) :
    (∃ e, openFrame role s wire = pure (.error (.codec e), s)) ∨
      openFrame role s wire = pure (.error .notData, s) ∨
      ∃ epoch seq data, decode role wire = .ok (.data epoch seq data) ∧
        openFrame role s wire = (do
          let (opened, s) ← s.open .data seq data
          pure (match opened with
            | .error e => .error (.session e)
            | .ok plain => .ok plain, s)) := by
  unfold openFrame
  cases decoded : decode role wire with
  | error e => exact .inl ⟨e, rfl⟩
  | ok m =>
      cases m with
      | data epoch seq data => exact .inr (.inr ⟨epoch, seq, data, rfl, rfl⟩)
      | _ => exact .inr (.inl rfl)

theorem takes (endpoint : DataEndpoint) (received : Except TransportError Bytes) (s : Session) :
    Takes endpoint.role received s (endpoint.receive received s) := by
  cases received with
  | error e =>
      cases endpoint with
      | terminalServer => cases e <;> exact .refuses
      | terminalClient => cases e <;> exact .refuses
      | echoServer => cases e <;> first | exact .refuses | exact .closes
      | echoClient => exact .refuses
  | ok wire =>
      rcases openFrame_cases endpoint.role s wire with ⟨e, refused⟩ | other | ⟨epoch, seq, data,
        decoded, opens⟩
      · cases endpoint <;>
          simp only [role, receive, recvTerminalFrame, recvRaw, echoReceive, roundtripReceive]
            at refused ⊢ <;> rw [refused] <;> exact .refuses
      · cases endpoint <;>
          simp only [role, receive, recvTerminalFrame, recvRaw, echoReceive, roundtripReceive]
            at other ⊢ <;> rw [other]
        · exact .refuses
        · exact .refuses
        · exact .closes
        · exact .closes
      · -- what the caller makes of an opened record
        let accept : Except SessionError Bytes → Bool := fun opened =>
          match endpoint, opened with
          | _, .error _ => false
          | .terminalServer, .ok plain | .terminalClient, .ok plain =>
              match TerminalFrame.decode plain with
              | .ok _ => true
              | .error _ => false
          | _, .ok _ => true
        refine .opens wire epoch seq data accept rfl decoded ?_ _ ?_
        · intro e
          cases endpoint <;> rfl
        · cases endpoint <;>
            simp only [role, receive, recvTerminalFrame, recvRaw, echoReceive, roundtripReceive]
              at opens ⊢ <;>
            rw [opens] <;> simp only [bind_assoc, pure_bind] <;> congr 1 <;> funext out <;>
            obtain ⟨e | plain, s⟩ := out <;> try rfl
          · simp only [accept]
            cases TerminalFrame.decode plain <;> rfl
          · simp only [accept]
            cases TerminalFrame.decode plain <;> rfl

end DataEndpoint

/-! ## Two ends and an adversary -/

/-- The two sessions, the cipher's ledger, the frames each end handed to `send_frame` and
the frames each end accepted. -/
structure Exchange where
  session : Role → Session
  ledger : Ledger Role
  sent : Role → List Bytes
  accepted : Role → List Bytes

namespace Exchange

/-- The calls of the handshake that seal and open a confirmation, then those of the
endpoints, in any order. -/
inductive Event where
  | sealConfirm (role : Role) (plaintext : Bytes) (fates : List Fate)
  | openConfirm (role : Role) (seq : Sequence) (sealed : Bytes) (fates : List Fate)
  | send (role : Role) (plaintext : Bytes) (fates : List Fate)
  | receive (endpoint : DataEndpoint) (received : Except TransportError Bytes) (fates : List Fate)
  | close (role : Role)

def initial (segment : Segment) (ctx : Role → SessionContext) : Exchange where
  session role := .new segment (Channel.party ctx role)
  ledger := []
  sent _ := []
  accepted _ := []

def put (x : Exchange) (role : Role) (s : Session) (ledger : Ledger Role) (sent accepted : List Bytes) :
    Exchange where
  session := Function.update x.session role s
  ledger := ledger
  sent := Function.update x.sent role sent
  accepted := Function.update x.accepted role accepted

/-- A call of an end: what it leaves where it returned, by what is done with its result. -/
def after {α : Type} (x : Exchange) (role : Role) (sent accepted : α → List Bytes) :
    Outcome (α × Session) × Ledger Role → Exchange
  | (.returned (out, s), ledger) =>
      x.put role s ledger (x.sent role ++ sent out) (x.accepted role ++ accepted out)
  | (_, ledger) => { x with ledger }

def nothing {α : Type} (_ : α) : List Bytes := []

def step : Event → Exchange → Exchange
  | .sealConfirm role plaintext fates, x =>
      x.after role nothing nothing
        (((x.session role).seal (Channel.confirmation role) plaintext).exec (aead role) fates x.ledger)
  | .openConfirm role seq sealed fates, x =>
      x.after role nothing nothing
        (((x.session role).open (Channel.confirmation role.peer) seq sealed).exec (aead role) fates
          x.ledger)
  | .send role plaintext fates, x =>
      x.after role
        (fun framed => match framed with
          | .ok wire => [wire]
          | .error _ => []) nothing
        ((sealFrame (x.session role) plaintext).exec (aead role) fates x.ledger)
  | .receive endpoint received fates, x =>
      x.after endpoint.role nothing
        (fun taken => match taken, received with
          | true, .ok wire => [wire]
          | _, _ => [])
        ((endpoint.receive received (x.session endpoint.role)).exec (aead endpoint.role) fates x.ledger)
  | .close role, x => x.put role (x.session role).close x.ledger (x.sent role) (x.accepted role)

/-! ### Every call is one of the channel -/

/-- What the frames of one end have to do with its records. -/
structure FramesOf (role : Role) (e : Endpoint) (sent accepted : List Bytes) : Prop where
  /-- Every DATA record that was sealed went out as a frame, if it has one. -/
  framed : ∀ note ∈ e.sent, note.mt = .data → ∀ wire,
    encode (.data ⟨0⟩ note.sequence note.sealed) = .ok wire → wire ∈ sent
  /-- Every frame that went out has epoch 0. -/
  plain : ∀ wire ∈ sent, ∃ seq data, encode (.data ⟨0⟩ seq data) = .ok wire
  /-- Every frame that was accepted is DATA, and its record was opened. -/
  opened : ∀ wire ∈ accepted, ∃ epoch, ∃ note ∈ e.accepted, note.mt = .data ∧
    decode role wire = .ok (.data epoch note.sequence note.sealed)

structure Mirrors (x : Exchange) (c : Channel) : Prop where
  session : ∀ role, x.session role = (c.endpoint role).session
  ledger : x.ledger = c.ledger
  frames : ∀ role, FramesOf role (c.endpoint role) (x.sent role) (x.accepted role)

theorem mirrors_initial (segment : Segment) (ctx : Role → SessionContext) :
    Mirrors (initial segment ctx) (Channel.initial segment ctx) where
  session _ := rfl
  ledger := rfl
  frames _ := ⟨nofun, nofun, nofun⟩

variable {x : Exchange} {c : Channel} {role : Role}

/-- One end of both is replaced. -/
theorem Mirrors.put (mirrors : Mirrors x c) {e : Endpoint} {ledger : Ledger Role}
    {sent accepted : List Bytes} (frames : FramesOf role e sent accepted) :
    Mirrors (x.put role e.session ledger sent accepted) (c.put role e ledger) where
  session role' := by
    by_cases this : role' = role
    · subst this
      rw [Channel.put_same]
      exact Function.update_self ..
    · rw [Channel.put_other this]
      exact (Function.update_of_ne this ..).trans (mirrors.session role')
  ledger := rfl
  frames role' := by
    by_cases this : role' = role
    · subst this
      rw [Channel.put_same]
      simpa [Exchange.put] using frames
    · rw [Channel.put_other this]
      simpa [Exchange.put, Function.update_of_ne this] using mirrors.frames role'

/-- A call that did not return leaves the ends alone. -/
theorem Mirrors.lost (mirrors : Mirrors x c) {ledger : Ledger Role} {panicked : Bool} :
    Mirrors { x with ledger } { c with ledger, panicked } where
  session := mirrors.session
  ledger := rfl
  frames := mirrors.frames

theorem FramesOf.sealReturned {e : Endpoint} {sent accepted : List Bytes}
    (frames : FramesOf role e sent accepted) {mt : MessageType} {plaintext : Bytes}
    {out : Except SessionError Record × Session} {more : List Bytes}
    (new : ∀ record, out.1 = .ok record → mt = .data → ∀ wire,
      encode (.data ⟨0⟩ record.sequence record.sealed) = .ok wire → wire ∈ more)
    (plain : ∀ wire ∈ more, ∃ seq data, encode (.data ⟨0⟩ seq data) = .ok wire) :
    FramesOf role (e.sealReturned mt plaintext out) (sent ++ more) accepted := by
  obtain ⟨out, s⟩ := out
  have plains : ∀ wire ∈ sent ++ more, ∃ seq data, encode (.data ⟨0⟩ seq data) = .ok wire := by
    intro wire mem
    rcases List.mem_append.mp mem with old | fresh
    · exact frames.plain wire old
    · exact plain wire fresh
  cases out with
  | error err =>
      refine ⟨?_, plains, frames.opened⟩
      intro note mem data wire encoded
      exact List.mem_append_left _ (frames.framed note mem data wire encoded)
  | ok record =>
      refine ⟨?_, plains, frames.opened⟩
      intro note mem data wire encoded
      rcases List.mem_append.mp mem with old | fresh
      · exact List.mem_append_left _ (frames.framed note old data wire encoded)
      · obtain rfl := List.mem_singleton.mp fresh
        exact List.mem_append_right _ (new record rfl data wire encoded)

theorem FramesOf.openReturned {e : Endpoint} {sent accepted : List Bytes}
    (frames : FramesOf role e sent accepted) {mt : MessageType} {seq : Sequence} {sealed : Bytes}
    {out : Except SessionError Bytes × Session} {more : List Bytes}
    (new : ∀ wire ∈ more, mt = .data ∧ (∃ plain, out.1 = .ok plain) ∧
      ∃ epoch, decode role wire = .ok (.data epoch seq sealed)) :
    FramesOf role (e.openReturned mt seq sealed out) sent (accepted ++ more) := by
  obtain ⟨out, s⟩ := out
  cases out with
  | error err =>
      refine ⟨frames.framed, frames.plain, ?_⟩
      intro wire mem
      rcases List.mem_append.mp mem with old | fresh
      · exact frames.opened wire old
      · obtain ⟨-, ⟨plain, same⟩, -⟩ := new wire fresh
        cases same
  | ok plain =>
      refine ⟨frames.framed, frames.plain, ?_⟩
      intro wire mem
      rcases List.mem_append.mp mem with old | fresh
      · obtain ⟨epoch, note, mem, rest⟩ := frames.opened wire old
        exact ⟨epoch, note, List.mem_append_left _ mem, rest⟩
      · obtain ⟨data, -, epoch, decoded⟩ := new wire fresh
        exact ⟨epoch, _, List.mem_append_right _ (List.mem_singleton_self _), data, decoded⟩

theorem sealReturned_session (e : Endpoint) (mt : MessageType) (plaintext : Bytes)
    (out : Except SessionError Record × Session) :
    (e.sealReturned mt plaintext out).session = out.2 := by
  obtain ⟨_ | _, s⟩ := out <;> rfl

theorem openReturned_session (e : Endpoint) (mt : MessageType) (seq : Sequence) (sealed : Bytes)
    (out : Except SessionError Bytes × Session) :
    (e.openReturned mt seq sealed out).session = out.2 := by
  obtain ⟨_ | _, s⟩ := out <;> rfl

/-- A call of `seal`, and what is made of its result. -/
theorem Mirrors.after_seal (mirrors : Mirrors x c) (role : Role) {α : Type} (mt : MessageType)
    (plaintext : Bytes) (fates : List Fate) (result : Except SessionError Record → α)
    (sent : α → List Bytes)
    (new : ∀ record, mt = .data → ∀ wire,
      encode (.data ⟨0⟩ record.sequence record.sealed) = .ok wire → wire ∈ sent (result (.ok record)))
    (plain : ∀ sealed, ∀ wire ∈ sent (result sealed),
      ∃ seq data, encode (.data ⟨0⟩ seq data) = .ok wire) :
    Mirrors (x.after role sent nothing
        (((x.session role).seal mt plaintext >>= fun out => pure (result out.1, out.2)).exec
          (aead role) fates x.ledger))
      (Channel.step (.seal role mt plaintext fates) c) := by
  rw [exec_bind_pure, mirrors.session role, mirrors.ledger]
  unfold Channel.step
  dsimp only
  rcases ((c.endpoint role).session.seal mt plaintext).exec (aead role) fates c.ledger with
    ⟨out | _ | _, ledger⟩
  · have frames : FramesOf role ((c.endpoint role).sealReturned mt plaintext out)
        (x.sent role ++ sent (result out.1)) (x.accepted role) :=
      (mirrors.frames role).sealReturned (fun record same => by rw [same]; exact new record)
        (plain out.1)
    have both := @Mirrors.put x c role mirrors _ ledger _ _ frames
    rw [sealReturned_session] at both
    simpa [Exchange.after, Outcome.map, nothing] using both
  · exact mirrors.lost
  · exact mirrors.lost

/-- A call of `open`, and what is made of its result. -/
theorem Mirrors.after_open (mirrors : Mirrors x c) (role : Role) {α : Type} (mt : MessageType) (seq : Sequence)
    (sealed : Bytes) (fates : List Fate) (result : Except SessionError Bytes → α)
    (accepted : α → List Bytes)
    (new : ∀ opened, ∀ wire ∈ accepted (result opened), mt = .data ∧ (∃ plain, opened = .ok plain) ∧
      ∃ epoch, decode role wire = .ok (.data epoch seq sealed)) :
    Mirrors (x.after role nothing accepted
        (((x.session role).open mt seq sealed >>= fun out => pure (result out.1, out.2)).exec
          (aead role) fates x.ledger))
      (Channel.step (.open role mt seq sealed fates) c) := by
  rw [exec_bind_pure, mirrors.session role, mirrors.ledger]
  unfold Channel.step
  dsimp only
  rcases ((c.endpoint role).session.open mt seq sealed).exec (aead role) fates c.ledger with
    ⟨out | _ | _, ledger⟩
  · have frames : FramesOf role ((c.endpoint role).openReturned mt seq sealed out)
        (x.sent role) (x.accepted role ++ accepted (result out.1)) :=
      (mirrors.frames role).openReturned (new out.1)
    have both := @Mirrors.put x c role mirrors _ ledger _ _ frames
    rw [openReturned_session] at both
    simpa [Exchange.after, Outcome.map, nothing] using both
  · exact mirrors.lost
  · exact mirrors.lost

theorem Mirrors.keeps (mirrors : Mirrors x c) (role : Role) :
    Mirrors (x.put role (x.session role) x.ledger (x.sent role) (x.accepted role)) c where
  session role' := by
    rw [← mirrors.session role']
    simp [Exchange.put]
  ledger := mirrors.ledger
  frames role' := by
    simpa [Exchange.put] using mirrors.frames role'

theorem Mirrors.close (mirrors : Mirrors x c) (role : Role) :
    Mirrors (x.put role (x.session role).close x.ledger (x.sent role) (x.accepted role))
      (Channel.step (.close role) c) := by
  have frames : FramesOf role { c.endpoint role with session := (c.endpoint role).session.close }
      (x.sent role) (x.accepted role) :=
    ⟨(mirrors.frames role).framed, (mirrors.frames role).plain, (mirrors.frames role).opened⟩
  have both := @Mirrors.put x c role mirrors _ c.ledger _ _ frames
  rw [mirrors.session, mirrors.ledger]
  exact both

/-- **Every event of the exchange is one of the channel**, or none. -/
theorem Mirrors.step (mirrors : Mirrors x c) (event : Event) :
    ∃ events, Mirrors (step event x) (run Channel.step events c) := by
  cases event with
  | sealConfirm role plaintext fates =>
      refine ⟨[.seal role (Channel.confirmation role) plaintext fates], ?_⟩
      have both := mirrors.after_seal role (Channel.confirmation role) plaintext fates id
        nothing (fun record data => by cases role <;> cases data) (by rintro _ _ ⟨⟩)
      simpa [Exchange.step, run] using both
  | openConfirm role seq sealed fates =>
      refine ⟨[.open role (Channel.confirmation role.peer) seq sealed fates], ?_⟩
      have both := mirrors.after_open role (Channel.confirmation role.peer) seq sealed fates
        id nothing (by rintro _ _ ⟨⟩)
      simpa [Exchange.step, run] using both
  | send role plaintext fates =>
      refine ⟨[.seal role .data plaintext fates], ?_⟩
      refine mirrors.after_seal role .data plaintext fates
        (fun sealed => match sealed with
          | .error e => .error (.session e)
          | .ok record =>
              match encode (.data ⟨0⟩ record.sequence record.sealed) with
              | .error e => .error (.codec e)
              | .ok wire => .ok wire)
        (fun framed : Except FrameError Bytes => match framed with
          | .ok wire => [wire]
          | .error _ => []) ?_ ?_
      · intro record _ wire encoded
        simp [encoded]
      · intro sealed wire mem
        cases sealed with
        | error e => cases mem
        | ok record =>
            dsimp only at mem
            cases encoded : encode (.data ⟨0⟩ record.sequence record.sealed) with
            | error e => simp [encoded] at mem
            | ok frame =>
                simp only [encoded, List.mem_singleton] at mem
                exact ⟨_, _, mem ▸ encoded⟩
  | receive endpoint received fates =>
      unfold Exchange.step
      dsimp only
      have spec := endpoint.takes received (x.session endpoint.role)
      generalize endpoint.receive received (x.session endpoint.role) = p at spec
      cases spec with
      | refuses =>
          refine ⟨[], ?_⟩
          simpa [Exchange.after, nothing, run] using mirrors.keeps endpoint.role
      | closes =>
          refine ⟨[.close endpoint.role], ?_⟩
          simpa [Exchange.after, nothing, run] using mirrors.close endpoint.role
      | opens wire epoch seq data accept came decoded honest p same =>
          subst came same
          refine ⟨[.open endpoint.role .data seq data fates], ?_⟩
          refine mirrors.after_open endpoint.role .data seq data fates accept _ ?_
          intro opened wire' mem
          cases opened with
          | error e => simp [honest] at mem
          | ok plain =>
              cases accepts : accept (.ok plain) with
              | false => simp [accepts] at mem
              | true =>
                  simp only [accepts, List.mem_singleton] at mem
                  subst mem
                  exact ⟨rfl, ⟨plain, rfl⟩, epoch, decoded⟩
  | close role => exact ⟨[.close role], mirrors.close role⟩

theorem mirrors_run (segment : Segment) (ctx : Role → SessionContext) (events : List Event) :
    ∃ channelEvents, Mirrors (run step events (initial segment ctx))
      (run Channel.step channelEvents (Channel.initial segment ctx)) := by
  suffices all : ∀ {x : Exchange} {c : Channel}, Mirrors x c →
      ∃ channelEvents, Mirrors (run step events x) (run Channel.step channelEvents c) from
    all (mirrors_initial segment ctx)
  induction events with
  | nil => exact fun mirrors => ⟨[], mirrors⟩
  | cons event rest ih =>
      intro x c mirrors
      obtain ⟨first, there⟩ := mirrors.step event
      obtain ⟨later, finally_⟩ := ih there
      exact ⟨first ++ later, by rwa [run_append]⟩

/-! ## What is accepted -/

/-- `frame[8..12]` of a DATA frame. -/
def epochOf (wire : Bytes) : Epoch := ⟨u32Of (slice wire 8 12)⟩

/-- The frame with another epoch. -/
def withEpoch (wire : Bytes) (epoch : Epoch) : Bytes :=
  wire.take 8 ++ (u32Bytes epoch.get ++ wire.drop 12)

theorem frameOf_data (epoch : Epoch) (seq : Sequence) (data : Bytes) :
    ∃ header rest, header.length = 8 ∧ frameOf (.data epoch seq data) =
      header ++ (u32Bytes epoch.get ++ rest) ∧
      ∀ epoch', frameOf (.data epoch' seq data) = header ++ (u32Bytes epoch'.get ++ rest) := by
  refine ⟨frameHeader (.data ⟨0⟩ seq data), u64Bytes seq.get ++
    (u32Bytes (UInt32.ofNat data.length) ++ data), by simp [Codec.frameHeaderLen], ?_, ?_⟩
  · rfl
  · intro epoch'
    rfl

theorem epochOf_frameOf (epoch : Epoch) (seq : Sequence) (data : Bytes) :
    epochOf (frameOf (.data epoch seq data)) = epoch := by
  obtain ⟨header, rest, len, same, -⟩ := frameOf_data epoch seq data
  rw [epochOf, same, slice, BigEndian.drop_append len, BigEndian.take_append (by simp),
    u32Of_u32Bytes]

theorem withEpoch_frameOf (epoch epoch' : Epoch) (seq : Sequence) (data : Bytes) :
    withEpoch (frameOf (.data epoch seq data)) epoch' = frameOf (.data epoch' seq data) := by
  obtain ⟨header, rest, len, same, all⟩ := frameOf_data epoch seq data
  have tail : (header ++ (u32Bytes epoch.get ++ rest)).drop 12 = rest := by
    rw [← List.append_assoc, BigEndian.drop_append (by simp [len])]
  rw [withEpoch, same, all, BigEndian.take_append len, tail]

/-- **An accepted frame is the peer's exactly when its epoch is 0.** Whatever is done to the
two ends of a session: a frame that an endpoint accepted is DATA, and with its epoch set
to 0 it is byte for byte a frame the peer sent. So the peer sent it as it came exactly when
it came with epoch 0. -/
theorem accepted_frame_is_sent_iff (segment : Segment) (ctx : Role → SessionContext)
    (events : List Event) (role : Role) (wire : Bytes)
    (accepted : wire ∈ (run step events (initial segment ctx)).accepted role) :
    let x := run step events (initial segment ctx)
    withEpoch wire ⟨0⟩ ∈ x.sent role.peer ∧
      (wire ∈ x.sent role.peer ↔ epochOf wire = ⟨0⟩) := by
  intro x
  obtain ⟨channelEvents, mirrors⟩ := mirrors_run segment ctx events
  have steady := Channel.steady_run segment ctx channelEvents
  obtain ⟨epoch, note, opened, data, decoded⟩ := (mirrors.frames role).opened wire accepted
  obtain ⟨canonical, -, whole⟩ := decode_eq_ok_iff.mp decoded
  -- the record was sealed by the peer, and its frame has epoch 0
  have sealed := (steady.relayed role).subset opened
  have encoded : encode (.data ⟨0⟩ note.sequence note.sealed) =
      .ok (frameOf (.data ⟨0⟩ note.sequence note.sealed)) :=
    encode_eq_ok.mpr ⟨canonical, rfl⟩
  have sent := (mirrors.frames role.peer).framed note sealed data _ encoded
  have epochs : epochOf wire = epoch := by rw [whole, epochOf_frameOf]
  refine ⟨?_, ?_, ?_⟩
  · rw [whole, withEpoch_frameOf]
    exact sent
  · intro there
    obtain ⟨seq', data', encoded'⟩ := (mirrors.frames role.peer).plain wire there
    rw [(encode_eq_ok.mp encoded').2, epochOf_frameOf]
  · intro zero
    rw [whole, ← epochs, zero]
    exact sent

/-- A client confirms and sends a heartbeat, and the server reads it as it was sent. -/
theorem accepted_frame_is_sent_iff_ping :
    let fates : List Fate := [⟨some ([7], .replicate 16 9), true, none, .error .io⟩]
    let ctx : Role → SessionContext := fun _ =>
      ⟨.client, ⟨.replicate 16 0⟩, .zero, .replicate 16 1, .replicate 16 2⟩
    let wire : Bytes := [0, 2, 0, 6, 0, 0, 0, 33, 0, 0, 0, 0, 0, 0, 0, 0, 0, 0, 0, 1, 0, 0, 0, 17, 7] ++
      List.replicate 16 9
    let x := run step
      [.sealConfirm .client [1] fates, .openConfirm .server .zero (7 :: List.replicate 16 9) fates,
        .send .client [5] fates, .receive .terminalServer (.ok wire) fates]
      (initial (.replicate 64 5) ctx)
    withEpoch wire ⟨0⟩ ∈ x.sent .client ∧ (wire ∈ x.sent .client ↔ epochOf wire = ⟨0⟩) :=
  accepted_frame_is_sent_iff _ _ _ .server _ (by decide +kernel)

/-- The other end confirms and sends a heartbeat, and on the way its epoch becomes 1: every
endpoint accepts a frame its peer never sent. -/
theorem altered_epoch_is_accepted :
    let fates : List Fate := [⟨some ([7], .replicate 16 9), true, none, .error .io⟩]
    let ctx : Role → SessionContext := fun _ =>
      ⟨.client, ⟨.replicate 16 0⟩, .zero, .replicate 16 1, .replicate 16 2⟩
    let altered : Bytes :=
      [0, 2, 0, 6, 0, 0, 0, 33, 0, 0, 0, 1, 0, 0, 0, 0, 0, 0, 0, 1, 0, 0, 0, 17, 7] ++
        List.replicate 16 9
    ∀ endpoint ∈ [DataEndpoint.terminalServer, .terminalClient, .echoServer, .echoClient],
      let role := endpoint.role
      let x := run step
        [.sealConfirm role.peer [1] fates, .openConfirm role .zero (7 :: List.replicate 16 9) fates,
          .send role.peer [5] fates, .receive endpoint (.ok altered) fates]
        (initial (.replicate 64 5) ctx)
      altered ∈ x.accepted role ∧ altered ∉ x.sent role.peer ∧ epochOf altered ≠ ⟨0⟩ := by
  decide +kernel

end Exchange

end Jbuu
