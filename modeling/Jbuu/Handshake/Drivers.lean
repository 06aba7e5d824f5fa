/-
# Handshake.Drivers — the two handshake drivers of the command line tool

`server_handshake` and `client_handshake` of `otp-cli/src/proto.rs`, as programs over the stream,
the allocator and the host of the state machines, cut where they receive. A `Desk` is what a process
has besides its program: its allocator over its anchor disk, and the random bytes it will draw. With
the port of a desk a driver is a half of a channel: frames go to the other end, the rest is its own.
-/
import Jbuu.Allocator.Failures
import Jbuu.Handshake.Client
import Jbuu.Handshake.Server
import Jbuu.Library.Duplex
import Jbuu.Session.Conversation
import Jbuu.Session.Drivers

namespace Jbuu

set_option autoImplicit false

open Jbuu.Library.BigEndian (Bytes)
open Jbuu.Library
open Jbuu.Library.Program (call attempt mapErr)
open Jbuu.Transport (TransportError)
open Jbuu.Allocator (IssueError TransactionCore BookFile Disk media)

namespace HandshakeError

def code : HandshakeError → ErrorCode
  | .bookMismatch => .bookMismatch
  | .exhausted _ => .exhausted
  | .clientAhead _ _ => .clientAhead
  | .authentication code => code
  | .violation code => code
  | .issuer (.exhausted _) => .exhausted
  | .issuer .bookMismatch => .bookMismatch
  | .issuer .persistenceUncertain => .persistenceUnverified
  | .issuer .lockUnavailable | .issuer .anchorCorrupt | .issuer .io => .ioError
  -- No handshake reserves a range.
  | .issuer .invalidRange => .internal
  | .csprng => .csprngFailure

end HandshakeError

/-- `From<HandshakeError>`. -/
def SessionFailure.ofHandshake (e : HandshakeError) : SessionFailure where
  code := e.code
  category :=
    match e with
    | .issuer _ => .allocation
    | _ => .handshake

namespace Cli

/-! ## The drivers -/

/-- What a handshake driver asks for: its deadline, `Allocator::state`, and what the drivers of a
session ask for. -/
inductive HandshakeOp where
  | setDeadline (nanoseconds : Nat)
  | state
  | driver (op : DriverOp)
  deriving DecidableEq, Repr

abbrev HandshakeReply : HandshakeOp → Type
  | .setDeadline _ => Except TransportError Unit
  | .state => SegmentIndex × Generation
  | .driver op => DriverReply op

abbrev Handshaking := ExceptT SessionFailure (Program HandshakeOp HandshakeReply)

/-- What an established session has consumed. -/
structure SessionInfo where
  segment : SegmentIndex
  /-- Of the anchor, after the issue. -/
  generation : Generation
  deriving DecidableEq, Repr

/-- Book id and number of segments, from the header of the book. -/
structure Endpoint where
  bookId : BookId
  segmentCount : UInt64
  deriving DecidableEq, Repr

def onDriver {α : Type} (p : Driver α) : Program HandshakeOp HandshakeReply α :=
  p.interpret fun op => call (.driver op)

/-- A call of the state machine. -/
def onMachine {α : Type} (p : Host α) : Handshaking α := liftM (onDriver (onHost p))

def askDriver (op : HandshakeOp) : Program HandshakeOp HandshakeReply (HandshakeReply op) := call op

def setDeadline (deadline : Nat) : Handshaking Unit :=
  mapErr .ofTransport (attempt (askDriver (.setDeadline deadline)))

def allocatorState : Handshaking (SegmentIndex × Generation) :=
  liftM (askDriver .state)

def send (msg : Message) : Handshaking Unit := attempt (onDriver (sendMsg msg))

def recv (role : Role) : Handshaking Message := attempt (onDriver (recvMsg role))

/-- `for m in &outbox { send_msg(io, m)?; }` -/
def sendAll : List Message → Handshaking Unit
  | [] => pure ()
  | m :: rest => do
      send m
      sendAll rest

/-- `map_err(SessionFailure::from)?` -/
def orFail {α : Type} : Except HandshakeError α → Handshaking α
  | .ok value => pure value
  | .error e => throw (.ofHandshake e)

/-- A step that no state machine takes there. -/
def badOrder {α : Type} : Handshaking α := throw ⟨.badOrder, .handshake⟩

/-- The error of an ARBITRATE that ends the handshake. -/
def terminal (hello arbitrate : Message) : Option HandshakeError :=
  match arbitrate with
  | .arbitrate _ _ .bookMismatch => some .bookMismatch
  | .arbitrate _ serverPointer .exhausted => some (.exhausted serverPointer)
  | .arbitrate _ serverPointer .clientAhead =>
      match hello with
      | .hello _ _ clientPointer _ => some (.clientAhead clientPointer serverPointer)
      | _ => some (.clientAhead serverPointer serverPointer)
  | _ => none

/-- `server_handshake` from CONFIRM_C2S on. -/
def serverConfirm (server : ServerHandshake) : Handshaking (Session × SessionInfo) := do
  let confirm ← recv .server
  let out ← onMachine (server.onConfirm confirm)
  match out.1 with
  | .established outbox session segment => do
      sendAll outbox
      let state ← allocatorState
      pure (session, { segment, generation := state.2 })
  | .failed e => throw (.ofHandshake e)
  | _ => badOrder

/-- `server_handshake` from ISSUE_REQUEST on. -/
def serverIssue (server : ServerHandshake) : Handshaking (Session × SessionInfo) := do
  let issueRequest ← recv .server
  let out ← onMachine (server.onIssueRequest issueRequest)
  match out.1 with
  | .awaitPeer => serverConfirm out.2
  | .failed e => throw (.ofHandshake e)
  | _ => badOrder

/-- An ARBITRATE that ends the handshake is its last message: nothing more is received. -/
def serverProceed (server : ServerHandshake) : Option HandshakeError → Handshaking (Session × SessionInfo)
  | some e => throw (.ofHandshake e)
  | none => serverIssue server

/-- `server_handshake` from HELLO on. -/
def serverArbitrate (server : ServerHandshake) : Handshaking (Session × SessionInfo) := do
  let hello ← recv .server
  let out ← onMachine (server.onHello hello)
  let arbitrate ← orFail out.1
  send arbitrate
  serverProceed out.2 (terminal hello arbitrate)

def serverHandshake (ep : Endpoint) (deadline : Nat) : Handshaking (Session × SessionInfo) := do
  setDeadline deadline
  let state ← allocatorState
  let server ← orFail (ServerHandshake.new
    { version := .v2, bookId := ep.bookId, localPointer := state.1, segmentCount := ep.segmentCount })
  serverArbitrate server

/-- `client_handshake` from CONFIRM_S2C on. -/
def clientConfirm (client : ClientHandshake) : Handshaking (Session × SessionInfo) := do
  let confirm ← recv .client
  let out ← onMachine (client.handle confirm)
  match out.1 with
  | .established _ session segment => do
      let state ← allocatorState
      pure (session, { segment, generation := state.2 })
  | .failed e => throw (.ofHandshake e)
  | _ => badOrder

/-- `client_handshake` from ARBITRATE on. -/
def clientIssue (client : ClientHandshake) : Handshaking (Session × SessionInfo) := do
  let arbitrate ← recv .client
  let out ← onMachine (client.handle arbitrate)
  match out.1 with
  | .send outbox => do
      sendAll outbox
      clientConfirm out.2
  | .failed e => throw (.ofHandshake e)
  | _ => badOrder

def clientHandshake (ep : Endpoint) (deadline : Nat) : Handshaking (Session × SessionInfo) := do
  setDeadline deadline
  let state ← allocatorState
  let client ← orFail (ClientHandshake.new
    { version := .v2, bookId := ep.bookId, localPointer := state.1, segmentCount := ep.segmentCount })
  let out ← onMachine client.start
  let hello ← orFail out.1
  send hello
  clientIssue out.2

/-! ## A process and its channel -/

/-- What a process has besides its program. -/
structure Desk where
  core : TransactionCore
  disk : Disk
  /-- The random bytes it will draw. -/
  random : Nat → Nonce16
  /-- The segments its pointer has moved past since it started. -/
  consumed : List Nat

namespace Desk

variable (cipher : Cipher) (sha : Bytes → Digest) (book : BookFile)

/-- `Allocator::issue`; nothing of the medium fails. -/
def issue (s : Desk) : Option (Except IssueError Segment × Desk) :=
  match (s.core.issue sha).exec (media sha book) [] s.disk with
  | (.returned (result, core), disk) =>
      let past := s.core.current.next.get.toNat
      some (result,
        { s with core, disk, consumed := s.consumed ++ List.range' past (core.current.next.get.toNat - past) })
  | _ => none

/-- What the state machines ask of their host. -/
def answer (s : Desk) : (op : HostOp) → Option (HostReply op × Desk)
  | .encrypt key nonce aad plaintext => some (cipher.encrypt key nonce aad plaintext, s)
  | .decrypt key nonce aad ciphertext tag => some (cipher.decrypt key nonce aad ciphertext tag, s)
  | .csprng16 => some (some (s.random 0), { s with random := fun k => s.random (k + 1) })
  | .issue => s.issue sha book

def host : Device HostOp HostReply Unit Desk := fun op _ s =>
  match s.answer cipher sha book op with
  | some (reply, s') => (some reply, s')
  | none => (none, s)

/-- Frames go through the channel, the rest is the desk's. -/
def port : Port HandshakeOp HandshakeReply Bytes Desk
  | .setDeadline _ => .own fun s => some (.ok (), s)
  | .state => .own fun s => some ((s.core.current.next, s.core.current.generation), s)
  | .driver (.sendFrame wire) => .send wire (.ok ())
  | .driver .recvFrame => .receive .ok
  | .driver (.host op) => .own fun s => s.answer cipher sha book op

end Desk

/-- One end of the handshake. -/
abbrev Process := Half HandshakeOp HandshakeReply Bytes Desk (Except SessionFailure (Session × SessionInfo))

/-- The client at the left end, the server at the right. -/
abbrev Handshakes := Duplex HandshakeOp HandshakeReply Bytes Desk (Except SessionFailure (Session × SessionInfo))

def startHandshakes (clientEp serverEp : Endpoint) (deadline : Role → Nat) (client server : Desk) : Handshakes where
  left := ⟨(clientHandshake clientEp (deadline .client)).run, client, []⟩
  right := ⟨(serverHandshake serverEp (deadline .server)).run, server, []⟩

/-! ## How a process goes on -/

section Rules

variable {cipher : Cipher} {sha : Bytes → Digest} {book : BookFile} {s : Desk} {inbox : List Bytes}
  {post : List Bytes → Process → Prop}

open Half (Goes goes_own goes_send goes_receive goes_interpret)

theorem goes_setDeadline {deadline : Nat} {f : Unit → Handshaking (Session × SessionInfo)}
    (rest : Goes (Desk.port cipher sha book) ⟨(f ()).run, s, inbox⟩ post) :
    Goes (Desk.port cipher sha book) ⟨(setDeadline deadline >>= f).run, s, inbox⟩ post :=
  goes_own rfl (rfl : _ = some (Except.ok (), s)) rest

theorem goes_allocatorState {f : SegmentIndex × Generation → Handshaking (Session × SessionInfo)}
    (rest : Goes (Desk.port cipher sha book)
      ⟨(f (s.core.current.next, s.core.current.generation)).run, s, inbox⟩ post) :
    Goes (Desk.port cipher sha book) ⟨(allocatorState >>= f).run, s, inbox⟩ post :=
  goes_own rfl (rfl : _ = some ((s.core.current.next, s.core.current.generation), s)) rest

theorem goes_onMachine {α : Type} {p : Host α} {f : α → Handshaking (Session × SessionInfo)}
    (holds : p.wp (Desk.host cipher sha book)
      (fun value s => Goes (Desk.port cipher sha book) ⟨(f value).run, s, inbox⟩ post) (fun _ => False) s) :
    Goes (Desk.port cipher sha book) ⟨(onMachine p >>= f).run, s, inbox⟩ post := by
  have layers : (onMachine p >>= f).run =
      (p.interpret fun op => askDriver (.driver (.host op))) >>= fun value => (f value).run := by
    show (ExceptT.lift (onDriver (onHost p)) >>= f).run = _
    rw [ExceptT.run_bind_lift, onDriver, onHost, Program.interpret_interpret]
    rfl
  rw [layers]
  refine goes_interpret ?_ holds
  intro op own reply own' answered g rest
  unfold Desk.host at answered
  cases given : own.answer cipher sha book op with
  | none =>
      rw [given] at answered
      cases answered
  | some out =>
      rw [given] at answered
      cases answered
      exact goes_own rfl given rest

theorem goes_send {msg : Message} (canonical : checkCanonical msg = .ok ())
    {f : Unit → Handshaking (Session × SessionInfo)}
    (rest : Goes (Desk.port cipher sha book) ⟨(f ()).run, s, inbox⟩ fun later => post (frameOf msg :: later)) :
    Goes (Desk.port cipher sha book) ⟨(send msg >>= f).run, s, inbox⟩ post := by
  have encoded : encode msg = .ok (frameOf msg) := encode_eq_ok.mpr ⟨canonical, rfl⟩
  unfold send sendMsg
  rw [encoded]
  exact Half.goes_send rfl rest

theorem goes_sendAll {outbox : List Message} (canonical : ∀ msg ∈ outbox, checkCanonical msg = .ok ())
    {f : Unit → Handshaking (Session × SessionInfo)}
    (rest : Goes (Desk.port cipher sha book) ⟨(f ()).run, s, inbox⟩
      fun later => post (outbox.map frameOf ++ later)) :
    Goes (Desk.port cipher sha book) ⟨(sendAll outbox >>= f).run, s, inbox⟩ post := by
  induction outbox generalizing post with
  | nil => exact rest
  | cons msg outbox ih =>
      rw [sendAll, bind_assoc]
      apply goes_send (canonical msg (List.mem_cons_self ..))
      exact ih (fun later mem => canonical later (List.mem_cons_of_mem _ mem)) rest

theorem goes_recv {role : Role} {msg : Message} (canonical : checkCanonical msg = .ok ())
    (receives : Receives role msg) {f : Message → Handshaking (Session × SessionInfo)}
    (rest : Goes (Desk.port cipher sha book) ⟨(f msg).run, s, inbox⟩ post) :
    Goes (Desk.port cipher sha book) ⟨(recv role >>= f).run, s, frameOf msg :: inbox⟩ post := by
  have decoded : decode role (frameOf msg) = .ok msg := by
    rw [decode_frameOf canonical, if_pos receives]
  refine Half.goes_receive rfl ?_
  dsimp only [Program.bind]
  rw [decoded]
  exact rest

end Rules

end Cli

end Jbuu
