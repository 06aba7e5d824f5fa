/-
# FullOtp.Pair — an honest client and an honest server

Two pumps over the same first bundle, each direction one FIFO that carries records and pad
control messages in the order they were emitted, and two pad sources at the same pointer
(`Synchronised`). Anyone may act at any time: send, ask for pads, prefetch, or take the
next frame (`Event`). As a ghost, the pair keeps what went through its ends, every reply,
and what was left of every bundle that was retired.
-/
import Jbuu.Library.Runs
import Jbuu.FullOtp.Exchange

namespace Jbuu.FullOtp

set_option autoImplicit false

open Jbuu.Library.BigEndian (Bytes Exactly)
open Jbuu.Library

/-- Two sources that hand out the same ranges of the same book, one after the other: where
the server's reserves a bundle, the client's can adopt it. -/
structure Synchronised {σ τ : Type} (server : PadSource σ) (client : PadSource τ)
    (book : UInt64 → Bundle) (level : σ → τ → Prop) : Prop where
  reserve : ∀ {s t base flat s'}, level s t → server.reserveNextBundle s = (.ok (base, flat), s') →
    flat = book base ∧ ∃ t', client.reserveBundleAt base t = (.ok (book base), t') ∧ level s' t'

/-- The message a pump asks its caller to send. -/
def PumpAction.message : PumpAction → PadControl
  | .sendPadNeed => .padNeed
  | .sendPadOffer bundleId base => .padOffer bundleId base
  | .sendPadAck bundleId => .padAck bundleId

def PumpReply.isOk : PumpReply → Bool
  | .sent (.ok _) => true
  | .received (.ok _) => true
  | .controlled (.ok _) => true
  | .prefetched (.ok _) => true
  | .closed => true
  | _ => false

/-- The pair; `ends.get d` is the pump that sends in direction `d`, so the client is
`ends.c2s`, and `flight.get d` is what it sent and the other has not taken. -/
structure Pair (σ τ : Type) where
  ends : PerDirection FullOtpPump
  serverSource : σ
  clientSource : τ
  flight : PerDirection (List Frame)
  sent : PerDirection Log
  received : PerDirection Log
  replies : List PumpReply
  /-- What was left of the bundles that were retired. -/
  tails : List Nat

inductive PairEvent where
  | send (d : Direction) (plaintext : Bytes)
  | padNeed
  | prefetch
  | deliver (d : Direction)
  deriving DecidableEq, Repr

/-- What is left of the bundles that `q` no longer has and `p` had. -/
def tailsOf (p q : FullOtpPump) : List Nat :=
  [Direction.clientToServer, .serverToClient].filterMap fun d =>
    if (q.current d).bundleId = (p.current d).bundleId then none else some (p.current d).remaining

namespace Pair

variable {σ τ : Type}

def new (book : UInt64 → Bundle) (base : UInt64) (s : σ) (t : τ) : Pair σ τ where
  ends := ⟨.new .client base (book base), .new .server base (book base)⟩
  serverSource := s
  clientSource := t
  flight := ⟨[], []⟩
  sent := ⟨{}, {}⟩
  received := ⟨{}, {}⟩
  replies := []
  tails := []

def client (w : Pair σ τ) : FullOtpPump := w.ends.c2s

def server (w : Pair σ τ) : FullOtpPump := w.ends.s2c

/-- The end that takes the frames of a direction. -/
def reader (w : Pair σ τ) (d : Direction) : FullOtpPump := w.ends.get d.opposite

def settle {α : Type} (w : Pair σ τ) (d : Direction) (turn : Turn α) (reply : α → PumpReply) : Pair σ τ :=
  { w with
    ends := w.ends.set d turn.pump
    replies := w.replies ++ [reply turn.result]
    tails := w.tails ++ tailsOf (w.ends.get d) turn.pump }

def emit (w : Pair σ τ) (d : Direction) (frames : List Frame) : Pair σ τ :=
  { w with flight := w.flight.set d (w.flight.get d ++ frames) }

section Step

variable (mac : MacKey → Bytes → Tag)

def onSend (d : Direction) (plaintext : Bytes) (w : Pair σ τ) : Pair σ τ :=
  let turn := (w.ends.get d).send mac plaintext
  let after := w.settle d turn .sent
  match turn.result with
  | .ok (.record record n _) =>
      { after.emit d [.data record.encode] with
        sent := w.sent.set d ((w.sent.get d).extend (plaintext.take n) (turn.pump.position d)) }
  | _ => after

def onData (d : Direction) (bytes : Bytes) (w : Pair σ τ) : Pair σ τ :=
  let turn := (w.reader d).receive mac bytes
  let after := w.settle d.opposite turn .received
  match turn.result with
  | .ok r =>
      { after with
        received := w.received.set d ((w.received.get d).extend r.plaintext (turn.pump.position d)) }
  | .error _ => after

variable {mac}

theorem onSend_record {w : Pair σ τ} {d : Direction} {plaintext : Bytes} {record : OtpDataRecord} {n : Nat}
    {need : Bool} (result : ((w.ends.get d).send mac plaintext).result = .ok (.record record n need)) :
    w.onSend mac d plaintext =
      { (w.settle d ((w.ends.get d).send mac plaintext) .sent).emit d [.data record.encode] with
        sent := w.sent.set d ((w.sent.get d).extend (plaintext.take n)
          (((w.ends.get d).send mac plaintext).pump.position d)) } := by
  unfold onSend
  dsimp only
  rw [result]

theorem onData_ok {w : Pair σ τ} {d : Direction} {bytes : Bytes} {r : Received}
    (result : ((w.reader d).receive mac bytes).result = .ok r) :
    w.onData mac d bytes =
      { w.settle d.opposite ((w.reader d).receive mac bytes) .received with
        received := w.received.set d ((w.received.get d).extend r.plaintext
          (((w.reader d).receive mac bytes).pump.position d)) } := by
  unfold onData
  dsimp only
  rw [result]

variable (mac)
variable (serverSide : PadSource σ) (clientSide : PadSource τ)

def onPrefetch (w : Pair σ τ) : Pair σ τ :=
  let (turn, s) := w.server.serverPrefetch serverSide w.serverSource
  let after := { w.settle .serverToClient turn .prefetched with serverSource := s }
  match turn.result with
  | .ok (some action) => after.emit .serverToClient [.control action.message]
  | _ => after

/-- What a control message makes its reader send goes out the other way. -/
def answered (w : Pair σ τ) (d : Direction) (result : Except PumpError (List PumpAction)) : Pair σ τ :=
  match result with
  | .ok actions => w.emit d (actions.map fun action => .control action.message)
  | .error _ => w

def onMessage (d : Direction) (msg : PadControl) (w : Pair σ τ) : Pair σ τ :=
  match d with
  | .clientToServer =>
      let (turn, s) := w.server.onControl serverSide msg w.serverSource
      { w.settle .serverToClient turn .controlled with serverSource := s }.answered .serverToClient turn.result
  | .serverToClient =>
      let (turn, t) := w.client.onControl clientSide msg w.clientSource
      { w.settle .clientToServer turn .controlled with clientSource := t }.answered .clientToServer turn.result

def onDeliver (d : Direction) (w : Pair σ τ) : Pair σ τ :=
  match w.flight.get d with
  | [] => w
  | .data bytes :: rest => { w with flight := w.flight.set d rest }.onData mac d bytes
  | .control msg :: rest => { w with flight := w.flight.set d rest }.onMessage serverSide clientSide d msg

def step (event : PairEvent) (w : Pair σ τ) : Pair σ τ :=
  match event with
  | .send d plaintext => w.onSend mac d plaintext
  | .padNeed => w.emit .clientToServer [.control .padNeed]
  | .prefetch => w.onPrefetch serverSide
  | .deliver d => w.onDeliver mac serverSide clientSide d

/-- The server's source does not fail if it is asked now. -/
def Supplies (w : Pair σ τ) : Prop :=
  w.server.hasNext = false →
    ∃ base flat s, serverSide.reserveNextBundle w.serverSource = (.ok (base, flat), s)

/-- What is asked of an event: a plaintext is not empty, a direction has fewer than 2^64
records, and the source does not fail when a prefetch asks it. -/
def Honest (w : Pair σ τ) : PairEvent → Prop
  | .send d plaintext => plaintext ≠ [] ∧ (w.sent.get d).positions.length + 1 < 2 ^ 64
  | .padNeed => True
  | .prefetch => w.Supplies serverSide
  | .deliver .clientToServer =>
      (∃ rest, w.flight.c2s = .control .padNeed :: rest) → w.Supplies serverSide
  | .deliver .serverToClient => True

end Step

end Pair

/-! ## What is in flight -/

/-- The offers among the frames. -/
def offers (frames : List Frame) : List (UInt64 × UInt64) :=
  frames.filterMap fun
    | .control (.padOffer bundleId base) => some (bundleId, base)
    | _ => none

/-- The acknowledgements among the frames. -/
def acks (frames : List Frame) : List UInt64 :=
  frames.filterMap fun
    | .control (.padAck bundleId) => some bundleId
    | _ => none

@[simp] theorem offers_append (before after : List Frame) :
    offers (before ++ after) = offers before ++ offers after := List.filterMap_append

@[simp] theorem acks_append (before after : List Frame) :
    acks (before ++ after) = acks before ++ acks after := List.filterMap_append

@[simp] theorem offers_data (bytes : Bytes) (rest : List Frame) :
    offers (.data bytes :: rest) = offers rest := rfl

@[simp] theorem acks_data (bytes : Bytes) (rest : List Frame) : acks (.data bytes :: rest) = acks rest := rfl

/-! ## How far the ends are apart -/

/-- How far a new bundle has come: nothing is open, its offer is in flight, or its
acknowledgement is. -/
inductive Phase where
  | quiet
  | offered (bundleId base : UInt64)
  | acking (bundleId : UInt64)
  deriving DecidableEq, Repr

/-- The next stream the client will have, where the server already has it. -/
def Phase.promise (book : UInt64 → Bundle) : Phase → Direction → Option PadStream
  | .offered bundleId base, .clientToServer => some ((splitBundle bundleId base (book base)).c2s)
  | _, _ => none

section Apart

variable {σ τ : Type} (mac : MacKey → Bytes → Tag) (book : UInt64 → Bundle) (clientSide : PadSource τ)
  (level : σ → τ → Prop)

/-- The sender's view, with what it was promised. -/
def Pair.owed (w : Pair σ τ) (phase : Phase) (d : Direction) : View :=
  ((w.ends.get d).view d (w.sent.get d)).holding (((w.ends.get d).next d).or (phase.promise book d))

/-- The view of the end that takes the frames of a direction. -/
def Pair.seen (w : Pair σ τ) (d : Direction) : View := (w.reader d).view d (w.received.get d)

/-- Where server, client and the frames in flight stand in a phase. -/
def Stage (w : Pair σ τ) : Phase → Prop
  | .quiet =>
      w.server.pendingAck = none ∧ w.client.nextBundleId = w.server.nextBundleId ∧
      offers w.flight.s2c = [] ∧ acks w.flight.c2s = [] ∧
      (w.server.nextAcked = true ∨ ∀ d, w.server.next d = none) ∧
      level w.serverSource w.clientSource
  | .offered bundleId base =>
      w.server.pendingAck = some bundleId ∧ w.client.nextBundleId = bundleId ∧
      w.server.nextBundleId = bundleId + 1 ∧
      offers w.flight.s2c = [(bundleId, base)] ∧ acks w.flight.c2s = [] ∧
      w.server.nextAcked = false ∧ (w.server.next .serverToClient).isSome ∧
      w.client.next .clientToServer = none ∧
      ∃ t, clientSide.reserveBundleAt base w.clientSource = (.ok (book base), t) ∧ level w.serverSource t
  | .acking bundleId =>
      w.server.pendingAck = some bundleId ∧ w.client.nextBundleId = w.server.nextBundleId ∧
      offers w.flight.s2c = [] ∧ acks w.flight.c2s = [bundleId] ∧
      w.server.nextAcked = false ∧ (w.server.next .serverToClient).isSome ∧
      level w.serverSource w.clientSource

/-- **The pair agrees**, up to what is in flight. -/
structure Agrees (w : Pair σ τ) (phase : Phase) : Prop where
  role : w.client.role = .client ∧ w.server.role = .server
  active : ∀ d, (w.ends.get d).closed = false
  laid : ∀ d, (w.ends.get d).Laid
  behind : ∀ d, Catches (Reads mac book d) (w.seen d) (w.flight.get d) (w.owed book phase d)
  placed : ∀ d, (w.seen d).Placed
  counted : ∀ d, ((w.ends.get d).seqOf d).toNat = (w.sent.get d).positions.length
  stage : Stage book clientSide level w phase
  replied : ∀ r ∈ w.replies, r.isOk = true
  short : ∀ n ∈ w.tails, n ≤ macKeyLen

end Apart

end Jbuu.FullOtp
