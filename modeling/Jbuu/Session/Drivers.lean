/-
# Session.Drivers — the two session drivers of the command line tool

`server_echo_loop` and `client_roundtrip` of `otp-cli/src/proto.rs`, as programs over the
transport and the session's host. A `Round` is what these answer while one frame goes in
and one comes out; the `leads_` rules say how a driver goes on, whatever they answer.

The doc comment of the loop says that a failed authentication or protocol check closes the
session. Two exits of the loop do not: a frame that does not decode, and an echo that
cannot be sent. Of `client_roundtrip` every exit between `seal` and `open` leaves the session
active, but the one for a message that is not DATA. `drivers_fail_closed_iff` is the exact
condition for both drivers.
-/
import Jbuu.Book.File
import Jbuu.Library.Layers
import Jbuu.Session.DataFrames

namespace Jbuu.Cli

set_option autoImplicit false

open Jbuu.Library.BigEndian (Bytes)
open Jbuu.Library
open Jbuu.Library.Program (call)
open Jbuu.Transport (TransportError)

/-! ## The drivers -/

/-- What a driver asks of its stream, and what its session asks of the host. -/
inductive DriverOp where
  | sendFrame (wire : Bytes)
  | recvFrame
  | host (op : HostOp)
  deriving DecidableEq, Repr

abbrev DriverReply : DriverOp → Type
  | .sendFrame _ => Except TransportError Unit
  | .recvFrame => Except TransportError Bytes
  | .host op => HostReply op

abbrev Driver := Program DriverOp DriverReply

def ask (op : DriverOp) : Driver (DriverReply op) := call op

/-- A call of the session. -/
def onHost {α : Type} (p : Host α) : Driver α :=
  p.interpret fun op => ask (.host op)

def codecFailure (e : ErrorCode) : SessionFailure := ⟨e, .codec⟩

/-- `send_msg`. -/
def sendMsg (msg : Message) : Driver (Except SessionFailure Unit) :=
  match encode msg with
  | .error e => pure (.error (codecFailure e))
  | .ok wire => do
      match ← ask (.sendFrame wire) with
      | .error e => pure (.error (.ofTransport e))
      | .ok () => pure (.ok ())

/-- `recv_msg`. -/
def recvMsg (role : Role) : Driver (Except SessionFailure Message) := do
  match ← ask .recvFrame with
  | .error e => pure (.error (.ofTransport e))
  | .ok wire =>
      match decode role wire with
      | .error e => pure (.error (codecFailure e))
      | .ok msg => pure (.ok msg)

/-- A call of `server_echo_loop`: its locals, and what it returned. -/
structure EchoLoop where
  bytes : UInt64
  session : Session
  ended : Option (Except SessionFailure UInt64)
  deriving DecidableEq, Repr

namespace EchoLoop

def start (session : Session) : EchoLoop := ⟨0, session, none⟩

/-- The end of a turn: the record of the frame is opened, sealed again and sent. -/
def echo (loop : EchoLoop) (seq : Sequence) (data : Bytes) : Driver EchoLoop := do
  let (opened, session) ← onHost (loop.session.open .data seq data)
  match opened with
  | .error e => pure { loop with session := session, ended := some (.error (.ofSession e)) }
  | .ok plain => do
      let bytes := Book.saturatingAdd loop.bytes plain.length
      let (sealed, session) ← onHost (session.seal .data plain)
      match sealed with
      | .error e => pure ⟨bytes, session, some (.error (.ofSession e))⟩
      | .ok record =>
          match ← sendMsg (.data ⟨0⟩ record.sequence record.sealed) with
          | .error e => pure ⟨bytes, session, some (.error e)⟩
          | .ok () => pure ⟨bytes, session, none⟩

/-- One turn of `server_echo_loop`. -/
def turn (loop : EchoLoop) : Driver EchoLoop := do
  match ← ask .recvFrame with
  | .error .closedByPeer => pure { loop with ended := some (.ok loop.bytes) }
  | .error e =>
      pure { loop with session := loop.session.close, ended := some (.error (.ofTransport e)) }
  | .ok wire =>
      match decode .server wire with
      | .error e => pure { loop with ended := some (.error (codecFailure e)) }
      | .ok (.data _ seq data) => loop.echo seq data
      | .ok _ =>
          pure { loop with session := loop.session.close, ended := some (.error (codecFailure .badOrder)) }

end EchoLoop

/-- `client_roundtrip`. Its `debug_assert` on the length of the chunk is not there in a
release build; a longer chunk is sealed and refused by `encode`. -/
def clientRoundtrip (chunk : Bytes) (s : Session) : Driver (Except SessionFailure Bytes × Session) := do
  let (sealed, s) ← onHost (s.seal .data chunk)
  match sealed with
  | .error e => pure (.error (.ofSession e), s)
  | .ok record =>
      match ← sendMsg (.data ⟨0⟩ record.sequence record.sealed) with
      | .error e => pure (.error e, s)
      | .ok () =>
          match ← recvMsg .client with
          | .error e => pure (.error e, s)
          | .ok (.data _ seq data) => do
              let (opened, s) ← onHost (s.open .data seq data)
              match opened with
              | .error e => pure (.error (.ofSession e), s)
              | .ok plain => pure (.ok plain, s)
          | .ok _ => pure (.error (codecFailure .badOrder), s.close)

/-! ## The halves of the drivers -/

@[simp] theorem onHost_pure {α : Type} (value : α) : onHost (pure value) = pure value := rfl

@[simp] theorem onHost_bind {α β : Type} (p : Host α) (f : α → Host β) :
    onHost (p >>= f) = onHost p >>= fun a => onHost (f a) := Program.interpret_bind

/-- A turn is the receiving half of `Session.DataFrames` and, on what that opened, the sending
half. -/
theorem EchoLoop.turn_eq (loop : EchoLoop) : loop.turn = (do
    let received ← ask .recvFrame
    let (got, session) ← onHost (echoReceive received loop.session)
    match got with
    | .error e => pure { loop with session := session, ended := some (.error e) }
    | .ok none => pure { loop with session := session, ended := some (.ok loop.bytes) }
    | .ok (some plain) => do
        let bytes := Book.saturatingAdd loop.bytes plain.length
        let (framed, session) ← onHost (sealFrame session plain)
        match framed with
        | .error e => pure ⟨bytes, session, some (.error (echoFailure e))⟩
        | .ok wire =>
            match ← ask (.sendFrame wire) with
            | .error e => pure ⟨bytes, session, some (.error (.ofTransport e))⟩
            | .ok () => pure ⟨bytes, session, none⟩) := by
  rw [EchoLoop.turn]
  congr 1
  funext received
  cases received with
  | error e => cases e <;> simp [echoReceive]
  | ok wire =>
      cases decoded : decode .server wire with
      | error e => simp [echoReceive, openFrame, decoded, echoFailure, codecFailure, afterFrame]
      | ok msg =>
          cases msg with
          | data epoch seq data =>
              simp only [echoReceive, openFrame, decoded, onHost_bind, bind_assoc, EchoLoop.echo, onHost_pure,
                pure_bind]
              congr 1
              funext out
              obtain ⟨opened, session⟩ := out
              cases opened with
              | error e => simp [echoFailure, afterFrame]
              | ok plain =>
                  simp only [afterFrame, sealFrame, onHost_bind, bind_assoc, onHost_pure, pure_bind]
                  congr 1
                  funext out
                  obtain ⟨sealed, session⟩ := out
                  cases sealed with
                  | error e => simp [echoFailure]
                  | ok record =>
                      simp only [sendMsg]
                      cases encode (.data ⟨0⟩ record.sequence record.sealed) with
                      | error e => simp [echoFailure, codecFailure]
                      | ok wire =>
                          simp only [bind_assoc]
                          congr 1
                          funext sent
                          cases sent <;> simp
          | _ => simp [echoReceive, openFrame, decoded, echoFailure, codecFailure, afterFrame]

/-- A round trip is the sending half and then the receiving half. -/
theorem clientRoundtrip_eq (chunk : Bytes) (s : Session) : clientRoundtrip chunk s = (do
    let (framed, s) ← onHost (sealFrame s chunk)
    match framed with
    | .error e => pure (.error (echoFailure e), s)
    | .ok wire =>
        match ← ask (.sendFrame wire) with
        | .error e => pure (.error (.ofTransport e), s)
        | .ok () => do
            let received ← ask .recvFrame
            onHost (roundtripReceive received s)) := by
  simp only [clientRoundtrip, sealFrame, onHost_bind, bind_assoc, onHost_pure, pure_bind]
  congr 1
  funext out
  obtain ⟨sealed, s⟩ := out
  cases sealed with
  | error e => simp [echoFailure]
  | ok record =>
      simp only [sendMsg]
      cases encode (.data ⟨0⟩ record.sequence record.sealed) with
      | error e => simp [echoFailure, codecFailure]
      | ok wire =>
          simp only [bind_assoc]
          congr 1
          funext sent
          cases sent with
          | error e => simp
          | ok u =>
              simp only [pure_bind, recvMsg, bind_assoc]
              congr 1
              funext received
              cases received with
              | error e => simp [roundtripReceive]
              | ok wire =>
                  cases decoded : decode .client wire with
                  | error e => simp [roundtripReceive, openFrame, decoded, echoFailure, codecFailure, afterFrame]
                  | ok msg =>
                      cases msg with
                      | data epoch seq data =>
                          simp only [roundtripReceive, openFrame, decoded, onHost_bind, bind_assoc, onHost_pure,
                            pure_bind]
                          congr 1
                          funext out
                          obtain ⟨opened, s⟩ := out
                          cases opened <;> simp [echoFailure, afterFrame]
                      | _ => simp [roundtripReceive, openFrame, decoded, echoFailure, codecFailure, afterFrame]

/-! ## Rounds -/

/-- What the stream and the cipher answer in one turn. -/
structure Round where
  recv : Except TransportError Bytes
  decrypt : Option Bytes
  encrypt : Option (Bytes × Tag)
  send : Except TransportError Unit
  deriving DecidableEq, Repr

namespace Round

/-- Neither driver asks for random bytes or for a segment. -/
def reply (round : Round) : (op : DriverOp) → DriverReply op
  | .sendFrame _ => round.send
  | .recvFrame => round.recv
  | .host (.encrypt _ _ _ _) => round.encrypt
  | .host (.decrypt _ _ _ _ _) => round.decrypt
  | .host .csprng16 => none
  | .host .issue => .error .io

def answers (round : Round) : Service DriverOp DriverReply Unit := fun op s => (round.reply op, s)

def run {α : Type} (round : Round) (p : Driver α) : Outcome α :=
  (p.exec round.answers.device [] ()).1

/-- The driver returns in this round, and so. -/
def Leads {α : Type} (round : Round) (p : Driver α) (post : α → Prop) : Prop :=
  p.wp round.answers.device (fun value _ => post value) (fun _ => False) ()

theorem Leads.run {α : Type} {round : Round} {p : Driver α} {post : α → Prop}
    (leads : round.Leads p post) : ∃ value, round.run p = .returned value ∧ post value := by
  obtain ⟨value, s, ran, holds⟩ := Program.returns_of_service leads
  exact ⟨value, by rw [Round.run, ran], holds⟩

end Round

namespace EchoLoop

/-- A turn of a call that has not returned. A session has its keys as long as it is active,
so no `expect` fails in it (`turn_leads`). -/
def step (round : Round) (loop : EchoLoop) : EchoLoop :=
  match loop.ended with
  | some _ => loop
  | none =>
      match round.run loop.turn with
      | .returned next => next
      | _ => loop

end EchoLoop

/-! ## How a driver runs in a round -/

section Rules

variable {α : Type} {round : Round} {post : α → Prop}

@[simp] theorem leads_pure {value : α} : round.Leads (pure value) post ↔ post value := Iff.rfl

theorem leads_ask {op : DriverOp} {f : DriverReply op → Driver α} :
    round.Leads (ask op >>= f) post ↔ round.Leads (f (round.reply op)) post :=
  forall_const Unit

/-- The host of the session, as the round answers for it. -/
def Round.host (round : Round) : Device HostOp HostReply Unit Unit :=
  fun op _ s => (some (round.reply (.host op)), s)

theorem leads_onHost {β : Type} {p : Host β} {f : β → Driver α} :
    round.Leads (onHost p >>= f) post ↔
      p.wp round.host (fun value _ => round.Leads (f value) post) (fun _ => False) () := by
  induction p with
  | pure value => exact Iff.rfl
  | panic => exact Iff.rfl
  | request op next ih => exact forall_congr' fun _ => ih (round.reply (.host op))

theorem leads_seal {s : Session} (coherent : s.Coherent) {mt : MessageType} {plaintext : Bytes}
    {f : Except SessionError Record × Session → Driver α}
    (refuses : ∀ e, s.terminated ≠ none → round.Leads (f (.error e, s)) post)
    (ends : ∀ e reason, ¬s.Seals mt → round.Leads (f (.error e, s.terminate reason)) post)
    (asks : s.terminated = none → s.Seals mt → round.Leads (f (s.sealedAfter round.encrypt)) post) :
    round.Leads (onHost (s.seal mt plaintext) >>= f) post := by
  refine leads_onHost.mpr (Session.wp_seal coherent refuses (fun e reason _ => ends e reason) ?_)
  exact fun _ active _ seals _ => asks active seals

theorem leads_open {s : Session} (coherent : s.Coherent) {mt : MessageType} {seq : Sequence}
    {sealed : Bytes} {f : Except SessionError Bytes × Session → Driver α}
    (refuses : ∀ e, s.terminated ≠ none → round.Leads (f (.error e, s)) post)
    (ends : ∀ e reason, ¬s.Opens mt seq sealed → round.Leads (f (.error e, s.terminate reason)) post)
    (asks : s.terminated = none → s.Opens mt seq sealed →
      round.Leads (f (s.openedAfter seq round.decrypt)) post) :
    round.Leads (onHost (s.open mt seq sealed) >>= f) post := by
  refine leads_onHost.mpr (Session.wp_open coherent refuses (fun e reason _ => ends e reason) ?_)
  exact fun _ active _ opens _ => asks active opens

/-- A ciphertext that fits a DATA frame with its tag. -/
def Fits (ciphertext : Bytes) : Prop := ciphertext.length ≤ Codec.maxAppPlaintext

instance : DecidablePred Fits := fun _ => inferInstanceAs (Decidable (_ ≤ _))

theorem encode_data_iff (epoch : Epoch) (seq : Sequence) (ciphertext : Bytes) (tag : Tag) :
    (∃ wire, encode (.data epoch seq (ciphertext ++ tag.val)) = .ok wire) ↔ Fits ciphertext := by
  simp [encode_eq_ok, checkCanonical, Fits, Codec.minDataField, Codec.maxDataField, Codec.maxAppPlaintext]

theorem leads_sendMsg {seq : Sequence} {ciphertext : Bytes} {tag : Tag}
    {f : Except SessionFailure Unit → Driver α}
    (fails : ∀ failure, ¬(Fits ciphertext ∧ round.send = .ok ()) → round.Leads (f (.error failure)) post)
    (sent : Fits ciphertext → round.send = .ok () → round.Leads (f (.ok ())) post) :
    round.Leads (sendMsg (.data ⟨0⟩ seq (ciphertext ++ tag.val)) >>= f) post := by
  have fits := encode_data_iff ⟨0⟩ seq ciphertext tag
  unfold sendMsg
  cases encoded : encode (.data ⟨0⟩ seq (ciphertext ++ tag.val)) with
  | error e =>
      refine fails _ fun good => ?_
      obtain ⟨wire, same⟩ := fits.mpr good.1
      simp [encoded] at same
  | ok wire =>
      have short := fits.mp ⟨wire, encoded⟩
      simp only [bind_assoc]
      refine leads_ask.mpr ?_
      cases answer : round.send with
      | error e =>
          simp only [Round.reply, answer]
          refine fails _ fun good => ?_
          simp [answer] at good
      | ok u =>
          simp only [Round.reply, answer]
          exact sent short answer

theorem leads_recvMsg {role : Role} {f : Except SessionFailure Message → Driver α}
    (fails : ∀ failure, (¬∃ wire msg, round.recv = .ok wire ∧ decode role wire = .ok msg) →
      round.Leads (f (.error failure)) post)
    (brings : ∀ wire msg, round.recv = .ok wire → decode role wire = .ok msg →
      round.Leads (f (.ok msg)) post) :
    round.Leads (recvMsg role >>= f) post := by
  unfold recvMsg
  rw [bind_assoc]
  refine leads_ask.mpr ?_
  cases came : round.recv with
  | error e =>
      simp only [Round.reply, came]
      refine fails _ ?_
      rintro ⟨wire, msg, same, -⟩
      simp [came] at same
  | ok wire =>
      simp only [Round.reply, came]
      cases decoded : decode role wire with
      | error e =>
          refine fails _ ?_
          rintro ⟨wire', msg, same, other⟩
          obtain rfl : wire = wire' := by simpa [came] using same
          simp [decoded] at other
      | ok msg => exact brings wire msg came decoded

end Rules

/-! ## Failing closed -/

/-- The session is not active, and nothing is sealed or opened on it any more. -/
structure Dead (s : Session) : Prop where
  ended : s.terminated ≠ none
  seals : ∀ mt plaintext, ∃ e, s.seal mt plaintext = pure (.error e, s)
  opens : ∀ mt seq sealed, ∃ e, s.open mt seq sealed = pure (.error e, s)

theorem dead_iff {s : Session} : Dead s ↔ s.terminated ≠ none :=
  ⟨Dead.ended, fun ended => ⟨ended, Session.seal_ended ended, Session.open_ended ended⟩⟩

/-- A driver that returned an error left a dead session. -/
def FailsClosed {α : Type} (result : Except SessionFailure α) (s : Session) : Prop :=
  ∀ failure, result = .error failure → Dead s

theorem failsClosed_ok {α : Type} {value : α} {s : Session} : FailsClosed (.ok value) s := nofun

theorem failsClosed_error {α : Type} {failure : SessionFailure} {s : Session} :
    FailsClosed (.error failure : Except SessionFailure α) s ↔ s.terminated ≠ none :=
  ⟨fun closed => (closed failure rfl).ended, fun ended _ _ => dead_iff.mpr ended⟩

def EchoLoop.FailsClosed (loop : EchoLoop) : Prop :=
  ∀ result, loop.ended = some result → Cli.FailsClosed result loop.session

/-! ### What would go well -/

/-- The session seals in this round, and it is not its last record. -/
structure SealsOn (s : Session) (round : Round) (ciphertext : Bytes) : Prop where
  active : s.terminated = none
  seals : s.Seals .data
  sealed : ∃ tag, round.encrypt = some (ciphertext, tag)
  more : s.nextSend.next ≠ none

/-- The frame of this round is opened, and its echo sealed. -/
structure EchoesOn (s : Session) (round : Round) (ciphertext : Bytes) : Prop extends
    SealsOn s round ciphertext where
  opened : ∃ wire epoch seq data, round.recv = .ok wire ∧
    decode .server wire = .ok (.data epoch seq data) ∧ s.Opens .data seq data
  decrypted : round.decrypt ≠ none

/-- An active session meets no frame that does not decode, and its echo is sent. -/
structure EchoSpared (s : Session) (round : Round) : Prop where
  decodes : s.terminated = none → ∀ wire, round.recv = .ok wire → ∃ msg, decode .server wire = .ok msg
  sends : ∀ ciphertext, EchoesOn s round ciphertext → Fits ciphertext ∧ round.send = .ok ()

/-- What an active session sealed is sent, and a frame that decodes comes back. -/
structure RoundtripSpared (s : Session) (round : Round) : Prop where
  sends : ∀ ciphertext, SealsOn s round ciphertext → Fits ciphertext ∧ round.send = .ok ()
  decodes : ∀ ciphertext, SealsOn s round ciphertext →
    ∃ wire msg, round.recv = .ok wire ∧ decode .client wire = .ok msg

section

variable {s : Session} {round : Round}

/-- The cipher answers a round once. -/
theorem SealsOn.ciphertext_eq {ciphertext other : Bytes} {tag : Tag} (seals : SealsOn s round other)
    (encrypted : round.encrypt = some (ciphertext, tag)) : ciphertext = other := by
  obtain ⟨tag', some⟩ := seals.sealed
  simp only [encrypted, Option.some.injEq, Prod.mk.injEq] at some
  exact some.1

theorem SealsOn.encrypt_ne_none {ciphertext : Bytes} (seals : SealsOn s round ciphertext) :
    round.encrypt ≠ none := by
  obtain ⟨tag, some⟩ := seals.sealed
  simp [some]

theorem coherent_sealedAfter (coherent : s.Coherent) (reply : Option (Bytes × Tag)) :
    (s.sealedAfter reply).2.Coherent := by
  cases reply with
  | none => exact Session.coherent_terminate s .authentication
  | some pair =>
      simp only [Session.sealedAfter]
      split
      · exact coherent
      · exact Session.coherent_terminate s .sequenceOverflow

/-- A sealed record is the session's last one or leaves it active. -/
theorem sealedAfter_ended (active : s.terminated = none) (pair : Bytes × Tag) :
    (s.sealedAfter (some pair)).2.terminated ≠ none ↔ s.nextSend.next = none := by
  simp only [Session.sealedAfter]
  cases next : s.nextSend.next with
  | none => simp [Session.terminate]
  | some _ => simp [active]

/-! ### The echo loop -/

/-- A session whose frame is not echoed is spared if the frame decodes. -/
theorem EchoSpared.of_not_echoes (decodes : ∀ wire, round.recv = .ok wire → ∃ msg, decode .server wire = .ok msg)
    (quiet : ∀ ciphertext, ¬EchoesOn s round ciphertext) : EchoSpared s round :=
  ⟨fun _ => decodes, fun ciphertext echoes => absurd echoes (quiet ciphertext)⟩

theorem EchoSpared.of_ended (ended : s.terminated ≠ none) : EchoSpared s round :=
  ⟨fun active => absurd active ended, fun _ echoes => absurd echoes.active ended⟩

/-- What a turn leaves: a coherent session, and a dead one where it returned an error, unless
it was not spared. -/
def EchoLoop.Spares (s : Session) (round : Round) (next : EchoLoop) : Prop :=
  next.session.Coherent ∧ (next.FailsClosed ↔ EchoSpared s round)

theorem EchoLoop.spares_dead {next : EchoLoop} (coherent : next.session.Coherent)
    (ended : next.session.terminated ≠ none) (spared : EchoSpared s round) : next.Spares s round := by
  refine ⟨coherent, iff_of_true ?_ spared⟩
  exact fun _ _ _ _ => dead_iff.mpr ended

theorem EchoLoop.spares_live {bytes : UInt64} {session : Session} {failure : SessionFailure}
    (coherent : session.Coherent) (spared : session.terminated ≠ none ↔ EchoSpared s round) :
    EchoLoop.Spares s round ⟨bytes, session, some (.error failure)⟩ := by
  refine ⟨coherent, Iff.trans ?_ spared⟩
  simp [EchoLoop.FailsClosed, failsClosed_error]

theorem EchoLoop.echo_leads {loop : EchoLoop} (coherent : loop.session.Coherent) {wire : Bytes}
    {epoch : Epoch} {seq : Sequence} {data : Bytes} (came : round.recv = .ok wire)
    (decoded : decode .server wire = .ok (.data epoch seq data)) :
    round.Leads (loop.echo seq data) (EchoLoop.Spares loop.session round) := by
  have decodes : ∀ wire', round.recv = .ok wire' → ∃ msg, decode .server wire' = .ok msg := by
    intro wire' same
    obtain rfl : wire = wire' := by simpa [came] using same
    exact ⟨_, decoded⟩
  have opens : ∀ {ciphertext}, EchoesOn loop.session round ciphertext → loop.session.Opens .data seq data := by
    intro ciphertext echoes
    obtain ⟨wire', epoch', seq', data', came', decoded', opens⟩ := echoes.opened
    obtain rfl : wire = wire' := by simpa [came] using came'
    obtain ⟨-, rfl, rfl⟩ : epoch = epoch' ∧ seq = seq' ∧ data = data' := by simpa [decoded] using decoded'
    exact opens
  refine leads_open coherent ?_ ?_ ?_
  · intro e ended
    exact spares_dead coherent ended (.of_ended ended)
  · intro e reason shut
    exact spares_dead (by simp) (by simp) (.of_not_echoes decodes fun _ echoes => shut (opens echoes))
  · intro active opened
    cases decrypted : round.decrypt with
    | none =>
        refine spares_dead (by simp) (by simp) (.of_not_echoes decodes fun _ echoes => ?_)
        exact echoes.decrypted decrypted
    | some plain =>
        let session : Session := { loop.session with
          recvLast := loop.session.recvLast.set loop.session.ctx.role.sendDirection.opposite (some seq) }
        have still : session.Coherent := coherent
        refine leads_seal still (fun e ended => absurd active ended) ?_ ?_
        · intro e reason shut
          refine spares_dead (by simp) (by simp) (.of_not_echoes decodes fun _ echoes => shut ?_)
          exact ⟨echoes.seals.paired, echoes.seals.disciplined⟩
        · intro _ seals
          cases encrypted : round.encrypt with
          | none =>
              refine spares_dead (by simp) (by simp) (.of_not_echoes decodes fun _ echoes => ?_)
              exact echoes.encrypt_ne_none encrypted
          | some pair =>
              obtain ⟨ciphertext, tag⟩ := pair
              have kept := coherent_sealedAfter still (some (ciphertext, tag))
              refine leads_sendMsg (fun failure unsent => spares_live kept ?_) fun fits sent => ?_
              · refine (sealedAfter_ended (s := session) active (ciphertext, tag)).trans ⟨fun last => ?_, fun spared => ?_⟩
                · exact .of_not_echoes decodes fun _ echoes => echoes.more last
                · by_contra more
                  refine unsent (spared.sends ciphertext ⟨⟨active, ?_, ⟨tag, encrypted⟩, more⟩, ?_, ?_⟩)
                  · exact ⟨seals.paired, seals.disciplined⟩
                  · exact ⟨wire, epoch, seq, data, came, decoded, opened⟩
                  · simp [decrypted]
              · refine ⟨kept, iff_of_true (by simp [EchoLoop.FailsClosed]) ⟨fun _ => decodes, ?_⟩⟩
                intro other echoes
                rw [← echoes.ciphertext_eq encrypted]
                exact ⟨fits, sent⟩

theorem EchoLoop.turn_leads {loop : EchoLoop} (coherent : loop.session.Coherent) (round : Round) :
    round.Leads loop.turn (EchoLoop.Spares loop.session round) := by
  refine leads_ask.mpr ?_
  simp only [Round.reply]
  cases came : round.recv with
  | error e =>
      have spared : EchoSpared loop.session round := by
        refine .of_not_echoes (by simp [came]) fun _ echoes => ?_
        obtain ⟨wire, _, _, _, some, -⟩ := echoes.opened
        simp [came] at some
      cases e with
      | closedByPeer => exact ⟨coherent, iff_of_true (by simp [EchoLoop.FailsClosed, failsClosed_ok]) spared⟩
      | _ => exact spares_dead coherent.close (Session.ended_close _) spared
  | ok wire =>
      cases decoded : decode .server wire with
      | error e =>
          simp only [decoded]
          refine spares_live coherent ⟨.of_ended, fun spared active => ?_⟩
          obtain ⟨msg, some⟩ := spared.decodes active wire came
          simp [decoded] at some
      | ok msg =>
          simp only [decoded]
          cases msg with
          | data epoch seq data => exact echo_leads coherent came decoded
          | _ =>
              refine spares_dead coherent.close (Session.ended_close _) (.of_not_echoes ?_ fun _ echoes => ?_)
              · intro wire' same
                obtain rfl : wire = wire' := by simpa [came] using same
                exact ⟨_, decoded⟩
              · obtain ⟨wire', _, _, _, same, other, -⟩ := echoes.opened
                obtain rfl : wire = wire' := by simpa [came] using same
                simp [decoded] at other

/-- A turn of a call that has not returned meets a good frame or a dead session. -/
def EchoLoop.Spared (loop : EchoLoop) (round : Round) : Prop :=
  loop.ended = none → EchoSpared loop.session round

theorem EchoLoop.step_ended {loop : EchoLoop} (ended : loop.ended ≠ none) : loop.step round = loop := by
  obtain ⟨result, some⟩ := Option.ne_none_iff_exists'.mp ended
  simp [EchoLoop.step, some]

theorem EchoLoop.run_ended {loop : EchoLoop} (ended : loop.ended ≠ none) (rounds : List Round) :
    Library.run EchoLoop.step rounds loop = loop := by
  induction rounds with
  | nil => rfl
  | cons round rest ih => rw [Library.run, step_ended ended, ih]

theorem EchoLoop.step_spares {loop : EchoLoop} (coherent : loop.session.Coherent) (live : loop.ended = none)
    (round : Round) : (loop.step round).Spares loop.session round := by
  obtain ⟨next, ran, spares⟩ := (turn_leads coherent round).run
  simpa [EchoLoop.step, live, ran] using spares

/-- A call fails closed exactly when all its turns are spared. -/
theorem EchoLoop.run_failsClosed_iff (rounds : List Round) {loop : EchoLoop}
    (coherent : loop.session.Coherent) (closed : loop.FailsClosed) :
    (Library.run EchoLoop.step rounds loop).FailsClosed ↔
      Along EchoLoop.step EchoLoop.Spared rounds loop := by
  induction rounds generalizing loop with
  | nil => exact iff_of_true closed trivial
  | cons round rest ih =>
      by_cases live : loop.ended = none
      · obtain ⟨kept, spares⟩ := step_spares coherent live round
        by_cases spared : EchoSpared loop.session round
        · have next := ih kept (spares.mpr spared)
          exact next.trans ⟨fun along => ⟨fun _ => spared, along⟩, And.right⟩
        · -- the call has returned, and later turns change nothing of it
          have open_ : ¬(loop.step round).FailsClosed := fun closed => spared (spares.mp closed)
          have ended : (loop.step round).ended ≠ none := by
            intro runs
            exact open_ fun result returned => by simp [runs] at returned
          refine iff_of_false ?_ fun along => spared (along.1 live)
          rw [Library.run, run_ended ended rest]
          exact open_
      · have same : loop.step round = loop := step_ended live
        rw [Library.run, Along, same, ih coherent closed]
        exact ⟨fun along => ⟨fun runs => absurd runs live, along⟩, And.right⟩

/-! ### The round trip -/

theorem RoundtripSpared.of_not_seals (quiet : ∀ ciphertext, ¬SealsOn s round ciphertext) :
    RoundtripSpared s round :=
  ⟨fun ciphertext seals => absurd seals (quiet ciphertext), fun ciphertext seals => absurd seals (quiet ciphertext)⟩

theorem roundtrip_leads (coherent : s.Coherent) (chunk : Bytes) (round : Round) :
    round.Leads (clientRoundtrip chunk s) fun out => FailsClosed out.1 out.2 ↔ RoundtripSpared s round := by
  refine leads_seal coherent ?_ ?_ ?_
  · intro e ended
    exact failsClosed_error.trans (iff_of_true ended (.of_not_seals fun _ seals => ended seals.active))
  · intro e reason shut
    exact failsClosed_error.trans (iff_of_true (by simp) (.of_not_seals fun _ seals => shut seals.seals))
  · intro active sealing
    cases encrypted : round.encrypt with
    | none =>
        refine failsClosed_error.trans (iff_of_true (by simp) (.of_not_seals fun _ seals => ?_))
        exact seals.encrypt_ne_none encrypted
    | some pair =>
        obtain ⟨ciphertext, tag⟩ := pair
        let sent := (s.sealedAfter (some (ciphertext, tag))).2
        have kept : sent.Coherent := coherent_sealedAfter coherent (some (ciphertext, tag))
        have last : sent.terminated ≠ none ↔ s.nextSend.next = none := sealedAfter_ended active (ciphertext, tag)
        have seals : s.nextSend.next ≠ none → SealsOn s round ciphertext := fun more =>
          ⟨active, sealing, ⟨tag, encrypted⟩, more⟩
        have quiet : s.nextSend.next = none → RoundtripSpared s round := fun none_left =>
          .of_not_seals fun _ seals => seals.more none_left
        refine leads_sendMsg (fun failure unsent => ?_) fun fits went => ?_
        · refine failsClosed_error.trans (last.trans ⟨quiet, fun spared => ?_⟩)
          by_contra more
          exact unsent (spared.sends ciphertext (seals more))
        · refine leads_recvMsg (fun failure lost => ?_) fun wire msg came decoded => ?_
          · refine failsClosed_error.trans (last.trans ⟨quiet, fun spared => ?_⟩)
            by_contra more
            exact lost (spared.decodes ciphertext (seals more))
          · have spared : RoundtripSpared s round := by
              refine ⟨fun other seals => ?_, fun _ _ => ⟨wire, msg, came, decoded⟩⟩
              rw [← seals.ciphertext_eq encrypted]
              exact ⟨fits, went⟩
            cases msg with
            | data epoch seq data =>
                refine leads_open (s := sent) kept ?_ ?_ ?_
                · intro e ended
                  exact failsClosed_error.trans (iff_of_true ended spared)
                · intro e reason _
                  exact failsClosed_error.trans (iff_of_true (by simp) spared)
                · intro _ _
                  cases round.decrypt with
                  | none => exact failsClosed_error.trans (iff_of_true (by simp) spared)
                  | some plain => exact iff_of_true failsClosed_ok spared
            | _ => exact failsClosed_error.trans (iff_of_true (Session.ended_close sent) spared)

end

/-- Whatever stream and cipher answer: a call of `server_echo_loop` fails closed exactly when no
turn finds an active session before a frame that does not decode, or with an echo that is not
sent; `client_roundtrip` exactly when it does not seal on a session that stays active, or the
record is sent and a frame comes back that decodes. -/
theorem drivers_fail_closed_iff (s : Session) (coherent : s.Coherent) :
    (∀ rounds, (run EchoLoop.step rounds (.start s)).FailsClosed ↔
      Along EchoLoop.step EchoLoop.Spared rounds (.start s)) ∧
    ∀ chunk round, ∃ result left, round.run (clientRoundtrip chunk s) = .returned (result, left) ∧
      (FailsClosed result left ↔ RoundtripSpared s round) := by
  constructor
  · intro rounds
    exact EchoLoop.run_failsClosed_iff rounds coherent (by simp [EchoLoop.FailsClosed, EchoLoop.start])
  · intro chunk round
    obtain ⟨⟨result, left⟩, ran, closed⟩ := (roundtrip_leads coherent chunk round).run
    exact ⟨result, left, ran, closed⟩

/-- The sessions after a handshake: each end sealed and opened its confirmation. -/
def established (role : Role) : Session :=
  let ctx : SessionContext := ⟨role, ⟨.replicate 16 0⟩, .zero, .replicate 16 1, .replicate 16 2⟩
  { Session.new (.replicate 64 5) ctx with
    sendSeq := PerDirection.set ⟨.zero, .zero⟩ role.sendDirection ⟨1⟩
    recvLast := PerDirection.set ⟨none, none⟩ role.sendDirection.opposite (some .zero) }

/-- A call whose deadline passes has closed its session. -/
theorem drivers_fail_closed_iff_timeout :
    (run EchoLoop.step [⟨.error .timeout, none, none, .ok ()⟩] (.start (established .server))).FailsClosed := by
  refine ((drivers_fail_closed_iff (established .server) (by simp [Session.Coherent, established, Session.new])).1
    _).mpr ⟨fun _ => ⟨by simp, fun _ echoes => ?_⟩, trivial⟩
  obtain ⟨wire, _, _, _, some, -⟩ := echoes.opened
  cases some

/-- A header of no known type ends the call of the server, and a passed deadline the one of
the client. Both return an error with their session active; on the client's the next round
trip succeeds. -/
theorem failed_drivers_leave_active_sessions :
    let tag : Tag := .replicate 16 9
    let unknown : Bytes := [0, 2, 0, 99, 0, 0, 0, 0]
    let echo : Bytes := [0, 2, 0, 6, 0, 0, 0, 33, 0, 0, 0, 0, 0, 0, 0, 0, 0, 0, 0, 1, 0, 0, 0, 17, 7] ++ tag.val
    let server := run EchoLoop.step [⟨.ok unknown, none, none, .ok ()⟩] (.start (established .server))
    ∃ client again,
      (∃ failure, server.ended = some (.error failure)) ∧ server.session.terminated = none ∧
      ¬server.FailsClosed ∧
      (⟨.error .timeout, none, some ([7], tag), .ok ()⟩ : Round).run (clientRoundtrip [5] (established .client)) =
        .returned (.error ⟨.ioError, .transport⟩, client) ∧ client.terminated = none ∧
      (⟨.ok echo, some [5], some ([7], tag), .ok ()⟩ : Round).run (clientRoundtrip [5] client) =
        .returned (.ok [5], again) := by
  intro tag unknown echo server
  have ended : server.ended = some (.error (codecFailure .unknownMsgType)) := by decide +kernel
  have active : server.session.terminated = none := by decide +kernel
  refine ⟨{ established .client with sendSeq := ⟨⟨2⟩, .zero⟩ },
    { established .client with sendSeq := ⟨⟨3⟩, .zero⟩, recvLast := ⟨none, some ⟨1⟩⟩ },
    ⟨_, ended⟩, active, fun closed => ?_, by decide +kernel, by decide +kernel, by decide +kernel⟩
  exact (closed _ ended _ rfl).ended active

end Jbuu.Cli
