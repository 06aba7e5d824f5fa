/-
# FullOtp.Pump — the data pump

`FullOtpPump` of `otp-fullotp/src/pump.rs`, one definition per function. Each direction has
a current pad stream and at most one next one; the server prefetches bundles, offers them
to the client and waits for its acknowledgement before it sends from one. Where a call
fails, the pump wastes all it holds and closes. `receive` returns early on a frame that
does not decode, as the code's `?` does.

As a ghost, every call returns its `Trail`: what it took from the pads, and the streams it
dropped, as they were when they were dropped.
-/
import Jbuu.FullOtp.Record

namespace Jbuu.FullOtp

set_option autoImplicit false

open Jbuu.Library.BigEndian (Bytes Exactly)
open Jbuu.Library

inductive PadControl where
  | padOffer (bundleId baseSegment : UInt64)
  | padAck (bundleId : UInt64)
  | padNeed
  | close
  deriving DecidableEq, Repr

inductive PumpAction where
  | sendPadNeed
  | sendPadOffer (bundleId baseSegment : UInt64)
  | sendPadAck (bundleId : UInt64)
  deriving DecidableEq, Repr

inductive SendOutcome where
  | record (record : OtpDataRecord) (consumedPlaintext : Nat) (needPad : Bool)
  | backpressure
  deriving DecidableEq, Repr

structure Received where
  plaintext : Bytes
  needPad : Bool
  deriving DecidableEq, Repr

structure DirPlane where
  current : PadStream
  next : Option PadStream
  deriving DecidableEq

structure FullOtpPump where
  role : Role
  planes : PerDirection DirPlane
  sendSeq : UInt64
  recvSeq : UInt64
  nextBundleId : UInt64
  /-- The server's view: the client has acknowledged the next bundle. -/
  nextAcked : Bool
  /-- The server's view: the offer that has not been acknowledged. -/
  pendingAck : Option UInt64
  sessionConsumed : PerDirection Nat
  closed : Bool
  deriving DecidableEq

/-- What a call took from the pads, and the streams it dropped. -/
structure Trail where
  uses : List Use := []
  dropped : List PadStream := []

/-- What a call returns, the pump it leaves, and its trail. -/
structure Turn (α : Type) where
  result : α
  pump : FullOtpPump
  trail : Trail := {}

def DirPlane.wasteAll (plane : DirPlane) : DirPlane := { current := plane.current.waste, next := none }

def DirPlane.streams (plane : DirPlane) : List PadStream := plane.current :: plane.next.toList

namespace FullOtpPump

def new (role : Role) (baseSegment : UInt64) (bundle0Flat : Bundle) : FullOtpPump :=
  let halves := splitBundle 0 baseSegment bundle0Flat
  { role
    planes := ⟨⟨halves.c2s, none⟩, ⟨halves.s2c, none⟩⟩
    sendSeq := 0
    recvSeq := 0
    nextBundleId := 1
    nextAcked := false
    pendingAck := none
    sessionConsumed := ⟨0, 0⟩
    closed := false }

def sendDir (p : FullOtpPump) : Direction := p.role.sendDirection

def recvDir (p : FullOtpPump) : Direction := p.sendDir.opposite

def current (p : FullOtpPump) (d : Direction) : PadStream := (p.planes.get d).current

def next (p : FullOtpPump) (d : Direction) : Option PadStream := (p.planes.get d).next

def putCurrent (p : FullOtpPump) (d : Direction) (stream : PadStream) : FullOtpPump :=
  { p with planes := p.planes.set d { p.planes.get d with current := stream } }

/-! ### Ending -/

def failWasteAll (p : FullOtpPump) : FullOtpPump :=
  { p with planes := ⟨p.planes.c2s.wasteAll, p.planes.s2c.wasteAll⟩ }

/-- The next streams, as `failWasteAll` drops them. -/
def wasted (p : FullOtpPump) : List PadStream :=
  (p.next .clientToServer).toList.map (·.waste) ++ (p.next .serverToClient).toList.map (·.waste)

/-- `fail`: everything is wasted and the pump is closed. -/
def fail (p : FullOtpPump) : FullOtpPump := { p.failWasteAll with closed := true }

def failed {α : Type} (p : FullOtpPump) (result : α) (trail : Trail) : Turn α where
  result := result
  pump := p.fail
  trail := { trail with dropped := trail.dropped ++ p.wasted }

def close (p : FullOtpPump) : Turn Unit :=
  if p.closed then { result := (), pump := p } else p.failed () {}

/-! ### Switching to the next bundle -/

def nextReadyForSend (p : FullOtpPump) (d : Direction) : Bool :=
  (p.next d).isSome && (p.role = .client || p.nextAcked)

def refreshAckStateAfterSwitch (p : FullOtpPump) : FullOtpPump :=
  if (p.next .clientToServer).isNone && (p.next .serverToClient).isNone then
    { p with nextAcked := false }
  else p

/-- `retire_into` the next stream, which leaves its place. -/
def switchTo (p : FullOtpPump) (d : Direction) (next : PadStream) : FullOtpPump :=
  let plane : DirPlane := { current := ((p.current d).retireInto next).1, next := none }
  { p with planes := p.planes.set d plane }.refreshAckStateAfterSwitch

/-- The stream `switchTo` drops. -/
def retired (p : FullOtpPump) (d : Direction) (next : PadStream) : PadStream :=
  ((p.current d).retireInto next).2

/-- The switch of `send`; `none` is backpressure. -/
def switchForSend (p : FullOtpPump) (d : Direction) : Option (FullOtpPump × List PadStream) :=
  if (p.current d).maxRecordLen = 0 then
    match p.nextReadyForSend d, p.next d with
    | true, some next => some (p.switchTo d next, [p.retired d next])
    | _, _ => none
  else some (p, [])

/-- The switch of `receive`, where the record is of the bundle after the current one;
`none` where the pump has no such bundle. -/
def switchForReceive (p : FullOtpPump) (d : Direction) (bundleId : UInt64) :
    Option (FullOtpPump × List PadStream) :=
  if bundleId = (p.current d).bundleId + 1 then
    match p.next d with
    | some next =>
        if next.bundleId = bundleId then some (p.switchTo d next, [p.retired d next]) else none
    | none => none
  else some (p, [])

/-- The three ways `send` finds room: it needs no switch, it switches, or it waits. -/
theorem switchForSend_cases (p : FullOtpPump) (d : Direction) :
    ((p.current d).maxRecordLen ≠ 0 ∧ p.switchForSend d = some (p, [])) ∨
    ((p.current d).maxRecordLen = 0 ∧ ∃ next, p.nextReadyForSend d = true ∧ p.next d = some next ∧
      p.switchForSend d = some (p.switchTo d next, [p.retired d next])) ∨
    ((p.current d).maxRecordLen = 0 ∧ p.nextReadyForSend d = false ∧ p.switchForSend d = none) := by
  unfold switchForSend
  by_cases full : (p.current d).maxRecordLen = 0
  · rw [if_pos full]
    right
    cases ready : p.nextReadyForSend d with
    | false => exact .inr ⟨full, rfl, rfl⟩
    | true =>
        cases held : p.next d with
        | none => simp [nextReadyForSend, held] at ready
        | some next => exact .inl ⟨full, next, rfl, rfl, rfl⟩
  · exact .inl ⟨full, if_neg full⟩

theorem switchForReceive_cases (p : FullOtpPump) (d : Direction) (bundleId : UInt64) :
    (bundleId ≠ (p.current d).bundleId + 1 ∧ p.switchForReceive d bundleId = some (p, [])) ∨
    (bundleId = (p.current d).bundleId + 1 ∧ ∃ next, p.next d = some next ∧ next.bundleId = bundleId ∧
      p.switchForReceive d bundleId = some (p.switchTo d next, [p.retired d next])) ∨
    (bundleId = (p.current d).bundleId + 1 ∧ (∀ next, p.next d = some next → next.bundleId ≠ bundleId) ∧
      p.switchForReceive d bundleId = none) := by
  unfold switchForReceive
  by_cases after : bundleId = (p.current d).bundleId + 1
  · rw [if_pos after]
    right
    cases held : p.next d with
    | none => exact .inr ⟨after, nofun, rfl⟩
    | some next =>
        by_cases same : next.bundleId = bundleId
        · exact .inl ⟨after, next, rfl, same, if_pos same⟩
        · refine .inr ⟨after, ?_, if_neg same⟩
          intro next' is
          rwa [← Option.some.inj is]
  · exact .inl ⟨after, if_neg after⟩

/-! ### Records -/

section Mac

variable (mac : MacKey → Bytes → Tag)

/-- The part of the plaintext that fits: `&plaintext[..l]`. -/
def part (p : FullOtpPump) (plaintext : Bytes) : Bytes :=
  plaintext.take (min plaintext.length (p.current p.sendDir).maxRecordLen)

/-- `send` from the sealing of that part on. -/
def sendRecord (p : FullOtpPump) (part : Bytes) (dropped : List PadStream) :
    Turn (Except SendError SendOutcome) :=
  let d := p.sendDir
  let l := part.length
  let sealed := sealRecord mac (p.current d) d p.sendSeq part
  let q := p.putCurrent d sealed.2.1
  match sealed.1 with
  | .error _ => q.failed (.error .internal) { uses := sealed.2.2, dropped }
  | .ok record =>
      match checkedAdd p.sendSeq 1 with
      | none => q.failed (.error .sequenceExhausted) { uses := sealed.2.2, dropped }
      | some seq =>
          { result := .ok (.record record l (q.current d).belowLowWater)
            pump :=
              { q with
                sendSeq := seq
                sessionConsumed := q.sessionConsumed.set d (q.sessionConsumed.get d + (macKeyLen + l)) }
            trail := { uses := sealed.2.2, dropped } }

def send (p : FullOtpPump) (plaintext : Bytes) : Turn (Except SendError SendOutcome) :=
  if p.closed then { result := .error .closed, pump := p }
  else if plaintext = [] then { result := .error .emptyPlaintext, pump := p }
  else
    match p.switchForSend p.sendDir with
    | none => { result := .ok .backpressure, pump := p }
    | some (p, dropped) => p.sendRecord mac (p.part plaintext) dropped

/-- What `receive` expects of a record of the current bundle. -/
def expectation (p : FullOtpPump) : OpenExpectation where
  direction := p.recvDir
  bundleId := (p.current p.recvDir).bundleId
  baseSegment := (p.current p.recvDir).baseSegment
  recordSeq := p.recvSeq

/-- `receive` from the opening on. -/
def receiveRecord (p : FullOtpPump) (frame : Bytes) (l : Nat) (dropped : List PadStream) :
    Turn (Except OtpError Received) :=
  let d := p.recvDir
  let opened := openRecord mac (p.current d) p.expectation frame
  let q := p.putCurrent d opened.2.1
  match opened.1 with
  | .error e => q.failed (.error e) { uses := opened.2.2, dropped }
  | .ok plaintext =>
      let q := { q with
        sessionConsumed := q.sessionConsumed.set d (q.sessionConsumed.get d + (macKeyLen + l)) }
      match checkedAdd p.recvSeq 1 with
      | none => q.failed (.error .closed) { uses := opened.2.2, dropped }
      | some seq =>
          { result := .ok { plaintext, needPad := (q.current d).belowLowWater }
            pump := { q with recvSeq := seq }
            trail := { uses := opened.2.2, dropped } }

def receive (p : FullOtpPump) (frame : Bytes) : Turn (Except OtpError Received) :=
  if p.closed then { result := .error .closed, pump := p }
  else
    match decode frame with
    -- The code's `?`: no `fail`, the pump stays open.
    | .error e => { result := .error (.wire e), pump := p }
    | .ok peek =>
        if peek.direction ≠ p.recvDir then p.failed (.error .direction) {}
        else
          match p.switchForReceive p.recvDir peek.bundleId with
          | none => p.failed (.error .bundle) {}
          | some (p, dropped) => p.receiveRecord mac frame peek.ciphertext.length dropped

/-- The pump after a record of `l` bytes in direction `d`, the sequence number apart. -/
def recorded (p : FullOtpPump) (d : Direction) (l : Nat) (room : (p.current d).Fits l) : FullOtpPump :=
  { p.putCurrent d ((p.current d).after l room) with
    sessionConsumed := p.sessionConsumed.set d (p.sessionConsumed.get d + (macKeyLen + l)) }

theorem current_recorded (p : FullOtpPump) (d : Direction) {l : Nat} (room : (p.current d).Fits l) :
    (p.recorded d l room).current d = (p.current d).after l room := by
  simp [current, recorded, putCurrent]

/-- **What `send` does once it has a stream**: refuse a part that is empty or does not fit,
or take a record from the stream, after which the sequence numbers may be used up. -/
theorem sendRecord_cases (mac : MacKey → Bytes → Tag) (p : FullOtpPump) (part : Bytes) (dropped : List PadStream) :
    ((part.length = 0 ∨ ¬(p.current p.sendDir).Fits part.length) ∧
      p.sendRecord mac part dropped =
        (p.putCurrent p.sendDir (p.current p.sendDir)).failed (.error .internal) { dropped }) ∨
    ∃ (room : (p.current p.sendDir).Fits part.length) (record : OtpDataRecord),
      part.length ≠ 0 ∧ record.ciphertext.length = part.length ∧
      record = (sealWith mac (p.current p.sendDir) p.sendDir p.sendSeq part room).1 ∧
      ((checkedAdd p.sendSeq 1 = none ∧
          p.sendRecord mac part dropped =
            (p.putCurrent p.sendDir ((p.current p.sendDir).after part.length room)).failed
              (.error .sequenceExhausted)
              { uses := [(p.current p.sendDir).use p.sendDir part.length], dropped }) ∨
        ∃ seq, checkedAdd p.sendSeq 1 = some seq ∧
          p.sendRecord mac part dropped =
            { result := .ok (.record record part.length
                ((p.current p.sendDir).after part.length room).belowLowWater)
              pump := { p.recorded p.sendDir part.length room with sendSeq := seq }
              trail := { uses := [(p.current p.sendDir).use p.sendDir part.length], dropped } }) := by
  unfold sendRecord
  dsimp only
  rcases sealRecord_cases mac (s := p.current p.sendDir) p.sendDir p.sendSeq part with
    ⟨why, refused⟩ | ⟨room, record, some_, long_, shape, sealed⟩
  · refine .inl ⟨why, ?_⟩
    rw [refused]
  · refine .inr ⟨room, record, some_, long_, shape, ?_⟩
    rw [sealed]
    cases next : checkedAdd p.sendSeq 1 with
    | none => exact .inl ⟨rfl, rfl⟩
    | some seq =>
        refine .inr ⟨seq, rfl, ?_⟩
        conv_rhs => rw [← current_recorded p p.sendDir room]
        rfl

/-- **What `receive` does once it has a stream**: refuse, after the key was taken at most,
or take the record from the stream, after which the sequence numbers may be used up. -/
theorem receiveRecord_cases (mac : MacKey → Bytes → Tag) (p : FullOtpPump) {frame : Bytes} {peek : OtpDataRecord}
    (decoded : decode frame = .ok peek) (dropped : List PadStream) :
    (∃ e stream uses, (∀ u ∈ uses, u.pad = .empty) ∧
      p.receiveRecord mac frame peek.ciphertext.length dropped =
        (p.putCurrent p.recvDir stream).failed (.error e) { uses, dropped }) ∨
    ∃ (room : (p.current p.recvDir).Fits peek.ciphertext.length) (plaintext : Bytes),
      plaintext.length = peek.ciphertext.length ∧
      ((checkedAdd p.recvSeq 1 = none ∧
          p.receiveRecord mac frame peek.ciphertext.length dropped =
            (p.recorded p.recvDir peek.ciphertext.length room).failed (.error .closed)
              { uses := [(p.current p.recvDir).use p.recvDir peek.ciphertext.length], dropped }) ∨
        ∃ seq, checkedAdd p.recvSeq 1 = some seq ∧
          p.receiveRecord mac frame peek.ciphertext.length dropped =
            { result := .ok { plaintext, needPad :=
                ((p.current p.recvDir).after peek.ciphertext.length room).belowLowWater }
              pump := { p.recorded p.recvDir peek.ciphertext.length room with recvSeq := seq }
              trail :=
                { uses := [(p.current p.recvDir).use p.recvDir peek.ciphertext.length], dropped } }) := by
  unfold receiveRecord
  dsimp only
  rcases openRecord_cases mac (s := p.current p.recvDir) p.expectation frame with
    ⟨e, refused, none_⟩ | ⟨r, room, plaintext, again, long_, opened⟩
  · refine .inl ⟨e, (openRecord mac (p.current p.recvDir) p.expectation frame).2.1, _, none_, ?_⟩
    rw [refused]
  · obtain rfl : peek = r := Except.ok.inj (decoded.symm.trans again)
    refine .inr ⟨room, plaintext, long_, ?_⟩
    rw [opened]
    cases next : checkedAdd p.recvSeq 1 with
    | none => exact .inl ⟨rfl, rfl⟩
    | some seq =>
        refine .inr ⟨seq, rfl, ?_⟩
        conv_rhs => rw [← current_recorded p p.recvDir room]
        rfl

end Mac

/-! ### Bundles -/

/-- Both halves of a bundle become the next streams. -/
def install (p : FullOtpPump) (bundleId baseSegment : UInt64) (flat : Bundle) : FullOtpPump :=
  let halves := splitBundle bundleId baseSegment flat
  { p with
    planes := ⟨{ p.planes.c2s with next := some halves.c2s }, { p.planes.s2c with next := some halves.s2c }⟩
    nextBundleId := p.nextBundleId + 1 }

/-- A direction still has a next stream. -/
def hasNext (p : FullOtpPump) : Bool :=
  (p.next .clientToServer).isSome || (p.next .serverToClient).isSome

section Source

variable {σ : Type} (source : PadSource σ)

def prefetch (p : FullOtpPump) (st : σ) : Turn (Except PadSourceError (Option PumpAction)) × σ :=
  match source.reserveNextBundle st with
  | (.error e, st) => (p.failed (.error e) {}, st)
  | (.ok (base, flat), st) =>
      let bundleId := p.nextBundleId
      ({ result := .ok (some (.sendPadOffer bundleId base))
         pump := { p.install bundleId base flat with nextAcked := false, pendingAck := some bundleId } },
        st)

def serverPrefetch (p : FullOtpPump) (st : σ) :
    Turn (Except PadSourceError (Option PumpAction)) × σ :=
  if p.closed then ({ result := .ok none, pump := p }, st)
  else if p.role ≠ .server then (p.failed (.error (.reserve "coordinator-must-be-server")) {}, st)
  else if p.hasNext then ({ result := .ok none, pump := p }, st)
  else p.prefetch source st

/-- The PAD_OFFER branch of `on_control`, on a client. -/
def onPadOffer (p : FullOtpPump) (bundleId baseSegment : UInt64) (st : σ) :
    Turn (Except PumpError (List PumpAction)) × σ :=
  if bundleId ≠ p.nextBundleId then (p.failed (.error (.data .bundle)) {}, st)
  else if p.hasNext then (p.failed (.error (.data .bundle)) {}, st)
  else
    match source.reserveBundleAt baseSegment st with
    | (.error e, st) => (p.failed (.error (.source e)) {}, st)
    | (.ok flat, st) =>
        ({ result := .ok [.sendPadAck bundleId], pump := p.install bundleId baseSegment flat }, st)

def onControl (p : FullOtpPump) (msg : PadControl) (st : σ) :
    Turn (Except PumpError (List PumpAction)) × σ :=
  if p.closed then ({ result := .error (.data .closed), pump := p }, st)
  else
    match msg with
    | .padNeed =>
        if p.role ≠ .server then (p.failed (.error (.data .closed)) {}, st)
        else
          let (turn, st) := p.serverPrefetch source st
          ({ turn with result := (turn.result.map Option.toList).mapError PumpError.source }, st)
    | .padOffer bundleId baseSegment =>
        if p.role ≠ .client then (p.failed (.error (.data .closed)) {}, st)
        else p.onPadOffer source bundleId baseSegment st
    | .padAck bundleId =>
        if p.role ≠ .server then (p.failed (.error (.data .closed)) {}, st)
        else if p.pendingAck ≠ some bundleId then (p.failed (.error (.data .bundle)) {}, st)
        else ({ result := .ok [], pump := { p with nextAcked := true, pendingAck := none } }, st)
    | .close => ({ p.close with result := .ok [] }, st)

end Source

end FullOtpPump

/-! ## Calls -/

inductive PumpCall where
  | send (plaintext : Bytes)
  | receive (frame : Bytes)
  | onControl (msg : PadControl)
  | serverPrefetch
  | close
  deriving DecidableEq, Repr

inductive PumpReply where
  | sent (result : Except SendError SendOutcome)
  | received (result : Except OtpError Received)
  | controlled (result : Except PumpError (List PumpAction))
  | prefetched (result : Except PadSourceError (Option PumpAction))
  | closed

def Turn.map {α β : Type} (f : α → β) (turn : Turn α) : Turn β :=
  { result := f turn.result, pump := turn.pump, trail := turn.trail }

def PumpCall.on {σ : Type} (mac : MacKey → Bytes → Tag) (source : PadSource σ) (p : FullOtpPump) (st : σ) :
    PumpCall → Turn PumpReply × σ
  | .send plaintext => ((p.send mac plaintext).map .sent, st)
  | .receive frame => ((p.receive mac frame).map .received, st)
  | .onControl msg =>
      let (turn, st) := p.onControl source msg st
      (turn.map .controlled, st)
  | .serverPrefetch =>
      let (turn, st) := p.serverPrefetch source st
      (turn.map .prefetched, st)
  | .close => (p.close.map fun _ => .closed, st)

end Jbuu.FullOtp
