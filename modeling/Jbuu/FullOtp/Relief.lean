/-
# FullOtp.Relief — when a server that waits can be relieved

A bundle covers both directions, and a prefetch is let through only when neither direction
has a next stream left. So a server whose `send` waits gets a bundle exactly when the idle
direction has taken up its own half of the last one (`backpressure_relieved_iff`), and a
stream that only goes one way sticks in its second bundle (`one_way_stream_sticks`).
-/
import Jbuu.FullOtp.Prefetch

namespace Jbuu.FullOtp

set_option autoImplicit false

open Jbuu.Library.BigEndian (Bytes Exactly)
open Jbuu.Library

section Relief

variable {σ τ : Type} (mac : MacKey → Bytes → Tag) {book : UInt64 → Bundle} (serverSide : PadSource σ)
  (clientSide : PadSource τ)

/-- The server waits for a bundle, none is on its way, and its source has one. -/
structure Waits (w : Pair σ τ) (plaintext : Bytes) : Prop where
  active : w.server.closed = false
  pending : w.server.pendingAck = none
  result : (w.server.send mac plaintext).result = .ok .backpressure
  supplied : ∃ base flat s, serverSide.reserveNextBundle w.serverSource = (.ok (base, flat), s)

/-- A send of the server. -/
def PairEvent.isServerSend : PairEvent → Bool
  | .send .serverToClient _ => true
  | _ => false

/-- A prefetch returns an offer, and however the pair goes on from there: once the
acknowledgement is processed, and before the server sends anything else, the send returns a
record. -/
def Relieved (w : Pair σ τ) (plaintext : Bytes) : Prop :=
  (∃ bundleId base, (w.server.serverPrefetch serverSide w.serverSource).1.result =
      .ok (some (.sendPadOffer bundleId base))) ∧
    ∀ later, (∀ event ∈ later, event.isServerSend = false) →
      Along (Pair.step mac serverSide clientSide) (Pair.Honest serverSide) later (w.onPrefetch serverSide) →
      let w' := run (Pair.step mac serverSide clientSide) later (w.onPrefetch serverSide)
      w'.server.pendingAck = none →
        ∃ record n need, (w'.server.send mac plaintext).result = .ok (.record record n need)

end Relief

section Server

variable {σ τ : Type} {mac : MacKey → Bytes → Tag} {book : UInt64 → Bundle} {serverSide : PadSource σ}
  {clientSide : PadSource τ} {level : σ → τ → Prop} {w : Pair σ τ} {phase : Phase}

/-- The server has a next stream to send from, acknowledged or not. -/
def Stocked (w : Pair σ τ) : Prop := (w.server.next .serverToClient).isSome = true

/-- The server's sending side is as it was. -/
structure Spares (w w' : Pair σ τ) : Prop where
  next : w'.server.next .serverToClient = w.server.next .serverToClient
  sent : w'.sent.s2c = w.sent.s2c

theorem Spares.refl (w : Pair σ τ) : Spares w w := ⟨rfl, rfl⟩

theorem hasNext_of_stocked (stocked : Stocked w) : w.server.hasNext = true := by
  unfold FullOtpPump.hasNext
  rw [stocked, Bool.or_true]

/-- What a prefetch does to a server that has a next stream. -/
theorem serverPrefetch_stocked (serverSide : PadSource σ) (agrees : Agrees mac book clientSide level w phase) (stocked : Stocked w) :
    w.server.serverPrefetch serverSide w.serverSource = ({ result := .ok none, pump := w.server }, w.serverSource) := by
  have held := hasNext_of_stocked stocked
  rcases serverPrefetch_cases serverSide (agrees.active .serverToClient) agrees.role.2 w.serverSource
      (fun free => absurd (held.symm.trans free) nofun) with ⟨-, stays⟩ | ⟨base, flat, s, free, -⟩
  · exact stays
  · exact absurd (held.symm.trans free) nofun

/-- The client's events spare the server. -/
theorem spares_onSend (plaintext : Bytes) : Spares w (w.onSend mac .clientToServer plaintext) := by
  unfold Pair.onSend
  dsimp only
  split <;> exact ⟨rfl, rfl⟩

theorem spares_onMessage (msg : PadControl) :
    Spares w (w.onMessage serverSide clientSide .serverToClient msg) := by
  unfold Pair.onMessage Pair.answered
  dsimp only
  split <;> exact ⟨rfl, rfl⟩

/-- **Only a send of the server uses its next stream.** -/
theorem spares_step {event : PairEvent} (other : event.isServerSend = false)
    (agrees : Agrees mac book clientSide level w phase) (stocked : Stocked w) :
    Spares w (Pair.step mac serverSide clientSide event w) := by
  have prefetch := serverPrefetch_stocked serverSide agrees stocked
  cases event with
  | send d plaintext =>
      cases d with
      | clientToServer => exact spares_onSend plaintext
      | serverToClient => exact absurd other nofun
  | padNeed => exact ⟨rfl, rfl⟩
  | prefetch =>
      unfold Pair.step Pair.onPrefetch
      rw [prefetch]
      exact ⟨rfl, rfl⟩
  | deliver d =>
      unfold Pair.step Pair.onDeliver
      dsimp only
      split
      · exact .refl w
      · rename_i bytes rest head
        obtain ⟨s, next, part, room, need, result, advances, -⟩ := agrees.reads head
        rw [Pair.onData_ok (w := { w with flight := w.flight.set d rest }) result]
        cases d with
        | clientToServer => exact ⟨advances.moves.next_opposite, rfl⟩
        | serverToClient => exact ⟨rfl, rfl⟩
      · rename_i msg rest head
        have behind := agrees.behind d
        rw [head] at behind
        obtain ⟨v, reads, -⟩ := behind.pop
        cases reads with
        | offer bundleId base server _ =>
            subst server
            exact ⟨(spares_onMessage (w := { w with flight := _ }) _).next,
              (spares_onMessage (w := { w with flight := _ }) _).sent⟩
        | need client =>
            subst client
            have need := onControl_need serverSide w.server w.serverSource
              (agrees.active .serverToClient) agrees.role.2
            rw [prefetch] at need
            unfold Pair.onMessage
            dsimp only [Pair.server] at need ⊢
            rw [need]
            exact ⟨rfl, rfl⟩
        | ack bundleId client =>
            subst client
            have acked := onControl_ack serverSide agrees head
            unfold Pair.onMessage
            dsimp only [Pair.server] at acked ⊢
            rw [acked]
            exact ⟨rfl, rfl⟩

/-- The server's sending side through any events but its own sends. -/
theorem spares_run (synchronised : Synchronised serverSide clientSide book level) {later : List PairEvent}
    (others : ∀ event ∈ later, event.isServerSend = false)
    (honest : Along (Pair.step mac serverSide clientSide) (Pair.Honest serverSide) later w)
    (agrees : Agrees mac book clientSide level w phase) (stocked : Stocked w) :
    let w' := run (Pair.step mac serverSide clientSide) later w
    Spares w w' ∧ ∃ phase, Agrees mac book clientSide level w' phase := by
  induction later generalizing w phase with
  | nil => exact ⟨.refl w, phase, agrees⟩
  | cons event rest ih =>
      have first : Spares w (Pair.step mac serverSide clientSide event w) :=
        spares_step (others event List.mem_cons_self) agrees stocked
      obtain ⟨phase', agrees'⟩ := agrees_step synchronised honest.1 agrees
      have stocked' : Stocked (Pair.step mac serverSide clientSide event w) := by
        unfold Stocked
        rw [first.next]
        exact stocked
      obtain ⟨spares, agreed⟩ :=
        ih (fun event mem => others event (List.mem_cons_of_mem _ mem)) honest.2 agrees' stocked'
      exact ⟨⟨spares.next.trans first.next, spares.sent.trans first.sent⟩, agreed⟩

/-- With a next stream and no offer that waits for its acknowledgement, the server may switch. -/
theorem ready_of_stocked (agrees : Agrees mac book clientSide level w phase) (stocked : Stocked w)
    (pending : w.server.pendingAck = none) : w.server.nextReadyForSend .serverToClient = true := by
  have stage := agrees.stage
  have acked : w.server.nextAcked = true := by
    cases phase with
    | quiet =>
        obtain ⟨-, -, -, -, acked | empty, -⟩ := stage
        · exact acked
        · unfold Stocked at stocked
          rw [empty] at stocked
          exact absurd stocked nofun
    | offered bundleId base => exact absurd (stage.1.symm.trans pending) nofun
    | acking bundleId => exact absurd (stage.1.symm.trans pending) nofun
  unfold FullOtpPump.nextReadyForSend
  rw [stocked, acked]
  simp

/-- The server's spec, at the pair. -/
theorem Agrees.server_send (agrees : Agrees mac book clientSide level w phase) {plaintext : Bytes}
    (some_ : plaintext ≠ []) (few : w.sent.s2c.positions.length + 1 < 2 ^ 64) :
    (w.server.send mac plaintext = { result := .ok .backpressure, pump := w.server } ∧
      (w.server.current .serverToClient).maxRecordLen = 0 ∧
      w.server.nextReadyForSend .serverToClient = false) ∨
    ∃ (s : PadStream) (next : Option PadStream) (part : Bytes) (room : s.Fits part.length) (need : Bool),
      part ≠ [] ∧ part = plaintext.take s.maxRecordLen ∧
      (w.server.send mac plaintext).result =
        .ok (.record (sealWith mac s .serverToClient (w.server.seqOf .serverToClient) part room).1
          part.length need) ∧
      Advances w.server (w.server.send mac plaintext).pump .serverToClient part s next room ∧
      (next = w.server.next .serverToClient ∨ w.server.nextReadyForSend .serverToClient = true) := by
  have dir : w.server.sendDir = .serverToClient := agrees.sendDir .serverToClient
  have seq : w.server.seqOf .serverToClient = w.server.sendSeq := by
    have same := seqOf_sendDir w.server
    rwa [dir] at same
  have roomy : w.server.sendSeq.toNat + 1 < 2 ^ 64 := by
    rw [← seq, show (w.server.seqOf .serverToClient).toNat = _ from agrees.counted .serverToClient]
    exact few
  have spec := send_spec mac (agrees.active .serverToClient) (agrees.laid .serverToClient) roomy some_
  rw [show (w.ends.get .serverToClient) = w.server from rfl, dir, ← seq] at spec
  exact spec

/-- A server that waits has no next stream of its own. -/
theorem unstocked_of_waits (agrees : Agrees mac book clientSide level w phase) {plaintext : Bytes}
    (some_ : plaintext ≠ []) (few : w.sent.s2c.positions.length + 1 < 2 ^ 64)
    (waits : Waits mac serverSide w plaintext) : w.server.next .serverToClient = none := by
  rcases agrees.server_send some_ few with
    ⟨-, -, unready⟩ | ⟨s, next, part, room, need, -, -, result, -⟩
  · cases held : w.server.next .serverToClient with
    | none => rfl
    | some n =>
        have ready := ready_of_stocked agrees (by unfold Stocked; rw [held]; rfl) waits.pending
        exact absurd (unready.symm.trans ready) nofun
  · exact absurd (result.symm.trans waits.result) nofun

/-- Where the idle direction still has its next stream, a prefetch returns nothing. -/
theorem unrelieved_of_held (agrees : Agrees mac book clientSide level w phase) {plaintext : Bytes}
    (waits : Waits mac serverSide w plaintext) (held : w.server.next .clientToServer ≠ none) :
    ¬Relieved mac serverSide clientSide w plaintext := by
  rintro ⟨⟨bundleId, base, offered⟩, -⟩
  rcases serverPrefetch_cases serverSide waits.active agrees.role.2 w.serverSource
      (fun _ => waits.supplied) with ⟨-, stays⟩ | ⟨-, -, -, free, -⟩
  · rw [stays] at offered
    exact absurd offered nofun
  · exact held (hasNext_eq_false.mp free .clientToServer)

/-- **Backpressure is relieved exactly where the idle direction has no next stream left.** -/
theorem backpressure_relieved_iff (mac : MacKey → Bytes → Tag)
    (synchronised : Synchronised serverSide clientSide book level) (base : UInt64) {s : σ} {t : τ}
    (even : level s t) (events : List PairEvent) (plaintext : Bytes)
    (honest : Along (Pair.step mac serverSide clientSide) (Pair.Honest serverSide) events (.new book base s t)) :
    let w := run (Pair.step mac serverSide clientSide) events (.new book base s t)
    plaintext ≠ [] → w.sent.s2c.positions.length + 1 < 2 ^ 64 → Waits mac serverSide w plaintext →
      (Relieved mac serverSide clientSide w plaintext ↔ w.server.next .clientToServer = none) := by
  intro w some_ few waits
  obtain ⟨phase, agrees⟩ : ∃ phase, Agrees mac book clientSide level w phase :=
    agrees_run synchronised even events honest
  have unstocked := unstocked_of_waits agrees some_ few waits
  have cases_ := serverPrefetch_cases serverSide waits.active agrees.role.2 w.serverSource
    (fun _ => waits.supplied)
  constructor
  · intro relieved
    by_contra held
    exact unrelieved_of_held agrees waits held relieved
  · intro idle
    have free : w.server.hasNext = false := by
      apply hasNext_eq_false.mpr
      intro d
      cases d with
      | clientToServer => exact idle
      | serverToClient => exact unstocked
    rcases cases_ with ⟨held, -⟩ | ⟨base, flat, s, -, reserved, grants⟩
    · exact absurd (held.symm.trans free) nofun
    refine ⟨⟨w.server.nextBundleId, base, by rw [grants]⟩, ?_⟩
    intro later others honest w' acked
    obtain ⟨phase', agrees'⟩ := agrees_onPrefetch synchronised agrees fun _ => waits.supplied
    have stocked : Stocked (w.onPrefetch serverSide) := by
      unfold Stocked Pair.onPrefetch
      rw [grants]
      rfl
    have unsent : (w.onPrefetch serverSide).sent = w.sent := by
      unfold Pair.onPrefetch
      rw [grants]
      rfl
    obtain ⟨spares, phase'', agrees''⟩ := spares_run synchronised others honest agrees' stocked
    have stocked' : Stocked w' := by
      unfold Stocked
      rw [spares.next]
      exact stocked
    have few' : w'.sent.s2c.positions.length + 1 < 2 ^ 64 := by
      rw [spares.sent, unsent]
      exact few
    rcases agrees''.server_send some_ few' with
      ⟨-, -, unready⟩ | ⟨s, next, part, room, need, -, -, result, -⟩
    · have ready := ready_of_stocked agrees'' stocked' acked
      exact absurd (unready.symm.trans ready) nofun
    · exact ⟨_, _, need, result⟩

/-! ## A stream that only goes one way -/

/-- A full record uses up its stream. -/
theorem maxRecordLen_after {s : PadStream} {plaintext part : Bytes} (room : s.Fits part.length)
    (big : maxCiphertextLen ≤ plaintext.length) (front : part = plaintext.take s.maxRecordLen) :
    (s.after part.length room).maxRecordLen = 0 := by
  have inside := s.inside
  have long_ : part.length = s.maxRecordLen := by
    rw [front, List.length_take]
    unfold PadStream.maxRecordLen
    omega
  have cursor : (s.after part.length room).cursor = s.cursor + (macKeyLen + part.length) := rfl
  unfold PadStream.maxRecordLen PadStream.remaining at *
  rw [cursor, long_]
  simp only [padHalf, macKeyLen, maxCiphertextLen] at *
  omega

/-- What a full record, or the wait for room for it, does to the server. -/
structure Drains (w w' : Pair σ τ) : Prop where
  used : (w'.server.current .serverToClient).maxRecordLen = 0
  idle : w'.server.next .clientToServer = w.server.next .clientToServer
  pending : w'.server.pendingAck = w.server.pendingAck
  source : w'.serverSource = w.serverSource
  sent : w'.sent.s2c.positions.length ≤ w.sent.s2c.positions.length + 1
  unstocked : (w.server.current .serverToClient).maxRecordLen = 0 → w'.server.next .serverToClient = none

/-- No record is taken from a stream without room. -/
theorem switched_of_used {s : PadStream} {next : Option PadStream} {plaintext part : Bytes}
    (stream : Taken (w.server.current .serverToClient) (w.server.next .serverToClient) s next)
    (filled : part ≠ []) (front : part = plaintext.take s.maxRecordLen)
    (used : (w.server.current .serverToClient).maxRecordLen = 0) :
    w.server.next .serverToClient = some s ∧ next = none := by
  cases stream with
  | stays =>
      rw [used, List.take_zero] at front
      exact absurd front filled
  | switches _ held _ => exact ⟨held, rfl⟩

theorem drains_onSend (agrees : Agrees mac book clientSide level w phase)
    (pending : w.server.pendingAck = none) (few : w.sent.s2c.positions.length + 1 < 2 ^ 64)
    {plaintext : Bytes} (big : maxCiphertextLen ≤ plaintext.length) :
    Drains w (w.onSend mac .serverToClient plaintext) := by
  have some_ : plaintext ≠ [] := by
    intro empty
    rw [empty] at big
    exact absurd big (by decide)
  rcases agrees.server_send some_ few with
    ⟨stuck, used, unready⟩ | ⟨s, next, part, room, need, filled, front, result, advances, -⟩
  · have same : w.onSend mac .serverToClient plaintext =
        { w with replies := w.replies ++ [.sent (.ok .backpressure)] } := by
      unfold Pair.onSend
      rw [show (w.ends.get .serverToClient).send mac plaintext = _ from stuck]
      exact settle_same w .serverToClient _ _
    rw [same]
    refine ⟨used, rfl, rfl, rfl, Nat.le_succ _, ?_⟩
    intro _
    show w.server.next .serverToClient = none
    cases held : w.server.next .serverToClient with
    | none => rfl
    | some n =>
        have ready := ready_of_stocked agrees (by unfold Stocked; rw [held]; rfl) pending
        exact absurd (unready.symm.trans ready) nofun
  · rw [Pair.onSend_record result]
    refine ⟨?_, advances.moves.next_opposite, advances.moves.pendingAck, rfl, ?_, ?_⟩
    · show ((w.server.send mac plaintext).pump.current .serverToClient).maxRecordLen = 0
      rw [advances.current]
      exact maxRecordLen_after room big front
    · simp [PerDirection.set, PerDirection.get, Log.extend]
    · intro used
      exact advances.next.trans (switched_of_used advances.stream filled front used).2

/-- **A stream that only goes one way sticks**: two full records after a bundle was
acknowledged that the other direction does not take up, every further send waits. -/
theorem one_way_stream_sticks (agrees : Agrees mac book clientSide level w phase)
    (pending : w.server.pendingAck = none) (few : w.sent.s2c.positions.length + 3 < 2 ^ 64)
    {first second third : Bytes} (bigFirst : maxCiphertextLen ≤ first.length)
    (bigSecond : maxCiphertextLen ≤ second.length) (some_ : third ≠ []) :
    let w' := (w.onSend mac .serverToClient first).onSend mac .serverToClient second
    (w'.server.send mac third).result = .ok .backpressure ∧ w'.server.pendingAck = none ∧
      w'.server.closed = false ∧ w'.server.next .clientToServer = w.server.next .clientToServer ∧
      w'.serverSource = w.serverSource ∧
      w'.sent.s2c.positions.length ≤ w.sent.s2c.positions.length + 2 := by
  intro w'
  have nonempty : ∀ {plaintext : Bytes}, maxCiphertextLen ≤ plaintext.length → plaintext ≠ [] := by
    intro plaintext big empty
    rw [empty] at big
    exact absurd big (by decide)
  have one := drains_onSend agrees pending (by omega) bigFirst
  have agreesOne := agrees_onSend (d := .serverToClient) agrees (nonempty bigFirst)
    (show w.sent.s2c.positions.length + 1 < 2 ^ 64 by omega)
  have fewOne : (w.onSend mac .serverToClient first).sent.s2c.positions.length + 2 < 2 ^ 64 := by
    have grown := one.sent
    omega
  have pendingOne := one.pending.trans pending
  have two := drains_onSend agreesOne pendingOne (by omega) bigSecond
  have agreesTwo := agrees_onSend (d := .serverToClient) agreesOne (nonempty bigSecond)
    (show (w.onSend mac .serverToClient first).sent.s2c.positions.length + 1 < 2 ^ 64 by omega)
  have grown : w'.sent.s2c.positions.length ≤ w.sent.s2c.positions.length + 2 :=
    two.sent.trans (Nat.succ_le_succ one.sent)
  have fewTwo : w'.sent.s2c.positions.length + 1 < 2 ^ 64 := by omega
  have empty : w'.server.next .serverToClient = none := two.unstocked one.used
  refine ⟨?_, two.pending.trans pendingOne, agreesTwo.active .serverToClient, two.idle.trans one.idle,
    two.source.trans one.source, grown⟩
  rcases agreesTwo.server_send some_ fewTwo with
    ⟨stuck, -⟩ | ⟨s, next, part, room, need, filled, front, -, advances, -⟩
  · exact congrArg Turn.result stuck
  · obtain ⟨held, -⟩ := switched_of_used advances.stream filled front two.used
    exact absurd (empty.symm.trans held) nofun

end Server

/-! ### A server that only talks -/

/-- 4064 bytes: the longest record. -/
def fullRecord : Bytes := .replicate maxCiphertextLen 65

/-- A bundle is offered, adopted and acknowledged. -/
def exchange : List PairEvent := [.prefetch, .deliver .serverToClient, .deliver .clientToServer]

/-- Then the server sends two full records. -/
def oneWay : List PairEvent :=
  exchange ++ [.send .serverToClient fullRecord, .send .serverToClient fullRecord]

def exchanged : Pair UInt64 UInt64 :=
  run (Pair.step zeroMac (pointerBook sevens) (pointerBook sevens)) exchange (.new sevens 1 129 129)

def oneWayPair : Pair UInt64 UInt64 :=
  run (Pair.step zeroMac (pointerBook sevens) (pointerBook sevens)) oneWay (.new sevens 1 129 129)

theorem big_fullRecord : maxCiphertextLen ≤ fullRecord.length := by
  unfold fullRecord
  rw [List.length_replicate]

theorem fullRecord_ne : fullRecord ≠ [] := by
  intro empty
  have big := big_fullRecord
  rw [empty] at big
  exact absurd big (by decide)

theorem honest_exchanged : Along (Pair.step zeroMac (pointerBook sevens) (pointerBook sevens))
    (Pair.Honest (pointerBook sevens)) (exchange) (.new sevens 1 129 129) :=
  ⟨fun _ => ⟨_, _, _, rfl⟩, trivial, fun _ _ => ⟨_, _, _, rfl⟩, trivial⟩

theorem agrees_exchanged : ∃ phase, Agrees zeroMac sevens (pointerBook sevens) Eq exchanged phase :=
  agrees_run (synchronised_pointerBook sevens) rfl (exchange) honest_exchanged

theorem unsent_exchanged : exchanged.sent.s2c.positions.length = 0 := rfl

theorem pending_exchanged : exchanged.server.pendingAck = none := rfl

theorem idle_exchanged : (exchanged.server.next .clientToServer).isSome = true := rfl

theorem step_send (w : Pair UInt64 UInt64) (plaintext : Bytes) :
    Pair.step zeroMac (pointerBook sevens) (pointerBook sevens) (.send .serverToClient plaintext) w =
      w.onSend zeroMac .serverToClient plaintext := rfl

theorem oneWayPair_eq : oneWayPair =
    (exchanged.onSend zeroMac .serverToClient fullRecord).onSend zeroMac .serverToClient fullRecord := by
  unfold oneWayPair oneWay
  rw [run_append, run, run, run, step_send, step_send, exchanged]

theorem honest_oneWay : Along (Pair.step zeroMac (pointerBook sevens) (pointerBook sevens))
    (Pair.Honest (pointerBook sevens)) oneWay (.new sevens 1 129 129) := by
  obtain ⟨phase, agrees⟩ := agrees_exchanged
  have first : exchanged.sent.s2c.positions.length + 1 < 2 ^ 64 := by
    rw [unsent_exchanged]
    decide
  have one := drains_onSend agrees pending_exchanged first big_fullRecord
  have second : (exchanged.onSend zeroMac .serverToClient fullRecord).sent.s2c.positions.length + 1 < 2 ^ 64 := by
    have grown := one.sent
    rw [unsent_exchanged] at grown
    omega
  refine (Along.append _).mpr ⟨honest_exchanged, ?_⟩
  rw [show run _ exchange _ = exchanged from rfl, Along, Along, step_send]
  simp only [Pair.Honest, PerDirection.get]
  exact ⟨⟨fullRecord_ne, first⟩, ⟨fullRecord_ne, second⟩, trivial⟩

theorem agrees_oneWay : ∃ phase, Agrees zeroMac sevens (pointerBook sevens) Eq oneWayPair phase :=
  agrees_run (synchronised_pointerBook sevens) rfl oneWay honest_oneWay

/-- The server waits, its source has a bundle, and the client has not taken up its half of
the last one. -/
theorem waits_oneWay : Waits zeroMac (pointerBook sevens) oneWayPair [66] ∧
    oneWayPair.server.next .clientToServer ≠ none ∧ oneWayPair.sent.s2c.positions.length + 1 < 2 ^ 64 := by
  obtain ⟨phase, agrees⟩ := agrees_exchanged
  have few : exchanged.sent.s2c.positions.length + 3 < 2 ^ 64 := by
    rw [unsent_exchanged]
    decide
  have one : ([66] : Bytes) ≠ [] := nofun
  obtain ⟨waits, pending, active, idle, source, grown⟩ := one_way_stream_sticks agrees pending_exchanged few
    big_fullRecord big_fullRecord one
  rw [← oneWayPair_eq] at waits pending active idle source grown
  rw [unsent_exchanged] at grown
  refine ⟨⟨active, pending, waits, _, _, _, rfl⟩, ?_, by omega⟩
  rw [idle]
  intro none_
  have some_ := idle_exchanged
  rw [none_] at some_
  exact absurd some_ nofun

theorem backpressure_relieved_iff_oneWay :
    Waits zeroMac (pointerBook sevens) oneWayPair [66] ∧
      (Relieved zeroMac (pointerBook sevens) (pointerBook sevens) oneWayPair [66] ↔
        oneWayPair.server.next .clientToServer = none) := by
  obtain ⟨waits, -, few⟩ := waits_oneWay
  unfold oneWayPair at *
  exact ⟨waits, backpressure_relieved_iff zeroMac (synchronised_pointerBook sevens) 1 rfl oneWay [66]
    honest_oneWay nofun few waits⟩

/-- **The stream sticks though the source has a bundle**: no prefetch is let through. -/
theorem one_way_stream_is_not_relieved :
    Along (Pair.step zeroMac (pointerBook sevens) (pointerBook sevens)) (Pair.Honest (pointerBook sevens)) oneWay
        (.new sevens 1 129 129) ∧
      Waits zeroMac (pointerBook sevens) oneWayPair [66] ∧
      ¬Relieved zeroMac (pointerBook sevens) (pointerBook sevens) oneWayPair [66] := by
  obtain ⟨waits, held, -⟩ := waits_oneWay
  obtain ⟨phase, agrees⟩ := agrees_oneWay
  exact ⟨honest_oneWay, waits, unrelieved_of_held agrees waits held⟩

end Jbuu.FullOtp
