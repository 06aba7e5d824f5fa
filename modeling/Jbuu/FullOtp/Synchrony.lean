/-
# FullOtp.Synchrony — data calls keep an honest pair in agreement

A send adds a frame that the other end can read once it has read what is before it
(`agrees_onSend`); a delivery takes the next frame and reads it (`agrees_onData`).
-/
import Jbuu.FullOtp.Pair

namespace Jbuu.FullOtp

set_option autoImplicit false

open Jbuu.Library.BigEndian (Bytes Exactly)
open Jbuu.Library

/-! ## What a data call leaves alone -/

/-- All that the phases look at, but for the next streams a call may have used up. -/
structure Keeps (p q : FullOtpPump) : Prop where
  nextBundleId : q.nextBundleId = p.nextBundleId
  pendingAck : q.pendingAck = p.pendingAck
  fewer : ∀ d, q.next d = p.next d ∨ q.next d = none
  acked : q.nextAcked = p.nextAcked ∨ q.nextAcked = false ∧ ∀ d, q.next d = none

theorem Keeps.refl (p : FullOtpPump) : Keeps p p where
  nextBundleId := rfl
  pendingAck := rfl
  fewer _ := .inl rfl
  acked := .inl rfl

section Moves

variable {p q : FullOtpPump} {d : Direction}

theorem Moves.next_opposite (moves : Moves p q d) : q.next d.opposite = p.next d.opposite :=
  congrArg DirPlane.next moves.plane

theorem Moves.current_opposite (moves : Moves p q d) : q.current d.opposite = p.current d.opposite :=
  congrArg DirPlane.current moves.plane

theorem Moves.keeps (moves : Moves p q d) : Keeps p q where
  nextBundleId := moves.nextBundleId
  pendingAck := moves.pendingAck
  fewer d' := by
    rcases Direction.eq_or_opposite d d' with rfl | rfl
    · exact moves.fewer
    · exact .inl moves.next_opposite
  acked := moves.acked

theorem Moves.view_opposite (moves : Moves p q d) (log : Log) :
    q.view d.opposite log = p.view d.opposite log := by
  unfold FullOtpPump.view
  rw [moves.current_opposite, moves.next_opposite, moves.seq]

theorem remaining_of_used {s : PadStream} (used : s.maxRecordLen = 0) : s.remaining ≤ macKeyLen := by
  unfold PadStream.maxRecordLen maxCiphertextLen at used
  omega

/-- A bundle is retired only when no record fits in what is left of it. -/
theorem Advances.tails {plaintext : Bytes} {s : PadStream} {next : Option PadStream}
    {room : s.Fits plaintext.length} (advances : Advances p q d plaintext s next room) :
    ∀ n ∈ tailsOf p q, n ≤ macKeyLen := by
  intro n mem
  obtain ⟨d', -, found⟩ := List.mem_filterMap.mp mem
  split at found
  · exact absurd found nofun
  rename_i changed
  obtain rfl := Option.some.inj found
  rcases Direction.eq_or_opposite d d' with rfl | rfl
  · rw [advances.current] at changed
    cases advances.stream with
    | stays => exact absurd rfl changed
    | switches _ held used => exact remaining_of_used used
  · rw [advances.moves.current_opposite] at changed
    exact absurd rfl changed

/-- The view in the direction of the record, with its log. -/
theorem Advances.view {plaintext : Bytes} {s : PadStream} {next : Option PadStream}
    {room : s.Fits plaintext.length} (advances : Advances p q d plaintext s next room) (log : Log) :
    q.view d (log.extend plaintext (q.position d)) = (p.view d log).record s next plaintext room := by
  unfold FullOtpPump.view FullOtpPump.position
  rw [advances.current, advances.next, advances.seq]
  rfl

theorem View.placed_record (v : View) (s : PadStream) (next : Option PadStream) (plaintext : Bytes)
    (room : s.Fits plaintext.length) : (v.record s next plaintext room).Placed := by
  simp [View.Placed, View.record, View.position, Log.extend]

end Moves

/-! ## Data -/

section Data

variable {σ τ : Type} {mac : MacKey → Bytes → Tag} {book : UInt64 → Bundle} {clientSide : PadSource τ}
  {level : σ → τ → Prop} {w : Pair σ τ} {phase : Phase}

/-- A phase stands where the calls only use up next streams. -/
theorem Stage.keeps {w' : Pair σ τ} (stage : Stage book clientSide level w phase)
    (server : Keeps w.server w'.server) (client : Keeps w.client w'.client)
    (held : w.server.nextAcked = false → w'.server.next .serverToClient = w.server.next .serverToClient)
    (offers_ : offers w'.flight.s2c = offers w.flight.s2c) (acks_ : acks w'.flight.c2s = acks w.flight.c2s)
    (s : w'.serverSource = w.serverSource) (t : w'.clientSource = w.clientSource) :
    Stage book clientSide level w' phase := by
  have unacked : w.server.nextAcked = false → w'.server.nextAcked = false := by
    intro before
    rcases server.acked with same | ⟨reset, -⟩
    · exact same.trans before
    · exact reset
  cases phase with
  | quiet =>
      obtain ⟨pending, number, noOffer, noAck, acked, even⟩ := stage
      refine ⟨?_, ?_, ?_, ?_, ?_, ?_⟩
      · exact server.pendingAck.trans pending
      · rw [client.nextBundleId, server.nextBundleId, number]
      · rw [offers_, noOffer]
      · rw [acks_, noAck]
      · rcases acked with yes | empty
        · exact server.acked.imp (·.trans yes) (·.2)
        · right
          intro d
          exact (server.fewer d).elim (·.trans (empty d)) id
      · rwa [s, t]
  | offered bundleId base =>
      obtain ⟨pending, number, top, offer, noAck, before, next, free, adopts⟩ := stage
      refine ⟨?_, ?_, ?_, ?_, ?_, unacked before, ?_, ?_, ?_⟩
      · exact server.pendingAck.trans pending
      · rw [client.nextBundleId, number]
      · rw [server.nextBundleId, top]
      · rw [offers_, offer]
      · rw [acks_, noAck]
      · rwa [held before]
      · exact (client.fewer _).elim (·.trans free) id
      · rwa [s, t]
  | acking bundleId =>
      obtain ⟨pending, number, noOffer, ack, before, next, even⟩ := stage
      refine ⟨?_, ?_, ?_, ?_, unacked before, ?_, ?_⟩
      · exact server.pendingAck.trans pending
      · rw [client.nextBundleId, server.nextBundleId, number]
      · rw [offers_, noOffer]
      · rw [acks_, ack]
      · rwa [held before]
      · rwa [s, t]

/-- A direction that has a next stream was not promised one. -/
theorem Stage.not_promised (stage : Stage book clientSide level w phase) {d : Direction} {n : PadStream}
    (held : (w.ends.get d).next d = some n) : phase.promise book d = none := by
  cases phase with
  | quiet => rfl
  | acking => rfl
  | offered bundleId base =>
      cases d with
      | serverToClient => rfl
      | clientToServer =>
          obtain ⟨-, -, -, -, -, -, -, free, -⟩ := stage
          exact absurd (held.symm.trans free) nofun

theorem Agrees.sendDir (agrees : Agrees mac book clientSide level w phase) (d : Direction) :
    (w.ends.get d).sendDir = d := by
  obtain ⟨client, server⟩ := agrees.role
  cases d with
  | clientToServer => exact congrArg Role.sendDirection client
  | serverToClient => exact congrArg Role.sendDirection server

theorem Agrees.recvDir (agrees : Agrees mac book clientSide level w phase) (d : Direction) :
    (w.reader d).recvDir = d := by
  have other := agrees.sendDir d.opposite
  unfold FullOtpPump.recvDir Pair.reader
  rw [other, Direction.opposite_opposite]

theorem Agrees.role_of (agrees : Agrees mac book clientSide level w phase) {ends : PerDirection FullOtpPump}
    (same : ∀ d, (ends.get d).role = (w.ends.get d).role) : ends.c2s.role = .client ∧ ends.s2c.role = .server :=
  ⟨(same .clientToServer).trans agrees.role.1, (same .serverToClient).trans agrees.role.2⟩

/-- What an event did beside the two ends' data: it added an accepted reply, and retired
bundles that were used up. -/
structure Recorded (w w' : Pair σ τ) (e : Direction) (q : FullOtpPump) : Prop where
  ends : w'.ends = w.ends.set e q
  replied : ∃ reply, reply.isOk = true ∧ w'.replies = w.replies ++ [reply]
  tails : w'.tails = w.tails ++ tailsOf (w.ends.get e) q

theorem Agrees.replied_after {w' : Pair σ τ} {e : Direction} {q : FullOtpPump}
    (agrees : Agrees mac book clientSide level w phase) (recorded : Recorded w w' e q) :
    ∀ r ∈ w'.replies, r.isOk = true := by
  obtain ⟨reply, ok, grown⟩ := recorded.replied
  intro r mem
  rw [grown] at mem
  rcases List.mem_append.mp mem with old | new
  · exact agrees.replied r old
  · rwa [List.mem_singleton.mp new]

theorem Agrees.short_after {w' : Pair σ τ} {e : Direction} {q : FullOtpPump}
    (agrees : Agrees mac book clientSide level w phase) (recorded : Recorded w w' e q)
    (few : ∀ n ∈ tailsOf (w.ends.get e) q, n ≤ macKeyLen) : ∀ n ∈ w'.tails, n ≤ macKeyLen := by
  intro n mem
  rw [recorded.tails] at mem
  rcases List.mem_append.mp mem with old | new
  · exact agrees.short n old
  · exact few n new

/-- **A record is sent**: the other end can read it once it has read what is before it. -/
theorem Agrees.sends {w' : Pair σ τ} (agrees : Agrees mac book clientSide level w phase) {d : Direction}
    {q : FullOtpPump} {part : Bytes} {s : PadStream} {next : Option PadStream} {room : s.Fits part.length}
    (advances : Advances (w.ends.get d) q d part s next room) (some_ : part ≠ [])
    (few : (w.sent.get d).positions.length + 1 < 2 ^ 64)
    (ready : next = (w.ends.get d).next d ∨ (w.ends.get d).nextReadyForSend d = true)
    (recorded : Recorded w w' d q)
    (flight : w'.flight = w.flight.set d (w.flight.get d ++
      [.data (sealWith mac s d ((w.ends.get d).seqOf d) part room).1.encode]))
    (sent : w'.sent = w.sent.set d ((w.sent.get d).extend part (q.position d)))
    (received : w'.received = w.received) (serverSource : w'.serverSource = w.serverSource)
    (clientSource : w'.clientSource = w.clientSource) :
    Agrees mac book clientSide level w' phase := by
  have ends := recorded.ends
  have moves := advances.moves
  have counted := agrees.counted d
  have roomy : ((w.ends.get d).seqOf d).toNat + 1 < 2 ^ 64 := by rwa [counted]
  have seen : ∀ d', w'.seen d' = w.seen d' := by
    intro d'
    unfold Pair.seen Pair.reader
    rw [ends, received]
    rcases Direction.eq_or_opposite d d' with rfl | rfl
    · rw [PerDirection.get_set_opposite]
    · rw [Direction.opposite_opposite, PerDirection.get_set_same]
      exact moves.view_opposite _
  constructor
  · apply agrees.role_of
    rw [ends]
    exact PerDirection.forall_set (P := fun d' (p : FullOtpPump) => p.role = (w.ends.get d').role) moves.role fun _ => rfl
  · rw [ends]
    exact PerDirection.forall_set (P := fun _ (p : FullOtpPump) => p.closed = false) moves.closed agrees.active
  · rw [ends]
    exact PerDirection.forall_set advances.laid agrees.laid
  · intro d'
    rw [seen]
    rcases Direction.eq_or_opposite d d' with rfl | rfl
    · have reads : ∀ {next'}, Taken (w.owed book phase d').current (w.owed book phase d').next s next' →
          w'.owed book phase d' = (w.owed book phase d').record s next' part room →
          Catches (Reads mac book d') (w.seen d') (w'.flight.get d') (w'.owed book phase d') := by
        intro next' stream after
        rw [flight, PerDirection.get_set_same, after]
        exact (agrees.behind d').push (.record stream part room some_ roomy)
      have view : (w'.ends.get d').view d' (w'.sent.get d') =
          ((w.ends.get d').view d' (w.sent.get d')).record s next part room := by
        rw [ends, sent, PerDirection.get_set_same, PerDirection.get_set_same]
        exact advances.view _
      have owed : w'.owed book phase d' =
          (w.owed book phase d').record s (next.or (phase.promise book d')) part room := by
        have left : (w'.ends.get d').next d' = next := by
          rw [ends, PerDirection.get_set_same]
          exact advances.next
        unfold Pair.owed
        rw [view, left]
        rfl
      have stream := advances.stream
      cases stream with
      | stays => exact reads .stays owed
      | switches n held used =>
          have free : phase.promise book d' = none := agrees.stage.not_promised held
          rw [free] at owed
          refine reads (.switches s ?_ used) owed
          show ((w.ends.get d').next d').or _ = _
          rw [held]
          rfl
    · have owed : w'.owed book phase d.opposite = w.owed book phase d.opposite := by
        unfold Pair.owed
        rw [ends, sent, PerDirection.get_set_opposite, PerDirection.get_set_opposite]
      rw [owed, flight, PerDirection.get_set_opposite]
      exact agrees.behind d.opposite
  · intro d'
    rw [seen]
    exact agrees.placed d'
  · intro d'
    rw [ends, sent]
    rcases Direction.eq_or_opposite d d' with rfl | rfl
    · rw [PerDirection.get_set_same, PerDirection.get_set_same, advances.seq]
      have grown := checkedAdd_eq_some.mp (counted_of_few roomy)
      rw [grown.2, counted]
      simp [Log.extend]
    · rw [PerDirection.get_set_opposite, PerDirection.get_set_opposite]
      exact agrees.counted d.opposite
  · have keeps : ∀ d', Keeps (w.ends.get d') (w'.ends.get d') := by
      rw [ends]
      exact PerDirection.forall_set moves.keeps fun d' => Keeps.refl _
    refine agrees.stage.keeps (keeps .serverToClient) (keeps .clientToServer) ?_ ?_ ?_ serverSource clientSource
    · intro unacked
      unfold Pair.server
      rw [ends]
      cases d with
      | clientToServer => rfl
      | serverToClient =>
          have waits : (w.ends.get .serverToClient).nextReadyForSend .serverToClient = false := by
            have role := agrees.role.2
            unfold Pair.server at role unacked
            simp [FullOtpPump.nextReadyForSend, PerDirection.get, role, unacked]
          have same := ready.resolve_right (by simp [waits])
          exact advances.next.trans same
    · rw [flight]
      cases d with
      | clientToServer => rfl
      | serverToClient => exact (offers_append _ _).trans (List.append_nil _)
    · rw [flight]
      cases d with
      | clientToServer => exact (acks_append _ _).trans (List.append_nil _)
      | serverToClient => rfl
  · exact agrees.replied_after recorded
  · exact agrees.short_after recorded advances.tails

/-- **A record is taken** by the end it was sent to. -/
theorem Agrees.takes {w' : Pair σ τ} (agrees : Agrees mac book clientSide level w phase) {d : Direction}
    {q : FullOtpPump} {part bytes : Bytes} {s : PadStream} {next : Option PadStream} {room : s.Fits part.length}
    {rest : List Frame} (head : w.flight.get d = .data bytes :: rest)
    (advances : Advances (w.reader d) q d part s next room)
    (behind : Catches (Reads mac book d) ((w.seen d).record s next part room) rest (w.owed book phase d))
    (recorded : Recorded w w' d.opposite q) (flight : w'.flight = w.flight.set d rest)
    (received : w'.received = w.received.set d ((w.received.get d).extend part (q.position d)))
    (sent : w'.sent = w.sent) (serverSource : w'.serverSource = w.serverSource)
    (clientSource : w'.clientSource = w.clientSource) :
    Agrees mac book clientSide level w' phase := by
  have ends := recorded.ends
  have moves := advances.moves
  have seen : w'.seen d = (w.seen d).record s next part room := by
    unfold Pair.seen
    rw [← advances.view]
    unfold Pair.reader
    rw [ends, received, PerDirection.get_set_same, PerDirection.get_set_same]
  have other : w'.seen d.opposite = w.seen d.opposite := by
    have kept := PerDirection.get_set_opposite w.ends d.opposite q
    unfold Pair.seen Pair.reader
    rw [ends, received, kept, PerDirection.get_set_opposite]
  have owed : ∀ d', w'.owed book phase d' = w.owed book phase d' := by
    intro d'
    unfold Pair.owed
    rw [ends, sent]
    rcases Direction.eq_or_opposite d d' with rfl | rfl
    · have kept := PerDirection.get_set_opposite w.ends d'.opposite q
      rw [Direction.opposite_opposite] at kept
      rw [kept]
    · rw [PerDirection.get_set_same, moves.view_opposite, moves.next_opposite]
      rfl
  constructor
  · apply agrees.role_of
    rw [ends]
    exact PerDirection.forall_set (P := fun d' (p : FullOtpPump) => p.role = (w.ends.get d').role) moves.role
      fun _ => rfl
  · rw [ends]
    exact PerDirection.forall_set (P := fun _ (p : FullOtpPump) => p.closed = false) moves.closed agrees.active
  · rw [ends]
    exact PerDirection.forall_set advances.laid agrees.laid
  · intro d'
    rw [owed, flight]
    rcases Direction.eq_or_opposite d d' with rfl | rfl
    · rw [seen, PerDirection.get_set_same]
      exact behind
    · rw [other, PerDirection.get_set_opposite]
      exact agrees.behind d.opposite
  · intro d'
    rcases Direction.eq_or_opposite d d' with rfl | rfl
    · rw [seen]
      exact View.placed_record _ _ _ _ _
    · rw [other]
      exact agrees.placed d.opposite
  · rw [ends, sent]
    refine PerDirection.forall_set (P := fun d' (p : FullOtpPump) => (p.seqOf d').toNat = _) ?_ agrees.counted
    rw [moves.seq]
    exact agrees.counted d.opposite
  · have keeps : ∀ d', Keeps (w.ends.get d') (w'.ends.get d') := by
      rw [ends]
      exact PerDirection.forall_set moves.keeps fun d' => Keeps.refl _
    refine agrees.stage.keeps (keeps .serverToClient) (keeps .clientToServer) ?_ ?_ ?_ serverSource clientSource
    · intro _
      unfold Pair.server
      rw [ends]
      cases d with
      | clientToServer => exact moves.next_opposite
      | serverToClient => rfl
    · rw [flight]
      cases d with
      | clientToServer => rfl
      | serverToClient =>
          have same : w.flight.s2c = .data bytes :: rest := head
          rw [same]
          rfl
    · rw [flight]
      cases d with
      | clientToServer =>
          have same : w.flight.c2s = .data bytes :: rest := head
          rw [same]
          rfl
      | serverToClient => rfl
  · exact agrees.replied_after recorded
  · exact agrees.short_after recorded advances.tails

/-- Nothing but a reply. -/
theorem Agrees.waits {w' : Pair σ τ} (agrees : Agrees mac book clientSide level w phase) (reply : PumpReply)
    (ok : reply.isOk = true) (shape : w' = { w with replies := w.replies ++ [reply] }) :
    Agrees mac book clientSide level w' phase := by
  subst shape
  obtain ⟨role, active, laid, behind, placed, counted, stage, replied, short⟩ := agrees
  refine ⟨role, active, laid, behind, placed, counted, ?_, ?_, short⟩
  · cases phase <;> exact stage
  · intro r mem
    rcases List.mem_append.mp mem with old | new
    · exact replied r old
    · rwa [List.mem_singleton.mp new]

theorem set_get {α : Type} (p : PerDirection α) (d : Direction) : p.set d (p.get d) = p := by
  cases d <;> rfl

theorem tailsOf_same {p q : FullOtpPump} (same : ∀ d, q.current d = p.current d) : tailsOf p q = [] := by
  simp [tailsOf, same]

/-- An end that changed nothing. -/
theorem settle_same {α : Type} (w : Pair σ τ) (d : Direction) (result : α) (reply : α → PumpReply) :
    w.settle d { result, pump := w.ends.get d } reply =
      { w with replies := w.replies ++ [reply result] } := by
  unfold Pair.settle
  rw [set_get, tailsOf_same fun _ => rfl, List.append_nil]

theorem agrees_onSend (agrees : Agrees mac book clientSide level w phase) {d : Direction} {plaintext : Bytes}
    (some_ : plaintext ≠ []) (few : (w.sent.get d).positions.length + 1 < 2 ^ 64) :
    Agrees mac book clientSide level (w.onSend mac d plaintext) phase := by
  have dir := agrees.sendDir d
  have seq : (w.ends.get d).sendSeq = (w.ends.get d).seqOf d := by
    have same := seqOf_sendDir (w.ends.get d)
    rw [dir] at same
    exact same.symm
  have roomy : (w.ends.get d).sendSeq.toNat + 1 < 2 ^ 64 := by
    rw [seq, agrees.counted]
    exact few
  have spec := send_spec mac (agrees.active d) (agrees.laid d) roomy some_
  rw [dir, seq] at spec
  rcases spec with ⟨stuck, -⟩ | ⟨s, next, part, room, need, filled, prefix_, result, advances, ready⟩
  · refine agrees.waits (.sent (.ok .backpressure)) rfl ?_
    unfold Pair.onSend
    rw [stuck]
    exact settle_same w d _ _
  · rw [Pair.onSend_record result]
    refine agrees.sends advances filled few ready ⟨rfl, ⟨_, ?_, rfl⟩, rfl⟩ rfl ?_ rfl rfl rfl
    · rw [result]
      rfl
    · have front : plaintext.take part.length = part := by
        rw [prefix_, List.length_take, List.take_eq_take_iff]
        omega
      dsimp only
      rw [front]

/-- What the next frame is, where it is data: a record, which its reader takes. -/
theorem Agrees.reads (agrees : Agrees mac book clientSide level w phase) {d : Direction} {bytes : Bytes}
    {rest : List Frame} (head : w.flight.get d = .data bytes :: rest) :
    ∃ (s : PadStream) (next : Option PadStream) (part : Bytes) (room : s.Fits part.length) (need : Bool),
      ((w.reader d).receive mac bytes).result = .ok ⟨part, need⟩ ∧
      Advances (w.reader d) ((w.reader d).receive mac bytes).pump d part s next room ∧
      Catches (Reads mac book d) ((w.seen d).record s next part room) rest (w.owed book phase d) := by
  have behind := agrees.behind d
  rw [head] at behind
  obtain ⟨v, reads, behind⟩ := behind.pop
  cases reads with
  | record stream plaintext room some_ few =>
      rename_i s next _
      have dir := agrees.recvDir d
      have seq : (w.reader d).recvSeq = (w.seen d).seq := by
        have same := seqOf_recvDir (w.reader d)
        rw [dir] at same
        exact same.symm
      have spec := receive_spec mac (agrees.active d.opposite) (agrees.laid d.opposite) (p := w.reader d)
        (by rw [seq]; exact few) (by rw [dir]; exact stream) some_ room
      rw [dir, seq] at spec
      obtain ⟨need, result, advances⟩ := spec
      exact ⟨s, next, plaintext, room, need, result, advances, behind⟩

theorem agrees_onData (agrees : Agrees mac book clientSide level w phase) {d : Direction} {bytes : Bytes}
    {rest : List Frame} (head : w.flight.get d = .data bytes :: rest) :
    Agrees mac book clientSide level ({ w with flight := w.flight.set d rest }.onData mac d bytes) phase := by
  obtain ⟨s, next, part, room, need, result, advances, behind⟩ := agrees.reads head
  rw [Pair.onData_ok (w := { w with flight := w.flight.set d rest }) result]
  refine agrees.takes head advances behind ⟨rfl, ⟨_, ?_, rfl⟩, rfl⟩ rfl rfl rfl rfl rfl
  exact congrArg (fun result => (PumpReply.received result).isOk) result

end Data

end Jbuu.FullOtp
