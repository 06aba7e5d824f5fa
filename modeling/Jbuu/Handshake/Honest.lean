/-
# Handshake.Honest — what two honest handshakes come to

The two handshake drivers over a channel that loses nothing, on two allocators over one book and
with nothing failing. The proof walks through one order of the steps, the one in which a process
goes on until it has to wait; by the library rule every other order comes to the same
(`Duplex.Leads.settles`). For each message there is a rule of what the driver makes of it
(`goes_clientHandshake` to `goes_clientConfirm`), over a rule of what its state machine does.

The sessions of the two ends match, and so understand each other from then on
(`matched_confirmed`, `Matched.understood`).
-/
import Jbuu.Handshake.Drivers

namespace Jbuu

set_option autoImplicit false

open Jbuu.Library.BigEndian (Bytes Exactly)
open Jbuu.Library
open Jbuu.Library.Program (wp_bind wp_mono)
open Jbuu.Allocator (IssueError TransactionCore BookFile Reservation issue_succeeds)

namespace Cli

/-! ## The issuer -/

namespace Desk

/-- The next segment of its allocator. -/
def pointer (s : Desk) : Nat := s.core.current.next.get.toNat

/-- The allocator is opened on the book, and has not halted. -/
structure Ready (sha : Bytes → Digest) (book : BookFile) (s : Desk) : Prop where
  on : s.core.On sha book
  live : s.core.halted = false

/-- After `n` segments were issued. -/
structure Issued (sha : Bytes → Digest) (book : BookFile) (n : Nat) (s s' : Desk) : Prop where
  ready : s'.Ready sha book
  pointer : s'.pointer = s.pointer + n
  consumed : s'.consumed = s.consumed ++ List.range' s.pointer n
  random : s'.random = s.random

section

variable {cipher : Cipher} {sha : Bytes → Digest} {book : BookFile} {s t u : Desk}

theorem Issued.trans {n m : Nat} (first : Issued sha book n s t) (second : Issued sha book m t u) :
    Issued sha book (n + m) s u where
  ready := second.ready
  pointer := by rw [second.pointer, first.pointer, Nat.add_assoc]
  consumed := by
    rw [second.consumed, first.consumed, first.pointer, List.append_assoc, List.range'_append_1]
  random := second.random.trans first.random

/-- One issue on an allocator that has a segment left. -/
theorem issue_ready (ready : s.Ready sha book) (left : s.pointer < book.segmentCount.toNat) :
    ∃ s', s.issue sha book = some (.ok (book.body s.core.current.next), s') ∧ Issued sha book 1 s s' := by
  obtain ⟨res, disk, ran⟩ := issue_succeeds ready.on ready.live left s.disk
  have moved : (res.commit sha).next.get.toNat = s.pointer + 1 := res.sum
  have past : (res.commit sha).next.get.toNat - s.core.current.next.get.toNat = 1 := by
    rw [moved, pointer]
    omega
  refine ⟨{ s with
      core := { s.core with current := res.commit sha }
      disk
      consumed := s.consumed ++ List.range' s.pointer 1 }, ?_, ?_, moved, rfl, rfl⟩
  · simp [issue, ran, past, pointer]
  · exact ⟨⟨ready.on.bookId, ready.on.segmentCount, res.genuine_commit ready.on⟩, ready.live⟩

theorem wp_issue {α : Type} {f : Except IssueError Segment → Host α} {post : α → Desk → Prop}
    (ready : s.Ready sha book) (left : s.pointer < book.segmentCount.toNat)
    (rest : ∀ s', Issued sha book 1 s s' →
      (f (.ok (book.body s.core.current.next))).wp (host cipher sha book) post (fun _ => False) s') :
    (askHost .issue >>= f).wp (host cipher sha book) post (fun _ => False) s := by
  obtain ⟨s', issued, after⟩ := issue_ready ready left
  intro _
  have reply : host cipher sha book .issue () s = (some (.ok (book.body s.core.current.next)), s') := by
    simp [host, answer, issued]
  rw [reply]
  exact rest s' after

/-- The gap is issued segment by segment. -/
theorem wp_issueGap {n : Nat} (ready : s.Ready sha book) (left : s.pointer + n ≤ book.segmentCount.toNat) :
    (issueGap n).wp (host cipher sha book) (fun r s' => r = .ok () ∧ Issued sha book n s s')
      (fun _ => False) s := by
  induction n generalizing s with
  | zero => exact ⟨rfl, ready, rfl, by simp, rfl⟩
  | succ n ih =>
      refine wp_issue ready (by omega) fun t first => ?_
      refine wp_mono (ih first.ready (by rw [first.pointer]; omega)) ?_ fun _ crashed => crashed
      rintro _ u ⟨rfl, later⟩
      refine ⟨rfl, ?_⟩
      rw [Nat.add_comm]
      exact first.trans later

end

end Desk

/-! ## The confirmations -/

/-- The bytes of the CONFIRM that goes in this direction. -/
def Confirms (cipher : Cipher) (segment : Segment) (ctx : SessionContext) (direction : Direction)
    (sealed : Exactly 103) : Prop :=
  ∃ ciphertext tag, sealed.val = ciphertext ++ tag.val ∧
    cipher.encrypt ((SessionKeys.split segment).keyFor direction) (recordNonce ctx.nonceDomain direction .zero)
      (ctx.buildAad (confirmType direction) direction ⟨0⟩ .zero)
      (encodeConfirmBody (sealedBody ctx.bookId ctx.segment ctx.clientNonce ctx.serverNonce direction)) =
        some (ciphertext, tag)

/-- What the peer of a session expects of its CONFIRM. -/
def expectations (ctx : SessionContext) (direction : Direction) : ConfirmExpectations where
  bookId := ctx.bookId
  segment := ctx.segment
  clientNonce := ctx.clientNonce
  serverNonce := ctx.serverNonce
  direction := direction
  msgType := confirmWire direction
  label := confirmLabel direction

@[simp] theorem direction_expectations (ctx : SessionContext) (direction : Direction) :
    (expectations ctx direction).direction = direction := rfl

section Confirmations

variable {cipher : Cipher} {sha : Bytes → Digest} {book : BookFile} {s : Desk} {session : Session}
  {segment : Segment} {direction : Direction}

/-- A session on the segment that has not ended. -/
structure Fresh (segment : Segment) (session : Session) : Prop where
  active : session.terminated = none
  held : session.keys = some (.split segment)
  domain : session.domain = session.ctx.nonceDomain

theorem fresh_new (segment : Segment) (ctx : SessionContext) : Fresh segment (.new segment ctx) := ⟨rfl, rfl, rfl⟩

theorem wp_sealConfirm_fresh (lawful : cipher.Lawful) (fresh : Fresh segment session)
    (first : session.nextSend = .zero) (own : session.ctx.role.sendDirection = direction)
    {post : Except HandshakeError Message × Session → Desk → Prop}
    (sealed : ∀ sealed, Confirms cipher segment session.ctx direction sealed →
      post (.ok (confirmMessage direction session.ctx.segment session.ctx.sessionNonce ⟨0⟩ .zero sealed),
        { session with sendSeq := session.sendSeq.set direction ⟨1⟩ }) s) :
    (sealConfirm session session.ctx.bookId session.ctx.segment session.ctx.clientNonce
      session.ctx.serverNonce direction).wp (Desk.host cipher sha book) post (fun _ => False) s := by
  refine wp_sealConfirm fresh.active fresh.held first own fun _ => ?_
  have short : (encodeConfirmBody (sealedBody session.ctx.bookId session.ctx.segment session.ctx.clientNonce
      session.ctx.serverNonce direction)).length / 64 < 2 ^ 32 - 1 := by
    rw [length_encodeConfirmBody]
    decide
  have some_ := lawful.seals ((SessionKeys.split segment).keyFor direction)
    (recordNonce session.domain direction .zero)
    (session.ctx.buildAad (confirmType direction) direction ⟨0⟩ .zero) _ short
  simp only [Desk.host, Desk.answer]
  cases encrypted : cipher.encrypt ((SessionKeys.split segment).keyFor direction)
      (recordNonce session.domain direction .zero)
      (session.ctx.buildAad (confirmType direction) direction ⟨0⟩ .zero)
      (encodeConfirmBody (sealedBody session.ctx.bookId session.ctx.segment session.ctx.clientNonce
        session.ctx.serverNonce direction)) with
  | none => exact absurd encrypted some_
  | some pair =>
      obtain ⟨ciphertext, tag⟩ := pair
      have fits : (ciphertext ++ tag.val).length = 103 := by
        rw [List.length_append, lawful.length encrypted, length_encodeConfirmBody, Exactly.length_val]
        rfl
      exact ⟨fits, sealed ⟨_, fits⟩ ⟨ciphertext, tag, rfl, by rw [← fresh.domain, encrypted]⟩⟩

theorem wp_acceptConfirm_fresh (lawful : cipher.Lawful) (fresh : Fresh segment session)
    (first : session.expected = some .zero) (own : session.ctx.role.sendDirection.opposite = direction)
    {sealed : Exactly 103} (confirms : Confirms cipher segment session.ctx direction sealed)
    {post : Except HandshakeError Session → Desk → Prop}
    (accepted : post (.ok { session with recvLast := session.recvLast.set direction (some .zero) }) s) :
    (acceptConfirm session session.ctx.segment session.ctx.sessionNonce ⟨0⟩ .zero sealed
      (expectations session.ctx direction)).wp (Desk.host cipher sha book) post (fun _ => False) s := by
  obtain ⟨ciphertext, tag, bytes, encrypted⟩ := confirms
  have outer : verifyConfirmOuter session.ctx.segment session.ctx.sessionNonce ⟨0⟩ .zero
      (expectations session.ctx direction).segment session.ctx.sessionNonce = .ok () := by
    simp [verifyConfirmOuter, expectations, Sequence.zero]
  have body : verifyConfirmBody (sealedBody session.ctx.bookId session.ctx.segment session.ctx.clientNonce
      session.ctx.serverNonce direction) (expectations session.ctx direction) = .ok () := by
    simp [verifyConfirmBody, sealedBody, expectations, Sequence.zero]
  have opens : session.Opens (confirmType direction) .zero (ciphertext ++ tag.val) := by
    refine ⟨?_, ?_, first, by simp [tagLen]⟩
    · rw [own]
      cases direction <;> rfl
    · cases direction <;> rfl
  have coherent : session.Coherent := by simp [Session.Coherent, fresh.active, fresh.held]
  unfold acceptConfirm
  rw [outer, bytes]
  dsimp only
  rw [wp_bind]
  refine Session.wp_open coherent (fun _ ended => absurd fresh.active ended)
    (fun _ _ _ shut => absurd opens shut) ?_
  intro keys _ held _ _
  obtain rfl : SessionKeys.split segment = keys := Option.some.inj (fresh.held.symm.trans held)
  simp only [Desk.host, Desk.answer, direction_expectations, splitTag_append]
  rw [own, fresh.domain, lawful.opens encrypted]
  simp only [Session.openedAfter, own]
  rw [decodeConfirmBody_encode]
  dsimp only
  rw [body]
  exact accepted

end Confirmations

/-! ## The state machines -/

/-- The session of an end that has sealed and opened a CONFIRM. -/
def confirmed (segment : Segment) (ctx : SessionContext) : Session :=
  { Session.new segment ctx with
    sendSeq := PerDirection.set ⟨.zero, .zero⟩ ctx.role.sendDirection ⟨1⟩
    recvLast := PerDirection.set ⟨none, none⟩ ctx.role.sendDirection.opposite (some .zero) }

/-- What an end of a handshake binds its session to. -/
def contextOf (role : Role) (bookId : BookId) (segment : SegmentIndex) (clientNonce serverNonce : Nonce16) :
    SessionContext :=
  { role, bookId, segment, clientNonce, serverNonce }

/-- Sixteen random bytes drawn. -/
def Desk.drawn (s : Desk) : Desk := { s with random := fun k => s.random (k + 1) }

section Machines

variable {cipher : Cipher} {sha : Bytes → Digest} {book : BookFile} {s : Desk} {i : SegmentIndex}
  {clientNonce serverNonce : Nonce16} {segment : Segment} {sealed : Exactly 103}

theorem wp_start_idle {cfg : ClientConfig} {post : Except HandshakeError Message × ClientHandshake → Desk → Prop}
    (rest : post (.ok (.hello cfg.bookId (s.random 0) cfg.localPointer ⟨0⟩),
      { ClientHandshake.idle cfg with clientNonce := some (s.random 0), phase := .helloSent }) s.drawn) :
    (ClientHandshake.idle cfg).start.wp (Desk.host cipher sha book) post (fun _ => False) s :=
  fun _ => rest

/-- What a server answers HELLO, and its machine after it. -/
def answerTo (cfg : ServerConfig) (bookId : BookId) (clientNonce : Nonce16) (clientPointer : SegmentIndex)
    (serverNonce : Nonce16) : Message × ServerHandshake :=
  { ServerHandshake.idle cfg with clientNonce := some clientNonce }.answerHello bookId clientPointer serverNonce

theorem wp_onHello_idle {cfg : ServerConfig} {bookId : BookId} {clientPointer : SegmentIndex}
    {features : FeatureFlags} {post : Except HandshakeError Message × ServerHandshake → Desk → Prop}
    (rest : post (.ok (answerTo cfg bookId clientNonce clientPointer (s.random 0)).1,
      (answerTo cfg bookId clientNonce clientPointer (s.random 0)).2) s.drawn) :
    ((ServerHandshake.idle cfg).onHello (.hello bookId clientNonce clientPointer features)).wp
      (Desk.host cipher sha book) post (fun _ => False) s :=
  fun _ => rest

section Client

variable {h : ClientHandshake} {post : Step × ClientHandshake → Desk → Prop}

theorem wp_issueAndConfirm_ready (lawful : cipher.Lawful) (agreed : h.agreed = some i)
    (client : h.clientNonce = some clientNonce) (server : h.serverNonce = some serverNonce)
    (ready : s.Ready sha book) (own : h.cfg.localPointer = s.core.current.next)
    (ahead : s.pointer ≤ i.get.toNat) (left : i.get.toNat < book.segmentCount.toNat)
    (rest : ∀ s' sealed,
      let ctx := contextOf .client h.cfg.bookId i clientNonce serverNonce
      s.Issued sha book (i.get.toNat - s.pointer + 1) s' →
      Confirms cipher (book.body i) ctx .clientToServer sealed →
      post (.send [.issueRequest i clientNonce serverNonce, .confirmC2s i ctx.sessionNonce ⟨0⟩ .zero sealed],
        { h with
          session := some { Session.new (book.body i) ctx with sendSeq := ⟨⟨1⟩, .zero⟩ }
          phase := .confirmSent }) s') :
    h.issueAndConfirm.wp (Desk.host cipher sha book) post (fun _ => False) s := by
  obtain ⟨cfg, phase, _, _, _, held, wasted⟩ := h
  dsimp only at agreed client server own
  subst agreed client server
  unfold ClientHandshake.issueAndConfirm
  have gapLength : cfg.localPointer.get.toNat = s.pointer := by rw [own, Desk.pointer]
  dsimp only
  rw [gapLength, wp_bind]
  refine wp_mono (Desk.wp_issueGap ready (by omega)) ?_ fun _ crashed => crashed
  rintro _ t ⟨rfl, gap⟩
  have here : t.pointer = i.get.toNat := by
    have moved := gap.pointer
    omega
  have next : t.core.current.next = i := congrArg SegmentIndex.mk (UInt64.toNat_inj.mp here)
  refine Desk.wp_issue gap.ready (by omega) fun u last => ?_
  rw [next]
  let session := Session.new (book.body i) (contextOf .client cfg.bookId i clientNonce serverNonce)
  show Program.wp _ _ _ (sealConfirm session session.ctx.bookId session.ctx.segment session.ctx.clientNonce
    session.ctx.serverNonce .clientToServer >>= _) u
  rw [wp_bind]
  refine wp_sealConfirm_fresh lawful (fresh_new ..) (Session.nextSend_new ..) rfl fun sealed confirms => ?_
  exact rest u sealed (gap.trans last) confirms

/-- ARBITRATE of a server that is not behind. -/
theorem wp_handle_arbitrate (lawful : cipher.Lawful) (sent : h.phase = .helloSent)
    (client : h.clientNonce = some clientNonce) {result : ArbitrateResult}
    (ready : s.Ready sha book) (own : h.cfg.localPointer = s.core.current.next)
    (verdict : result = .ok ∧ i = h.cfg.localPointer ∨ result = .serverAhead ∧ h.cfg.localPointer.get < i.get)
    (left : i.get.toNat < book.segmentCount.toNat)
    (rest : ∀ s' sealed gap,
      let ctx := contextOf .client h.cfg.bookId i clientNonce serverNonce
      s.Issued sha book (i.get.toNat - s.pointer + 1) s' →
      Confirms cipher (book.body i) ctx .clientToServer sealed →
      post (.send [.issueRequest i clientNonce serverNonce, .confirmC2s i ctx.sessionNonce ⟨0⟩ .zero sealed],
        { h with
          wastedGap := gap
          agreed := some i
          serverNonce := some serverNonce
          session := some { Session.new (book.body i) ctx with sendSeq := ⟨⟨1⟩, .zero⟩ }
          phase := .confirmSent }) s') :
    (h.handle (.arbitrate serverNonce i result)).wp (Desk.host cipher sha book) post (fun _ => False) s := by
  obtain ⟨cfg, phase, _, _, _, held, wasted⟩ := h
  dsimp only at sent client own
  subst sent client
  have mine : cfg.localPointer.get.toNat = s.pointer := by rw [own, Desk.pointer]
  unfold ClientHandshake.handle
  rcases verdict with ⟨rfl, same⟩ | ⟨rfl, below⟩
  · dsimp only at same
    subst same
    simp only [ClientHandshake.onArbitrate, ne_eq, not_true_eq_false, if_false]
    exact wp_issueAndConfirm_ready lawful rfl rfl rfl ready own (by omega) left fun s' sealed => rest s' sealed _
  · rw [UInt64.lt_iff_toNat_lt, mine] at below
    have not : ¬i.get ≤ cfg.localPointer.get := by rw [UInt64.le_iff_toNat_le, mine]; omega
    simp only [ClientHandshake.onArbitrate, not, if_false]
    exact wp_issueAndConfirm_ready lawful rfl rfl rfl ready own (by omega) left fun s' sealed => rest s' sealed _

theorem wp_handle_confirmS2c (lawful : cipher.Lawful) (sent : h.phase = .confirmSent)
    (agreed : h.agreed = some i) (client : h.clientNonce = some clientNonce)
    (server : h.serverNonce = some serverNonce) {ctx : SessionContext}
    (same : ctx = contextOf .client h.cfg.bookId i clientNonce serverNonce)
    (held : h.session = some { Session.new segment ctx with sendSeq := ⟨⟨1⟩, .zero⟩ })
    (confirms : Confirms cipher segment ctx .serverToClient sealed)
    (rest : post (.established [] (confirmed segment ctx) i, { h with session := none, phase := .established }) s) :
    (h.handle (.confirmS2c i ctx.sessionNonce ⟨0⟩ .zero sealed)).wp (Desk.host cipher sha book) post
      (fun _ => False) s := by
  obtain ⟨cfg, phase, _, _, _, _, wasted⟩ := h
  dsimp only at sent agreed client server same held
  subst sent agreed client server same held
  unfold ClientHandshake.handle
  dsimp only [ClientHandshake.onConfirmS2c]
  rw [wp_bind]
  have fresh : Fresh segment { Session.new segment (contextOf .client cfg.bookId i clientNonce serverNonce) with
      sendSeq := ⟨⟨1⟩, .zero⟩ } := ⟨rfl, rfl, rfl⟩
  refine wp_acceptConfirm_fresh lawful fresh rfl rfl confirms ?_
  exact rest

/-- The results that end a handshake, with the pointers they go with. -/
inductive Refusal (clientPointer i : SegmentIndex) (segmentCount : UInt64) :
    ArbitrateResult → HandshakeError → Prop
  | bookMismatch : Refusal clientPointer i segmentCount .bookMismatch .bookMismatch
  | exhausted (full : i.get = segmentCount) : Refusal clientPointer i segmentCount .exhausted (.exhausted i)
  | clientAhead (behind : i.get < clientPointer.get) :
      Refusal clientPointer i segmentCount .clientAhead (.clientAhead clientPointer i)

theorem wp_handle_refusal (sent : h.phase = .helloSent) {result : ArbitrateResult} {e : HandshakeError}
    (refusal : Refusal h.cfg.localPointer i h.cfg.segmentCount result e) (rest : ∀ h', post (.failed e, h') s) :
    (h.handle (.arbitrate serverNonce i result)).wp (Desk.host cipher sha book) post (fun _ => False) s := by
  obtain ⟨cfg, phase, _, _, _, held, wasted⟩ := h
  dsimp only at sent refusal
  subst sent
  unfold ClientHandshake.handle
  cases refusal with
  | bookMismatch => exact rest _
  | exhausted full =>
      simp only [ClientHandshake.onArbitrate, full, ne_eq, not_true_eq_false, if_false]
      exact rest _
  | clientAhead behind =>
      have not : ¬cfg.localPointer.get ≤ i.get := UInt64.not_le.mpr behind
      simp only [ClientHandshake.onArbitrate, not, if_false]
      exact rest _

end Client

section Server

variable {h : ServerHandshake} {post : Step × ServerHandshake → Desk → Prop}

theorem wp_onIssueRequest_ready (waits : h.phase = .issueWait) (agreed : h.agreed = some i)
    (client : h.clientNonce = some clientNonce) (server : h.serverNonce = some serverNonce)
    (ready : s.Ready sha book) (here : s.core.current.next = i) (left : s.pointer < book.segmentCount.toNat)
    (rest : ∀ s', s.Issued sha book 1 s' →
      post (.awaitPeer,
        { h with
          session := some (.new (book.body i) (contextOf .server h.cfg.bookId i clientNonce serverNonce))
          phase := .confirmWait }) s') :
    (h.onIssueRequest (.issueRequest i clientNonce serverNonce)).wp (Desk.host cipher sha book) post
      (fun _ => False) s := by
  obtain ⟨cfg, phase, _, _, _, held⟩ := h
  dsimp only at waits agreed client server
  subst waits agreed client server
  unfold ServerHandshake.onIssueRequest
  simp only [ne_eq, not_true_eq_false, if_false, or_self]
  refine Desk.wp_issue ready left fun t issued => ?_
  rw [here]
  exact rest t issued

theorem wp_onConfirm_fresh (lawful : cipher.Lawful) (waits : h.phase = .confirmWait)
    (agreed : h.agreed = some i) (client : h.clientNonce = some clientNonce)
    (server : h.serverNonce = some serverNonce) {ctx : SessionContext}
    (same : ctx = contextOf .server h.cfg.bookId i clientNonce serverNonce)
    (held : h.session = some (.new segment ctx))
    (confirms : Confirms cipher segment ctx .clientToServer sealed)
    (rest : ∀ sealed', Confirms cipher segment ctx .serverToClient sealed' →
      post (.established [.confirmS2c i ctx.sessionNonce ⟨0⟩ .zero sealed'] (confirmed segment ctx) i,
        { h with session := none, phase := .established }) s) :
    (h.onConfirm (.confirmC2s i ctx.sessionNonce ⟨0⟩ .zero sealed)).wp (Desk.host cipher sha book) post
      (fun _ => False) s := by
  obtain ⟨cfg, phase, _, _, _, _⟩ := h
  dsimp only at waits agreed client server same held
  subst waits agreed client server same held
  unfold ServerHandshake.onConfirm
  simp only [ne_eq, not_true_eq_false, if_false, ServerHandshake.confirmWith]
  rw [wp_bind]
  refine wp_acceptConfirm_fresh lawful (fresh_new ..) rfl rfl confirms ?_
  dsimp only
  rw [wp_bind]
  have fresh : Fresh segment { Session.new segment (contextOf .server cfg.bookId i clientNonce serverNonce) with
      recvLast := ⟨some .zero, none⟩ } := ⟨rfl, rfl, rfl⟩
  refine wp_sealConfirm_fresh lawful fresh rfl rfl fun sealed' back => ?_
  exact rest sealed' back

end Server

end Machines

/-! ## The drivers -/

section Drivers

open Half (Goes goes_stop)

variable {cipher : Cipher} {sha : Bytes → Digest} {book : BookFile} {s : Desk} {inbox : List Bytes}
  {post : List Bytes → Process → Prop} {i : SegmentIndex} {clientNonce serverNonce : Nonce16}

/-- The client after HELLO. -/
def greeted (ep : Endpoint) (s : Desk) : ClientHandshake :=
  { ClientHandshake.idle ⟨.v2, ep.bookId, s.core.current.next, ep.segmentCount⟩ with
    clientNonce := some (s.random 0)
    phase := .helloSent }

def helloOf (ep : Endpoint) (s : Desk) : Message := .hello ep.bookId (s.random 0) s.core.current.next ⟨0⟩

/-- `client_handshake` up to its first `recv_msg`. -/
theorem goes_clientHandshake {ep : Endpoint} {deadline : Nat}
    (rest : Goes (Desk.port cipher sha book) ⟨(clientIssue (greeted ep s)).run, s.drawn, inbox⟩
      fun later => post (frameOf (helloOf ep s) :: later)) :
    Goes (Desk.port cipher sha book) ⟨(clientHandshake ep deadline).run, s, inbox⟩ post := by
  unfold clientHandshake
  apply goes_setDeadline
  apply goes_allocatorState
  refine goes_onMachine (wp_start_idle ?_)
  exact goes_send rfl rest

def serverConfig (ep : Endpoint) (s : Desk) : ServerConfig :=
  ⟨.v2, ep.bookId, s.core.current.next, ep.segmentCount⟩

/-- `server_handshake` up to its second `recv_msg`, or to the end. -/
theorem goes_serverHandshake {ep : Endpoint} {deadline : Nat} {bookId : BookId} {clientPointer : SegmentIndex}
    {features : FeatureFlags} {answer : Message × ServerHandshake}
    (answers : answerTo (serverConfig ep s) bookId clientNonce clientPointer (s.random 0) = answer)
    (canonical : checkCanonical answer.1 = .ok ())
    (rest : Goes (Desk.port cipher sha book)
      ⟨(serverProceed answer.2 (terminal (.hello bookId clientNonce clientPointer features) answer.1)).run,
        s.drawn, inbox⟩
      fun later => post (frameOf answer.1 :: later)) :
    Goes (Desk.port cipher sha book)
      ⟨(serverHandshake ep deadline).run, s, frameOf (.hello bookId clientNonce clientPointer features) :: inbox⟩
      post := by
  subst answers
  unfold serverHandshake
  apply goes_setDeadline
  apply goes_allocatorState
  show Goes _ ⟨(serverArbitrate _).run, s, _⟩ post
  unfold serverArbitrate
  refine goes_recv rfl (by rintro _ ⟨⟩; rfl) ?_
  refine goes_onMachine (wp_onHello_idle ?_)
  exact goes_send canonical rest

/-- `client_handshake` on an ARBITRATE that ends it. -/
theorem goes_clientIssue_refusal {h : ClientHandshake} (sent : h.phase = .helloSent) {result : ArbitrateResult}
    {e : HandshakeError} (refusal : Refusal h.cfg.localPointer i h.cfg.segmentCount result e)
    (canonical : checkCanonical (.arbitrate serverNonce i result) = .ok ())
    (rest : post [] ⟨pure (.error (.ofHandshake e)), s, inbox⟩) :
    Goes (Desk.port cipher sha book)
      ⟨(clientIssue h).run, s, frameOf (.arbitrate serverNonce i result) :: inbox⟩ post := by
  unfold clientIssue
  refine goes_recv canonical (by rintro _ ⟨⟩; rfl) ?_
  exact goes_onMachine (wp_handle_refusal sent refusal fun h' => goes_stop rest)

/-- `client_handshake` from an ARBITRATE it follows to its second `recv_msg`. -/
theorem goes_clientIssue (lawful : cipher.Lawful) {h : ClientHandshake} (sent : h.phase = .helloSent)
    (client : h.clientNonce = some clientNonce) {result : ArbitrateResult} (ready : s.Ready sha book)
    (own : h.cfg.localPointer = s.core.current.next)
    (verdict : result = .ok ∧ i = h.cfg.localPointer ∨ result = .serverAhead ∧ h.cfg.localPointer.get < i.get)
    (left : i.get.toNat < book.segmentCount.toNat)
    (rest : ∀ h' s' sealed,
      let ctx := contextOf .client h.cfg.bookId i clientNonce serverNonce
      h'.cfg = h.cfg → h'.phase = .confirmSent → h'.agreed = some i → h'.clientNonce = some clientNonce →
      h'.serverNonce = some serverNonce →
      h'.session = some { Session.new (book.body i) ctx with sendSeq := ⟨⟨1⟩, .zero⟩ } →
      s.Issued sha book (i.get.toNat - s.pointer + 1) s' →
      Confirms cipher (book.body i) ctx .clientToServer sealed →
      Goes (Desk.port cipher sha book) ⟨(clientConfirm h').run, s', inbox⟩ fun later =>
        post (frameOf (.issueRequest i clientNonce serverNonce) ::
          frameOf (.confirmC2s i ctx.sessionNonce ⟨0⟩ .zero sealed) :: later)) :
    Goes (Desk.port cipher sha book)
      ⟨(clientIssue h).run, s, frameOf (.arbitrate serverNonce i result) :: inbox⟩ post := by
  unfold clientIssue
  have canonical : checkCanonical (.arbitrate serverNonce i result) = .ok () := by
    rcases verdict with ⟨rfl, -⟩ | ⟨rfl, -⟩
    · rfl
    · rfl
  refine goes_recv canonical (by rintro _ ⟨⟩; rfl) ?_
  refine goes_onMachine (wp_handle_arbitrate lawful sent client ready own verdict left ?_)
  intro s' sealed gap ctx issued confirms
  refine goes_sendAll (by simp [checkCanonical]) ?_
  exact rest _ s' sealed rfl rfl rfl client rfl rfl issued confirms

/-- `server_handshake` from ISSUE_REQUEST to its third `recv_msg`. -/
theorem goes_serverIssue {h : ServerHandshake} (waits : h.phase = .issueWait) (agreed : h.agreed = some i)
    (client : h.clientNonce = some clientNonce) (server : h.serverNonce = some serverNonce)
    (ready : s.Ready sha book) (here : s.core.current.next = i) (left : s.pointer < book.segmentCount.toNat)
    (rest : ∀ h' s', h'.cfg = h.cfg → h'.phase = .confirmWait → h'.agreed = some i →
      h'.clientNonce = some clientNonce → h'.serverNonce = some serverNonce →
      h'.session = some (.new (book.body i) (contextOf .server h.cfg.bookId i clientNonce serverNonce)) →
      s.Issued sha book 1 s' →
      Goes (Desk.port cipher sha book) ⟨(serverConfirm h').run, s', inbox⟩ post) :
    Goes (Desk.port cipher sha book)
      ⟨(serverIssue h).run, s, frameOf (.issueRequest i clientNonce serverNonce) :: inbox⟩ post := by
  unfold serverIssue
  refine goes_recv rfl (by rintro _ ⟨⟩; rfl) ?_
  refine goes_onMachine (wp_onIssueRequest_ready waits agreed client server ready here left ?_)
  intro s' issued
  exact rest _ s' rfl rfl agreed client server rfl issued

/-- `server_handshake` from CONFIRM_C2S to its end. -/
theorem goes_serverConfirm (lawful : cipher.Lawful) {h : ServerHandshake} (waits : h.phase = .confirmWait)
    (agreed : h.agreed = some i) (client : h.clientNonce = some clientNonce)
    (server : h.serverNonce = some serverNonce) {segment : Segment} {ctx : SessionContext}
    (same : ctx = contextOf .server h.cfg.bookId i clientNonce serverNonce)
    (held : h.session = some (.new segment ctx)) {sealed : Exactly 103}
    (confirms : Confirms cipher segment ctx .clientToServer sealed)
    (rest : ∀ sealed', Confirms cipher segment ctx .serverToClient sealed' →
      post [frameOf (.confirmS2c i ctx.sessionNonce ⟨0⟩ .zero sealed')]
        ⟨pure (.ok (confirmed segment ctx, ⟨i, s.core.current.generation⟩)), s, inbox⟩) :
    Goes (Desk.port cipher sha book)
      ⟨(serverConfirm h).run, s, frameOf (.confirmC2s i ctx.sessionNonce ⟨0⟩ .zero sealed) :: inbox⟩ post := by
  unfold serverConfirm
  refine goes_recv rfl (by rintro _ ⟨⟩; rfl) ?_
  refine goes_onMachine (wp_onConfirm_fresh lawful waits agreed client server same held confirms ?_)
  intro sealed' back
  refine goes_sendAll (by simp [checkCanonical]) ?_
  apply goes_allocatorState
  exact goes_stop (rest sealed' back)

/-- `client_handshake` from CONFIRM_S2C to its end. -/
theorem goes_clientConfirm (lawful : cipher.Lawful) {h : ClientHandshake} (sent : h.phase = .confirmSent)
    (agreed : h.agreed = some i) (client : h.clientNonce = some clientNonce)
    (server : h.serverNonce = some serverNonce) {segment : Segment} {ctx : SessionContext}
    (same : ctx = contextOf .client h.cfg.bookId i clientNonce serverNonce)
    (held : h.session = some { Session.new segment ctx with sendSeq := ⟨⟨1⟩, .zero⟩ }) {sealed : Exactly 103}
    (confirms : Confirms cipher segment ctx .serverToClient sealed)
    (rest : post [] ⟨pure (.ok (confirmed segment ctx, ⟨i, s.core.current.generation⟩)), s, inbox⟩) :
    Goes (Desk.port cipher sha book)
      ⟨(clientConfirm h).run, s, frameOf (.confirmS2c i ctx.sessionNonce ⟨0⟩ .zero sealed) :: inbox⟩ post := by
  unfold clientConfirm
  refine goes_recv rfl (by rintro _ ⟨⟩; rfl) ?_
  refine goes_onMachine (wp_handle_confirmS2c lawful sent agreed client server same held confirms ?_)
  apply goes_allocatorState
  exact goes_stop rest

end Drivers

/-! ## Both ends -/

/-- The allocator was asked for nothing. -/
structure Untouched (s s' : Desk) : Prop where
  core : s'.core = s.core
  disk : s'.disk = s.disk
  consumed : s'.consumed = s.consumed

theorem untouched_drawn (s : Desk) : Untouched s s.drawn := ⟨rfl, rfl, rfl⟩

/-- Both ends report the error, and no segment is gone. -/
structure Refused (failure : SessionFailure) (client server : Desk) (d : Handshakes) : Prop where
  finished : d.Finished (.error failure) (.error failure)
  client : Untouched client d.left.own
  server : Untouched server d.right.own

/-- Both ends have a session on the server's next segment, which understand each other; the client
has wasted the segments before it, and both go on after it. -/
structure Established (cipher : Cipher) (client server : Desk) (d : Handshakes) : Prop where
  sessions : ∃ session : Role → Session,
    d.Finished (.ok (session .client, ⟨server.core.current.next, d.left.own.core.current.generation⟩))
        (.ok (session .server, ⟨server.core.current.next, d.right.own.core.current.generation⟩)) ∧
      (∀ role, (session role).ctx.role = role ∧ (session role).ctx.segment = server.core.current.next) ∧
      Understood cipher session
  clientConsumed : d.left.own.consumed =
    client.consumed ++ List.range' client.pointer (server.pointer - client.pointer + 1)
  serverConsumed : d.right.own.consumed = server.consumed ++ [server.pointer]
  clientPointer : d.left.own.pointer = server.pointer + 1
  serverPointer : d.right.own.pointer = server.pointer + 1

section Both

open Half (goes_stop)
open Duplex (leads_left leads_right leads_done)

variable {cipher : Cipher} {sha : Bytes → Digest} {book : BookFile} {client server : Desk}
  {clientEp serverEp : Endpoint} {deadline : Role → Nat} {i : SegmentIndex} {result : ArbitrateResult}
  {machine : ServerHandshake}

theorem terminal_of_refusal {clientPointer : SegmentIndex} {segmentCount : UInt64} {e : HandshakeError}
    (refusal : Refusal clientPointer i segmentCount result e) (bookId : BookId)
    (clientNonce serverNonce : Nonce16) (features : FeatureFlags) :
    terminal (.hello bookId clientNonce clientPointer features) (.arbitrate serverNonce i result) = some e := by
  cases refusal with
  | bookMismatch => rfl
  | exhausted _ => rfl
  | clientAhead _ => rfl

/-- HELLO and an ARBITRATE that ends it. -/
theorem settles_refused {e : HandshakeError}
    (answers : answerTo (serverConfig serverEp server) clientEp.bookId (client.random 0)
      client.core.current.next (server.random 0) = (.arbitrate (server.random 0) i result, machine))
    (canonical : checkCanonical (.arbitrate (server.random 0) i result) = .ok ())
    (refusal : Refusal client.core.current.next i clientEp.segmentCount result e) :
    ∃ d, (Duplex.agents (Desk.port cipher sha book)).Settles
        (startHandshakes clientEp serverEp deadline client server) d ∧ Refused (.ofHandshake e) client server d := by
  apply Duplex.Leads.settles
  refine leads_left (goes_clientHandshake (goes_stop ?_))
  refine leads_right (goes_serverHandshake answers canonical ?_)
  rw [terminal_of_refusal refusal]
  refine goes_stop (leads_left (goes_clientIssue_refusal rfl refusal canonical (leads_done ?_)))
  exact ⟨⟨⟨rfl, rfl⟩, untouched_drawn client, untouched_drawn server⟩, _, _, rfl, rfl⟩

theorem matched_confirmed (segment : Segment) (ctx : SessionContext) :
    Matched (fun role => confirmed segment { ctx with role }) ctx (.split segment) where
  context _ := rfl
  domain _ := rfl
  held _ := rfl
  active _ := rfl
  expects role := by cases role <;> rfl

/-- HELLO, an ARBITRATE the client follows, and the confirmations. -/
theorem settles_established (lawful : cipher.Lawful) (clientReady : client.Ready sha book)
    (serverReady : server.Ready sha book) (agree : clientEp.bookId = serverEp.bookId)
    (answers : answerTo (serverConfig serverEp server) clientEp.bookId (client.random 0)
      client.core.current.next (server.random 0) =
        (.arbitrate (server.random 0) server.core.current.next result,
          { ServerHandshake.idle (serverConfig serverEp server) with
            clientNonce := some (client.random 0)
            serverNonce := some (server.random 0)
            agreed := some server.core.current.next
            phase := .issueWait }))
    (verdict : result = .ok ∧ server.core.current.next = client.core.current.next ∨
      result = .serverAhead ∧ client.core.current.next.get < server.core.current.next.get)
    (left : server.pointer < book.segmentCount.toNat) :
    ∃ d, (Duplex.agents (Desk.port cipher sha book)).Settles
        (startHandshakes clientEp serverEp deadline client server) d ∧ Established cipher client server d := by
  obtain ⟨bookId, clientCount⟩ := clientEp
  obtain ⟨serverBook, serverCount⟩ := serverEp
  dsimp only at agree
  subst agree
  have canonical : checkCanonical (.arbitrate (server.random 0) server.core.current.next result) = .ok () := by
    rcases verdict with ⟨rfl, -⟩ | ⟨rfl, -⟩
    · rfl
    · rfl
  have proceeds : terminal (.hello bookId (client.random 0) client.core.current.next ⟨0⟩)
      (.arbitrate (server.random 0) server.core.current.next result) = none := by
    rcases verdict with ⟨rfl, -⟩ | ⟨rfl, -⟩
    · rfl
    · rfl
  let ctx := contextOf .client bookId server.core.current.next (client.random 0) (server.random 0)
  let segment := book.body server.core.current.next
  have understood : Understood cipher fun role => confirmed segment { ctx with role } :=
    (matched_confirmed segment ctx).understood lawful
  apply Duplex.Leads.settles
  refine leads_left (goes_clientHandshake (goes_stop ?_))
  refine leads_right (goes_serverHandshake answers canonical ?_)
  rw [proceeds]
  refine goes_stop ?_
  refine leads_left (goes_clientIssue lawful rfl rfl ⟨clientReady.on, clientReady.live⟩ rfl verdict left ?_)
  intro h s sealed _ cfg sent agreed clientNonce serverNonce held clientIssued confirms
  refine goes_stop ?_
  refine leads_right (goes_serverIssue rfl rfl rfl rfl ⟨serverReady.on, serverReady.live⟩ rfl left ?_)
  intro h' t cfg' waits agreed' clientNonce' serverNonce' held' serverIssued
  refine goes_serverConfirm lawful waits agreed' clientNonce' serverNonce' (by rw [cfg']) held' confirms ?_
  intro sealed' back
  refine leads_left (goes_clientConfirm lawful sent agreed clientNonce serverNonce (by rw [cfg]) held back ?_)
  have order : client.pointer ≤ server.pointer := by
    rcases verdict with ⟨-, same⟩ | ⟨-, below⟩
    · rw [Desk.pointer, Desk.pointer, same]
    · exact (UInt64.lt_iff_toNat_lt.mp below).le
  have clientMoved : s.pointer = client.pointer + (server.pointer - client.pointer + 1) := clientIssued.pointer
  refine leads_done ⟨⟨⟨_, ⟨rfl, rfl⟩, fun role => ⟨rfl, rfl⟩, understood⟩, clientIssued.consumed,
    serverIssued.consumed, ?_, serverIssued.pointer⟩, _, _, rfl, rfl⟩
  show s.pointer = _
  omega

/-- The answer to the HELLO of another book. -/
theorem answerTo_other {cfg : ServerConfig} {bookId : BookId} (other : bookId ≠ cfg.bookId)
    (clientNonce serverNonce : Nonce16) (clientPointer : SegmentIndex) :
    answerTo cfg bookId clientNonce clientPointer serverNonce =
      (.arbitrate serverNonce .zero .bookMismatch,
        { ServerHandshake.idle cfg with clientNonce := some clientNonce, phase := .failed }) := by
  simp only [answerTo, ServerHandshake.answerHello, ServerHandshake.idle, ne_eq, other, not_false_eq_true, if_true]

/-- The answer to the HELLO of the same book is the row of the arbitration table. -/
theorem answerTo_same {cfg : ServerConfig} (clientNonce serverNonce : Nonce16) (clientPointer : SegmentIndex)
    {row : ArbitrateResult × SegmentIndex}
    (arbitrated : ServerHandshake.arbitrate cfg.localPointer clientPointer cfg.segmentCount = row) :
    answerTo cfg cfg.bookId clientNonce clientPointer serverNonce =
      (.arbitrate serverNonce row.2 row.1,
        { ServerHandshake.idle cfg with clientNonce := some clientNonce }.arbitrated serverNonce
          cfg.localPointer row.1) := by
  subst arbitrated
  simp only [answerTo, ServerHandshake.answerHello, ServerHandshake.idle, ne_eq, not_true_eq_false, if_false]

/-- The rows of the arbitration table, by the pointers. -/
theorem arbitrate_spent {sp cp : SegmentIndex} {n : UInt64} (spent : sp.get = n) :
    ServerHandshake.arbitrate sp cp n = (.exhausted, ⟨n⟩) := by
  rw [ServerHandshake.arbitrate, if_pos (UInt64.le_of_eq spent.symm)]

theorem arbitrate_ahead {sp cp : SegmentIndex} {n : UInt64} (left : sp.get < n) (ahead : sp.get < cp.get) :
    ServerHandshake.arbitrate sp cp n = (.clientAhead, sp) := by
  rw [ServerHandshake.arbitrate, if_neg (UInt64.not_le.mpr left), if_neg (UInt64.lt_asymm ahead), if_pos ahead]

theorem arbitrate_follows {sp cp : SegmentIndex} {n : UInt64} (left : sp.get < n) (behind : cp.get ≤ sp.get) :
    ∃ result, ServerHandshake.arbitrate sp cp n = (result, sp) ∧
      (result = .ok ∧ sp = cp ∨ result = .serverAhead ∧ cp.get < sp.get) := by
  rw [ServerHandshake.arbitrate, if_neg (UInt64.not_le.mpr left)]
  by_cases below : cp.get < sp.get
  · rw [if_pos below]
    exact ⟨.serverAhead, rfl, .inr ⟨rfl, below⟩⟩
  · rw [if_neg below, if_neg (UInt64.not_lt.mpr behind)]
    exact ⟨.ok, rfl, .inl ⟨rfl, congrArg SegmentIndex.mk (UInt64.le_antisymm (UInt64.not_lt.mp below) behind)⟩⟩

/-- With the book the two ends hold, whoever is scheduled when, they come to `d` and stay there. -/
def SettlesAt (cipher : Cipher) (sha : Bytes → Digest) (book : BookFile) (clientBook serverBook : BookId)
    (deadline : Role → Nat) (client server : Desk) (d : Handshakes) : Prop :=
  (Duplex.agents (Desk.port cipher sha book)).Settles
    (startHandshakes ⟨clientBook, book.segmentCount⟩ ⟨serverBook, book.segmentCount⟩ deadline client server) d

section Outcomes

variable {clientBook serverBook : BookId}

theorem settles_other_books (other : clientBook ≠ serverBook) :
    ∃ d, SettlesAt cipher sha book clientBook serverBook deadline client server d ∧
      Refused ⟨.bookMismatch, .handshake⟩ client server d :=
  settles_refused (@answerTo_other (serverConfig ⟨serverBook, book.segmentCount⟩ server) clientBook other ..) rfl
    .bookMismatch

theorem settles_spent (spent : server.core.current.next.get = book.segmentCount) :
    ∃ d, SettlesAt cipher sha book clientBook clientBook deadline client server d ∧
      Refused ⟨.exhausted, .handshake⟩ client server d :=
  settles_refused (@answerTo_same (serverConfig ⟨clientBook, book.segmentCount⟩ server) _ _ _ _
    (arbitrate_spent spent)) rfl (.exhausted rfl)

theorem settles_ahead (left : server.core.current.next.get < book.segmentCount)
    (ahead : server.core.current.next.get < client.core.current.next.get) :
    ∃ d, SettlesAt cipher sha book clientBook clientBook deadline client server d ∧
      Refused ⟨.clientAhead, .handshake⟩ client server d :=
  settles_refused (@answerTo_same (serverConfig ⟨clientBook, book.segmentCount⟩ server) _ _ _ _
    (arbitrate_ahead left ahead)) rfl (.clientAhead ahead)

theorem settles_behind (lawful : cipher.Lawful) (clientReady : client.Ready sha book)
    (serverReady : server.Ready sha book) (left : server.core.current.next.get < book.segmentCount)
    (behind : client.core.current.next.get ≤ server.core.current.next.get) :
    ∃ d, SettlesAt cipher sha book clientBook clientBook deadline client server d ∧
      Established cipher client server d := by
  obtain ⟨result, row, verdict⟩ := arbitrate_follows left behind
  have answers := @answerTo_same (serverConfig ⟨clientBook, book.segmentCount⟩ server) (client.random 0)
    (server.random 0) _ _ row
  refine settles_established lawful clientReady serverReady rfl ?_ verdict (UInt64.lt_iff_toNat_lt.mp left)
  rcases verdict with ⟨rfl, -⟩ | ⟨rfl, -⟩
  · exact answers
  · exact answers

end Outcomes

/-- Two handshakes of one book, over a channel that loses nothing, on allocators that fail at nothing:
whoever is scheduled when, they come to an end and stay there. With other book ids it is
BOOK_MISMATCH at both ends, with no segment left EXHAUSTED, with the client ahead CLIENT_AHEAD;
otherwise both have a session on the server's next segment. -/
theorem honest_handshakes_complete (lawful : cipher.Lawful) (sha : Bytes → Digest) (book : BookFile)
    (clientBook serverBook : BookId) (deadline : Role → Nat) (clientReady : client.Ready sha book)
    (serverReady : server.Ready sha book) :
    ∃ d, SettlesAt cipher sha book clientBook serverBook deadline client server d ∧
      (clientBook ≠ serverBook → Refused ⟨.bookMismatch, .handshake⟩ client server d) ∧
      (clientBook = serverBook → server.pointer = book.segmentCount.toNat →
        Refused ⟨.exhausted, .handshake⟩ client server d) ∧
      (clientBook = serverBook → server.pointer < book.segmentCount.toNat → server.pointer < client.pointer →
        Refused ⟨.clientAhead, .handshake⟩ client server d) ∧
      (clientBook = serverBook → server.pointer < book.segmentCount.toNat → client.pointer ≤ server.pointer →
        Established cipher client server d) := by
  by_cases same : clientBook = serverBook
  · subst same
    have inside : server.pointer ≤ book.segmentCount.toNat := serverReady.on.genuine.inside
    rcases inside.eq_or_lt with spent | left
    · obtain ⟨d, settles, refused⟩ := settles_spent (UInt64.toNat_inj.mp spent)
      exact ⟨d, settles, fun other => absurd rfl other, fun _ _ => refused,
        fun _ left => absurd spent left.ne, fun _ left => absurd spent left.ne⟩
    · by_cases ahead : server.pointer < client.pointer
      · obtain ⟨d, settles, refused⟩ :=
          settles_ahead (UInt64.lt_iff_toNat_lt.mpr left) (UInt64.lt_iff_toNat_lt.mpr ahead)
        exact ⟨d, settles, fun other => absurd rfl other, fun _ spent => absurd spent left.ne,
          fun _ _ _ => refused, fun _ _ behind => absurd ahead behind.not_gt⟩
      · have behind : client.pointer ≤ server.pointer := Nat.le_of_not_lt ahead
        obtain ⟨d, settles, established⟩ := settles_behind lawful clientReady serverReady
          (UInt64.lt_iff_toNat_lt.mpr left) (UInt64.le_iff_toNat_le.mpr behind)
        exact ⟨d, settles, fun other => absurd rfl other, fun _ spent => absurd spent left.ne,
          fun _ _ later => absurd later ahead, fun _ _ _ => established⟩
  · obtain ⟨d, settles, refused⟩ := settles_other_books same
    exact ⟨d, settles, fun _ => refused, fun same' => absurd same' same, fun same' => absurd same' same,
      fun same' => absurd same' same⟩

/-- A client that is one segment behind. -/
theorem honest_handshakes_complete_behind :
    let book : BookFile := ⟨⟨.replicate 16 7⟩, 2, fun _ => .replicate 64 5⟩
    let sha : Bytes → Digest := fun _ => .replicate 32 0
    let desk : AnchorRecord → Nonce16 → Desk := fun record nonce =>
      let file : Allocator.CopyState := ⟨encodeRecord sha record, []⟩
      ⟨⟨2, book.bookId, record, false⟩, ⟨file, file⟩, fun _ => nonce, []⟩
    let client : Desk := desk (.init book.bookId) (.replicate 16 1)
    let server : Desk := desk (.commit book.bookId ⟨1⟩ ⟨1⟩ (.replicate 32 0)) (.replicate 16 2)
    ∃ d, SettlesAt .chaCha20Poly1305 sha book book.bookId book.bookId (fun _ => 0) client server d ∧
      Established .chaCha20Poly1305 client server d := by
  intro book sha desk client server
  have clientReady : client.Ready sha book :=
    ⟨⟨rfl, rfl, ⟨⟨rfl, rfl⟩, rfl, by decide, by decide, by rintro _ ⟨⟩⟩⟩, rfl⟩
  have serverReady : server.Ready sha book :=
    ⟨⟨rfl, rfl, ⟨fun zero => absurd zero (by decide), rfl, by decide, by decide, by rintro _ ⟨⟩; rfl⟩⟩, rfl⟩
  obtain ⟨d, settles, -, -, -, established⟩ := honest_handshakes_complete Cipher.lawful_chaCha20Poly1305 sha book
    book.bookId book.bookId (fun _ => 0) clientReady serverReady
  exact ⟨d, settles, established rfl (by decide) (by decide)⟩

end Both

end Cli

end Jbuu
