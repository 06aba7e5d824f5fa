/-
# Station.Handshakes — what one handshake takes and leaves

`server_handshake` and `client_handshake` on the ground of a station, with every answer and every
loss the adversary's. While a driver runs, nothing else touches the allocator. It issues segments
(one at the server, at the client those of the gap and one more), keys one session with the last of
them, and asks the cipher for at most one encryption, the CONFIRM.

`Handed` says how a driver that returns ends: in every case with what it took gone for good
(`Spent`), and where it hands over a session, with that session keyed by the segment it names, a
segment that this handshake took, at sequence 1 and with the one nonce before it used.
-/
import Jbuu.Station.Ground

namespace Jbuu.Station

set_option autoImplicit false

open Jbuu.Library.BigEndian (Bytes Exactly)
open Jbuu.Library
open Jbuu.Library.Program (call wp_bind wp_mono wp_except_bind wp_throw wp_pure wp_mapErr)
open Jbuu.Transport (TransportError)
open Jbuu.Allocator (IssueError BookFile TransactionCore Loss System Steady Delivery)
open Jbuu.Cli

/-- The key that a station in this role encrypts with, over the segment at an index. -/
def keyAt (book : BookFile) (role : Role) (index : Nat) : DirectionKey :=
  (SessionKeys.split (bodyAt book index)).keyFor role.sendDirection

section Stages

variable (sha : Bytes → Digest) (book : BookFile) (role : Role) (start : Ground)

/-- The handshake has asked the cipher `asked`, with these encryptions in it, since it started, and
nothing else was marked. -/
def Asked (sealed : List (DirectionKey × Nonce96)) (g : Ground) : Prop :=
  ∃ asked : List HostOp, g.marks = start.marks ++ asked.map .confirm ∧ asked.filterMap encryption = sealed

/-- The segments delivered since the handshake started. -/
def Took (new : List Delivery) (g : Ground) : Prop := g.system.delivered = start.system.delivered ++ new

/-- What a handshake took is gone, and at most one encryption was made with the last of it. -/
structure Spent (g : Ground) : Prop where
  steady : Steady sha book g.system
  taken : ∃ new, Took start new g ∧ (Asked start [] g ∨
    ∃ d ∈ new, ∃ nonce, Asked start [(keyAt book role d.index, nonce)] g)

def Open (g : Ground) : Prop := ∃ core, g.system.core = some core

/-- Nothing was keyed yet; the pointer is at `next`. -/
structure Level (next : Nat) (g : Ground) : Prop where
  steady : Steady sha book g.system
  opened : ∃ core, g.system.core = some core ∧ core.current.next.get.toNat = next
  took : ∃ new, Took start new g
  asked : Asked start [] g

/-- A session was keyed with the segment at `index`, and these encryptions were made with it. -/
structure Keyed (index : Nat) (sealed : List (DirectionKey × Nonce96)) (g : Ground) : Prop where
  steady : Steady sha book g.system
  opened : Open g
  took : ∃ new, Took start new g ∧ ∃ d ∈ new, d.index = index
  asked : Asked start sealed g

/-- The process is gone. -/
structure Gone (g : Ground) : Prop where
  spent : Spent sha book role start g
  closed : g.system.core = none

/-- The driver returned: another may follow. -/
structure Left (g : Ground) : Prop where
  spent : Spent sha book role start g
  opened : Open g

/-- An active session over the segment it names, and the sequence it seals next. -/
structure OnSegment (s : Session) (named : SegmentIndex) (next : Sequence) : Prop where
  role : s.ctx.role = role
  segment : s.ctx.segment = named
  domain : s.domain = s.ctx.nonceDomain
  keys : s.keys = some (.split (bodyAt book named.get.toNat))
  active : s.terminated = none
  next : s.nextSend = next

/-- How a driver that returns ends. -/
inductive Handed : Except SessionFailure (Session × SessionInfo) → Ground → Prop
  | failed {g : Ground} (e : SessionFailure) (left : Left sha book role start g) : Handed (.error e) g
  | established {g : Ground} {core : TransactionCore} {s : Session} {info : SessionInfo}
      (fresh : OnSegment book role s info.segment ⟨1⟩)
      (keyed : Keyed sha book start info.segment.get.toNat
        [(keyAt book role info.segment.get.toNat, recordNonce s.domain role.sendDirection .zero)] g)
      (opened : g.system.core = some core) (generation : info.generation = core.current.generation) :
      Handed (.ok (s, info)) g

end Stages

section Stages

variable {sha : Bytes → Digest} {book : BookFile} {role : Role} {start g : Ground}

theorem asked_nil (start : Ground) : Asked start [] start := ⟨[], (List.append_nil _).symm, rfl⟩

theorem took_nil (start : Ground) : Took start [] start := (List.append_nil _).symm

theorem Asked.mark {sealed : List (DirectionKey × Nonce96)} (asked : Asked start sealed g) (op : HostOp) :
    Asked start (sealed ++ (encryption op).toList) (g.mark (.confirm op)) := by
  obtain ⟨ops, marks, here⟩ := asked
  refine ⟨ops ++ [op], ?_, ?_⟩
  · rw [Ground.mark, marks]
    simp
  · rw [List.filterMap_append, here]
    cases same : encryption op <;> simp [same]

/-- The process goes: nothing is given back. -/
theorem Spent.lose (spent : Spent sha book role start g) (loss : Loss sha) :
    Gone sha book role start (g.lose loss) where
  spent := ⟨Allocator.step_steady (.lose loss) _ spent.steady, spent.taken⟩
  closed := rfl

theorem Level.left {next : Nat} (level : Level sha book start next g) : Left sha book role start g where
  spent := ⟨level.steady, by
    obtain ⟨new, took⟩ := level.took
    exact ⟨new, took, .inl level.asked⟩⟩
  opened := by
    obtain ⟨core, opened, -⟩ := level.opened
    exact ⟨core, opened⟩

theorem Keyed.left {index : Nat} {sealed : List (DirectionKey × Nonce96)}
    (keyed : Keyed sha book start index sealed g)
    (once : sealed = [] ∨ ∃ nonce, sealed = [(keyAt book role index, nonce)]) :
    Left sha book role start g where
  spent := ⟨keyed.steady, by
    obtain ⟨new, took, d, mem, rfl⟩ := keyed.took
    refine ⟨new, took, ?_⟩
    rcases once with rfl | ⟨nonce, rfl⟩
    · exact .inl keyed.asked
    · exact .inr ⟨d, mem, nonce, keyed.asked⟩⟩
  opened := keyed.opened

theorem Keyed.mark {index : Nat} {sealed : List (DirectionKey × Nonce96)}
    (keyed : Keyed sha book start index sealed g) (op : HostOp) :
    Keyed sha book start index (sealed ++ (encryption op).toList) (g.mark (.confirm op)) where
  steady := keyed.steady
  opened := keyed.opened
  took := keyed.took
  asked := keyed.asked.mark op

/-- Where a driver starts. -/
theorem level_start {core : TransactionCore} (steady : Steady sha book start.system)
    (opened : start.system.core = some core) :
    Level sha book start core.current.next.get.toNat start where
  steady := steady
  opened := ⟨core, opened, rfl⟩
  took := ⟨[], took_nil start⟩
  asked := asked_nil start

variable (role) in
/-- What one `issue` makes of the stage, at the pointer. -/
theorem Level.issue {next : Nat} (level : Level sha book start next g) (fates : List (Allocator.Fate sha)) :
    let g' : Ground := { g with system := (Station.issue sha book fates g.system).2 }
    match (Station.issue sha book fates g.system).1 with
    | some (.ok seg) => seg = bodyAt book next ∧ Level sha book start (next + 1) g' ∧
        Keyed sha book start next [] g'
    | some (.error _) => Left sha book role start g'
    | none => Gone sha book role start g' := by
  obtain ⟨core, opened, rfl⟩ := level.opened
  obtain ⟨new, took⟩ := level.took
  have steady := issue_steady level.steady fates
  have leaves := issue_leaves level.steady opened fates
  revert steady leaves
  rcases Station.issue sha book fates g.system with ⟨reply, system⟩
  intro steady leaves
  cases leaves with
  | @gave _ core' opened' next' delivered =>
      let given : Delivery :=
        ⟨core.current.next.get.toNat, (bodyAt book core.current.next.get.toNat).val⟩
      have took' : Took start (new ++ [given]) { g with system } := by
        rw [Took, ← List.append_assoc, ← took]
        exact delivered
      refine ⟨rfl, ⟨steady, ⟨core', opened', next'⟩, ⟨_, took'⟩, level.asked⟩, ?_⟩
      exact ⟨steady, ⟨core', opened'⟩, ⟨_, took', _, List.mem_append_right _ (List.mem_singleton.mpr rfl), rfl⟩,
        level.asked⟩
  | @failed _ core' e opened' delivered =>
      exact ⟨⟨steady, new, delivered.trans took, .inl level.asked⟩, core', opened'⟩
  | gone delivered closed => exact ⟨⟨steady, new, delivered.trans took, .inl level.asked⟩, closed⟩

end Stages

/-! ## One request -/

section Requests

variable {sha : Bytes → Digest} {book : BookFile} {role : Role} {start g : Ground} {α : Type}
  {post : Except SessionFailure α → Ground → Prop}

/-- A request, unless the process goes at it. -/
theorem wp_ask {op : HandshakeOp} {post : HandshakeReply op → Ground → Prop} (spent : Spent sha book role start g)
    (answers : ∀ luck, match answer sha book luck g op with
      | (some reply, g') => post reply g'
      | (none, g') => Gone sha book role start g') :
    (call op).wp (port sha book) post (Gone sha book role start) g := by
  intro luck
  unfold port
  cases luck.lost with
  | some loss => exact spent.lose loss
  | none =>
      have now := answers luck
      revert now
      rcases answer sha book luck g op with ⟨_ | reply, g'⟩
      · exact id
      · exact id

theorem wp_setDeadline {n : Nat} {f : Unit → Handshaking α} (spent : Spent sha book role start g)
    (fails : ∀ e, post (.error e) g)
    (rest : (f ()).run.wp (port sha book) post (Gone sha book role start) g) :
    (setDeadline n >>= f).run.wp (port sha book) post (Gone sha book role start) g := by
  rw [wp_except_bind, setDeadline, wp_mapErr]
  refine wp_ask spent fun luck => ?_
  simp only [answer]
  cases luck.deadline with
  | ok u => exact rest
  | error e => exact fails _

theorem wp_allocatorState {core : TransactionCore} {f : SegmentIndex × Generation → Handshaking α}
    (spent : Spent sha book role start g) (opened : g.system.core = some core)
    (rest : (f (core.current.next, core.current.generation)).run.wp (port sha book) post
      (Gone sha book role start) g) :
    (allocatorState >>= f).run.wp (port sha book) post (Gone sha book role start) g := by
  rw [wp_except_bind, allocatorState, Program.wp_except_lift]
  refine wp_ask spent fun luck => ?_
  simp only [answer, opened]
  exact rest

theorem wp_send {msg : Message} {f : Unit → Handshaking α} (spent : Spent sha book role start g)
    (fails : ∀ e, post (.error e) g)
    (rest : (f ()).run.wp (port sha book) post (Gone sha book role start) g) :
    (send msg >>= f).run.wp (port sha book) post (Gone sha book role start) g := by
  rw [wp_except_bind]
  unfold send sendMsg
  cases encode msg with
  | error e => exact fails _
  | ok wire =>
      refine wp_ask spent fun luck => ?_
      simp only [answer]
      cases luck.sent with
      | ok u => exact rest
      | error e => exact fails _

theorem wp_recv {msgRole : Role} {f : Message → Handshaking α} (spent : Spent sha book role start g)
    (fails : ∀ e, post (.error e) g)
    (rest : ∀ msg, (f msg).run.wp (port sha book) post (Gone sha book role start) g) :
    (recv msgRole >>= f).run.wp (port sha book) post (Gone sha book role start) g := by
  rw [wp_except_bind]
  unfold recv recvMsg
  refine wp_ask spent fun luck => ?_
  simp only [answer]
  cases luck.received with
  | error e => exact fails _
  | ok wire =>
      dsimp only [Program.bind]
      cases decode msgRole wire with
      | error e => exact fails _
      | ok msg => exact rest msg

theorem wp_sendAll {outbox : List Message} {f : Unit → Handshaking α} (spent : Spent sha book role start g)
    (fails : ∀ e, post (.error e) g)
    (rest : (f ()).run.wp (port sha book) post (Gone sha book role start) g) :
    (sendAll outbox >>= f).run.wp (port sha book) post (Gone sha book role start) g := by
  induction outbox with
  | nil => exact rest
  | cons msg outbox ih =>
      rw [sendAll, bind_assoc]
      exact wp_send spent fails ih

theorem wp_onMachine {β : Type} {p : Host β} {f : β → Handshaking α}
    (holds : p.wp (host sha book) (fun value g => (f value).run.wp (port sha book) post
      (Gone sha book role start) g) (Gone sha book role start) g) :
    (onMachine p >>= f).run.wp (port sha book) post (Gone sha book role start) g := by
  have layers : (onMachine p >>= f).run =
      (p.interpret fun op => askDriver (.driver (.host op))) >>= fun value => (f value).run := by
    show (ExceptT.lift (onDriver (onHost p)) >>= f).run = _
    rw [ExceptT.run_bind_lift, onDriver, onHost, Program.interpret_interpret]
    rfl
  rw [layers, wp_bind]
  refine Program.wp_interpret_meets ?_ holds
  intro op g post meets luck
  have now := meets luck
  revert now
  unfold host
  rcases port sha book (.driver (.host op)) luck g with ⟨_ | reply, g'⟩
  · exact id
  · exact id

/-- The process goes at a request of a state machine, or the request is answered. -/
theorem host_cases (op : HostOp) (luck : Luck sha) (g : Ground) :
    (∃ loss : Loss sha, host sha book op luck g = (none, g.lose loss)) ∨
      host sha book op luck g = answer sha book luck g (.driver (.host op)) := by
  unfold host port
  cases luck.lost with
  | some loss => exact .inl ⟨loss, rfl⟩
  | none => exact .inr rfl

end Requests

/-! ## The server -/

section Server

variable {sha : Bytes → Digest} {book : BookFile} {start g : Ground} {h : ServerHandshake}

theorem wp_serverConfirm {s : Session} {i : SegmentIndex} (held : h.session = some s)
    (agreed : h.agreed = some i) (fresh : OnSegment book .server s i .zero)
    (keyed : Keyed sha book start i.get.toNat [] g) :
    (serverConfirm h).run.wp (port sha book) (Handed sha book .server start) (Gone sha book .server start) g := by
  have left : Left sha book .server start g := keyed.left (.inl rfl)
  unfold serverConfirm
  apply wp_recv left.spent (fun e => .failed e left)
  intro confirm
  apply wp_onMachine
  apply ServerHandshake.wp_onConfirm (Left sha book .server start) left
  · intro session here
    obtain rfl := Option.some.inj (held.symm.trans here)
    exact ⟨by simp [Session.Coherent, fresh.active, fresh.keys], fresh.role, fresh.next⟩
  · exact fun e _ g' _ left => .failed _ left
  intro i' clientNonce serverNonce session keys _ _ _ _ sealed _ here _ _ here' given _
  obtain rfl := Option.some.inj (agreed.symm.trans here)
  obtain rfl := Option.some.inj (held.symm.trans here')
  obtain rfl := Option.some.inj (fresh.keys.symm.trans given)
  intro luck
  rcases host_cases (.decrypt _ _ _ _ _) luck g with ⟨loss, gone⟩ | answered
  · rw [gone]
    exact left.spent.lose loss
  rw [answered]
  simp only [answer]
  have opened := keyed.mark (.decrypt ((SessionKeys.split (bodyAt book i.get.toNat)).keyFor .clientToServer)
    (recordNonce s.domain .clientToServer .zero)
    (s.ctx.buildAad (confirmType .clientToServer) .clientToServer ⟨0⟩ .zero)
    (splitTag sealed.val).1 (splitTag sealed.val).2)
  have left' : Left sha book .server start _ := opened.left (.inl rfl)
  cases luck.opened with
  | none => exact left'
  | some payload =>
      refine ⟨left', ?_⟩
      intro luck
      rcases host_cases (.encrypt _ _ _ _) luck _ with ⟨loss, gone⟩ | answered
      · rw [gone]
        exact left'.spent.lose loss
      rw [answered]
      simp only [answer]
      have sealed' := opened.mark (.encrypt ((SessionKeys.split (bodyAt book i.get.toNat)).keyFor .serverToClient)
        (recordNonce s.domain .serverToClient .zero)
        (s.ctx.buildAad (confirmType .serverToClient) .serverToClient ⟨0⟩ .zero)
        (encodeConfirmBody (sealedBody h.cfg.bookId i clientNonce serverNonce .serverToClient)))
      have left'' : Left sha book .server start _ := sealed'.left (.inr ⟨_, rfl⟩)
      cases luck.sealed with
      | none => exact left''
      | some given =>
          refine ⟨by simp [confirmBodyLen], ?_⟩
          apply wp_sendAll left''.spent (fun e => .failed e left'')
          obtain ⟨core, opened⟩ := left''.opened
          apply wp_allocatorState left''.spent opened
          have next : ({ s with
              recvLast := s.recvLast.set .clientToServer (some .zero)
              sendSeq := s.sendSeq.set .serverToClient ⟨1⟩ } : Session).nextSend = ⟨1⟩ := by
            rw [Session.nextSend, fresh.role]
            exact PerDirection.get_set_same s.sendSeq .serverToClient ⟨1⟩
          exact .established ⟨fresh.role, fresh.segment, fresh.domain, fresh.keys, fresh.active, next⟩
            sealed' opened rfl

theorem wp_serverIssue (quiet : h.session = none) (level : Level sha book start h.cfg.localPointer.get.toNat g)
    (agreed : ∀ i, h.agreed = some i → i = h.cfg.localPointer) :
    (serverIssue h).run.wp (port sha book) (Handed sha book .server start) (Gone sha book .server start) g := by
  have left : Left sha book .server start g := level.left
  unfold serverIssue
  apply wp_recv left.spent (fun e => .failed e left)
  intro req
  apply wp_onMachine
  apply ServerHandshake.wp_onIssueRequest (Left sha book .server start) left (fun _ => quiet)
  · exact fun e _ g' _ left => .failed _ left
  intro i clientNonce serverNonce _ here _ _ luck
  obtain rfl := agreed i here
  rcases host_cases .issue luck g with ⟨loss, gone⟩ | answered
  · rw [gone]
    exact left.spent.lose loss
  rw [answered]
  simp only [answer]
  have issued := level.issue .server luck.issue
  revert issued
  rcases issue sha book luck.issue g.system with ⟨_ | e | seg, system⟩
  · exact id
  · exact id
  · rintro ⟨rfl, -, keyed⟩
    exact wp_serverConfirm rfl here ⟨rfl, rfl, rfl, rfl, rfl, Session.nextSend_new ..⟩ keyed

/-- The pointer a server agrees on is its own. -/
theorem agreed_answerHello (bookId : BookId) (clientPointer : SegmentIndex) (serverNonce : Nonce16)
    (own : ∀ i, h.agreed = some i → i = h.cfg.localPointer) :
    (h.answerHello bookId clientPointer serverNonce).2.cfg = h.cfg ∧
      ∀ i, (h.answerHello bookId clientPointer serverNonce).2.agreed = some i → i = h.cfg.localPointer := by
  unfold ServerHandshake.answerHello
  split
  · exact ⟨rfl, own⟩
  · dsimp only
    cases (ServerHandshake.arbitrate h.cfg.localPointer clientPointer h.cfg.segmentCount).1 with
    | ok => exact ⟨rfl, fun i same => (Option.some.inj same).symm⟩
    | serverAhead => exact ⟨rfl, fun i same => (Option.some.inj same).symm⟩
    | _ => exact ⟨rfl, own⟩

/-- From the answer to the HELLO on. -/
theorem wp_serverAnswer (hello arbitrate : Message) (burned : h.session = none)
    (level : Level sha book start h.cfg.localPointer.get.toNat g)
    (own : ∀ i, h.agreed = some i → i = h.cfg.localPointer) :
    (send arbitrate >>= fun _ => serverProceed h (terminal hello arbitrate)).run.wp (port sha book)
      (Handed sha book .server start) (Gone sha book .server start) g := by
  have left : Left sha book .server start g := level.left
  apply wp_send left.spent (fun e => .failed e left)
  unfold serverProceed
  split
  · exact .failed _ left
  · exact wp_serverIssue burned level own

theorem wp_serverArbitrate {cfg : ServerConfig} (level : Level sha book start cfg.localPointer.get.toNat g) :
    (serverArbitrate (.idle cfg)).run.wp (port sha book) (Handed sha book .server start)
      (Gone sha book .server start) g := by
  have left : Left sha book .server start g := level.left
  unfold serverArbitrate
  apply wp_recv left.spent (fun e => .failed e left)
  intro hello
  apply wp_onMachine
  unfold ServerHandshake.onHello
  rw [if_neg (by simp [ServerHandshake.idle])]
  cases hello with
  | hello bookId clientNonce clientPointer features =>
      intro luck
      rcases host_cases .csprng16 luck g with ⟨loss, gone⟩ | answered
      · rw [gone]
        exact left.spent.lose loss
      rw [answered]
      simp only [answer]
      cases luck.random with
      | none => exact .failed _ left
      | some serverNonce =>
          have own := @agreed_answerHello { ServerHandshake.idle cfg with clientNonce := some clientNonce }
            bookId clientPointer serverNonce (by rintro _ ⟨⟩)
          have quiet := @ServerHandshake.answerHello_cases
            { ServerHandshake.idle cfg with clientNonce := some clientNonce } rfl bookId clientPointer serverNonce
          refine wp_serverAnswer (.hello bookId clientNonce clientPointer features) _
            (quiet.elim (fun waits => waits.2) fun dead => dead.burned) ?_ fun i agreed => ?_
          · rw [own.1]
            exact level
          · rw [own.1]
            exact own.2 i agreed
  | _ => exact .failed _ left

theorem wp_serverHandshake {core : TransactionCore} (steady : Steady sha book start.system)
    (opened : start.system.core = some core) (deadline : Nat) :
    (serverHandshake ⟨book.bookId, book.segmentCount⟩ deadline).run.wp (port sha book)
      (Handed sha book .server start) (Gone sha book .server start) start := by
  have level := level_start steady opened
  have left : Left sha book .server start start := level.left
  unfold serverHandshake
  apply wp_setDeadline left.spent (fun e => .failed e left)
  apply wp_allocatorState left.spent opened
  exact wp_serverArbitrate level

end Server

/-! ## The client -/

section Client

variable {sha : Bytes → Digest} {book : BookFile} {start g : Ground} {h : ClientHandshake}

/-- The gap takes every segment below the agreed one, or fails. -/
theorem wp_issueGap (n : Nat) {next : Nat} (level : Level sha book start next g) :
    (issueGap n).wp (host sha book)
      (fun out g' => match out with
        | .ok _ => Level sha book start (next + n) g'
        | .error _ => Left sha book .client start g') (Gone sha book .client start) g := by
  induction n generalizing next g with
  | zero => exact level
  | succ n ih =>
      have left : Left sha book .client start g := level.left
      intro luck
      rcases host_cases .issue luck g with ⟨loss, gone⟩ | answered
      · rw [gone]
        exact left.spent.lose loss
      rw [answered]
      simp only [answer]
      have issued := level.issue .client luck.issue
      revert issued
      rcases issue sha book luck.issue g.system with ⟨_ | e | seg, system⟩
      · exact id
      · exact id
      · rintro ⟨-, level, -⟩
        have rest := ih level
        rw [Nat.add_right_comm] at rest
        exact rest

/-- How the client answers an ARBITRATE. -/
inductive Sent (sha : Bytes → Digest) (book : BookFile) (start : Ground) :
    Step × ClientHandshake → Ground → Prop
  | failed {h : ClientHandshake} {g : Ground} (e : HandshakeError) (left : Left sha book .client start g) :
      Sent sha book start (.failed e, h) g
  | sent {h : ClientHandshake} {g : Ground} {s : Session} {i : SegmentIndex} (outbox : List Message)
      (phase : h.phase = .confirmSent) (held : h.session = some s) (agreed : h.agreed = some i)
      (fresh : OnSegment book .client s i ⟨1⟩)
      (keyed : Keyed sha book start i.get.toNat
        [(keyAt book .client i.get.toNat, recordNonce s.domain .clientToServer .zero)] g) :
      Sent sha book start (.send outbox, h) g

theorem wp_issueAndConfirm {i : SegmentIndex} (agreed : h.agreed = some i)
    (ahead : h.cfg.localPointer.get.toNat ≤ i.get.toNat)
    (level : Level sha book start h.cfg.localPointer.get.toNat g) :
    h.issueAndConfirm.wp (host sha book) (Sent sha book start) (Gone sha book .client start) g := by
  unfold ClientHandshake.issueAndConfirm
  simp only [agreed]
  rw [wp_bind]
  refine wp_mono (wp_issueGap _ level) ?_ fun _ gone => gone
  rintro (e | ⟨⟩) g level
  · exact .failed _ level
  replace level : Level sha book start i.get.toNat g := by
    rw [Nat.add_sub_cancel' ahead] at level
    exact level
  have left : Left sha book .client start g := level.left
  intro luck
  rcases host_cases .issue luck g with ⟨loss, gone⟩ | answered
  · rw [gone]
    exact left.spent.lose loss
  rw [answered]
  simp only [answer]
  have issued := level.issue .client luck.issue
  revert issued
  rcases issue sha book luck.issue g.system with ⟨_ | e | seg, system⟩
  · exact id
  · exact .failed _
  rintro ⟨rfl, -, keyed⟩
  have left : Left sha book .client start _ := keyed.left (.inl rfl)
  cases h.clientNonce with
  | none => exact .failed _ left
  | some clientNonce =>
      cases h.serverNonce with
      | none => exact .failed _ left
      | some serverNonce =>
          show Program.wp _ _ _ (sealConfirm _ _ _ _ _ _ >>= _) _
          rw [wp_bind]
          refine wp_sealConfirm rfl rfl rfl (show _ = Direction.clientToServer from rfl) ?_
          intro luck
          rcases host_cases (.encrypt _ _ _ _) luck _ with ⟨loss, gone⟩ | answered
          · rw [gone]
            exact left.spent.lose loss
          rw [answered]
          simp only [answer]
          let ctx : SessionContext :=
            { role := .client, bookId := h.cfg.bookId, segment := i, clientNonce, serverNonce }
          have sealed := keyed.mark (.encrypt ((SessionKeys.split (bodyAt book i.get.toNat)).keyFor .clientToServer)
            (recordNonce ctx.nonceDomain .clientToServer .zero)
            (ctx.buildAad (confirmType .clientToServer) .clientToServer ⟨0⟩ .zero)
            (encodeConfirmBody (sealedBody h.cfg.bookId i clientNonce serverNonce .clientToServer)))
          have left : Left sha book .client start _ := sealed.left (.inr ⟨_, rfl⟩)
          cases luck.sealed with
          | none => exact .failed _ left
          | some given =>
              exact ⟨by simp [confirmBodyLen], .sent _ rfl rfl rfl ⟨rfl, rfl, rfl, rfl, rfl, rfl⟩ sealed⟩

theorem wp_onArbitrate (level : Level sha book start h.cfg.localPointer.get.toNat g)
    (serverNonce : Nonce16) (sp : SegmentIndex) (result : ArbitrateResult) :
    (h.onArbitrate serverNonce sp result).wp (host sha book) (Sent sha book start)
      (Gone sha book .client start) g := by
  have left : Left sha book .client start g := level.left
  cases result with
  | bookMismatch => exact .failed _ left
  | exhausted =>
      show Program.wp _ _ _ (if _ then _ else _) g
      split
      · exact .failed _ left
      · exact .failed _ left
  | clientAhead =>
      show Program.wp _ _ _ (if _ then _ else _) g
      split
      · exact .failed _ left
      · exact .failed _ left
  | ok =>
      show Program.wp _ _ _ (if _ then _ else _) g
      split
      · exact .failed _ left
      · rename_i same
        refine wp_issueAndConfirm rfl ?_ level
        rw [not_not.mp same]
  | serverAhead =>
      show Program.wp _ _ _ (if _ then _ else _) g
      split
      · exact .failed _ left
      · rename_i behind
        refine wp_issueAndConfirm rfl ?_ level
        rw [UInt64.not_le, UInt64.lt_iff_toNat_lt] at behind
        exact behind.le

/-- A segment may be wasted at any time. -/
theorem Left.issue {role : Role} (left : Left sha book role start g) (fates : List (Allocator.Fate sha)) :
    let g' : Ground := { g with system := (Station.issue sha book fates g.system).2 }
    match (Station.issue sha book fates g.system).1 with
    | some _ => Left sha book role start g'
    | none => Gone sha book role start g' := by
  obtain ⟨core, opened⟩ := left.opened
  obtain ⟨new, took, asked⟩ := left.spent.taken
  have steady := issue_steady left.spent.steady fates
  have leaves := issue_leaves left.spent.steady opened fates
  revert steady leaves
  rcases Station.issue sha book fates g.system with ⟨reply, system⟩
  intro steady leaves
  cases leaves with
  | @gave _ core' opened' _ delivered =>
      let given : Delivery :=
        ⟨core.current.next.get.toNat, (bodyAt book core.current.next.get.toNat).val⟩
      have took' : Took start (new ++ [given]) { g with system } := by
        rw [Took, ← List.append_assoc, ← took]
        exact delivered
      refine ⟨⟨steady, _, took', asked.imp_right ?_⟩, core', opened'⟩
      rintro ⟨d, mem, nonce, asked⟩
      exact ⟨d, List.mem_append_left _ mem, nonce, asked⟩
  | @failed _ core' e opened' delivered => exact ⟨⟨steady, new, delivered.trans took, asked⟩, core', opened'⟩
  | gone delivered closed => exact ⟨⟨steady, new, delivered.trans took, asked⟩, closed⟩

theorem wp_clientConfirm {s : Session} {i : SegmentIndex} (phase : h.phase = .confirmSent)
    (held : h.session = some s) (agreed : h.agreed = some i) (fresh : OnSegment book .client s i ⟨1⟩)
    (keyed : Keyed sha book start i.get.toNat
      [(keyAt book .client i.get.toNat, recordNonce s.domain .clientToServer .zero)] g) :
    (clientConfirm h).run.wp (port sha book) (Handed sha book .client start) (Gone sha book .client start) g := by
  have left : Left sha book .client start g := keyed.left (.inr ⟨_, rfl⟩)
  unfold clientConfirm
  apply wp_recv left.spent (fun e => .failed e left)
  intro confirm
  apply wp_onMachine
  apply ClientHandshake.wp_handle (Left sha book .client start) left
  · intro sent
    cases phase.symm.trans sent
  · intro session here
    obtain rfl := Option.some.inj (held.symm.trans here)
    exact ⟨by simp [Session.Coherent, fresh.active, fresh.keys], fresh.role⟩
  · exact fun e _ g' _ left => .failed _ left
  · intro luck g left
    rcases host_cases .issue luck g with ⟨loss, gone⟩ | answered
    · rw [gone]
      exact left.spent.lose loss
    rw [answered]
    simp only [answer]
    have issued := left.issue luck.issue
    revert issued
    rcases issue sha book luck.issue g.system with ⟨_ | reply, system⟩
    · exact id
    · exact id
  · intro _ _ _ _ sent
    cases phase.symm.trans sent
  intro i' session keys _ _ _ _ sealed _ here here' given _ luck
  obtain rfl := Option.some.inj (agreed.symm.trans here)
  obtain rfl := Option.some.inj (held.symm.trans here')
  obtain rfl := Option.some.inj (fresh.keys.symm.trans given)
  rcases host_cases (.decrypt _ _ _ _ _) luck g with ⟨loss, gone⟩ | answered
  · rw [gone]
    exact left.spent.lose loss
  rw [answered]
  simp only [answer]
  have opened := keyed.mark (.decrypt ((SessionKeys.split (bodyAt book i.get.toNat)).keyFor .serverToClient)
    (recordNonce s.domain .serverToClient .zero)
    (s.ctx.buildAad (confirmType .serverToClient) .serverToClient ⟨0⟩ .zero)
    (splitTag sealed.val).1 (splitTag sealed.val).2)
  have left' : Left sha book .client start _ := opened.left (.inr ⟨_, rfl⟩)
  cases luck.opened with
  | none => exact left'
  | some payload =>
      refine ⟨left', ?_⟩
      obtain ⟨core, there⟩ := left'.opened
      apply wp_allocatorState left'.spent there
      exact .established ⟨fresh.role, fresh.segment, fresh.domain, fresh.keys, fresh.active, fresh.next⟩
        opened there rfl

theorem wp_clientIssue (phase : h.phase = .helloSent)
    (level : Level sha book start h.cfg.localPointer.get.toNat g) :
    (clientIssue h).run.wp (port sha book) (Handed sha book .client start) (Gone sha book .client start) g := by
  have left : Left sha book .client start g := level.left
  unfold clientIssue
  apply wp_recv left.spent (fun e => .failed e left)
  intro arbitrate
  apply wp_onMachine
  have answers : (h.handle arbitrate).wp (host sha book) (Sent sha book start) (Gone sha book .client start) g := by
    unfold ClientHandshake.handle
    split
    · exact wp_onArbitrate level _ _ _
    · rename_i sent
      cases phase.symm.trans sent
    · exact .failed _ left
  refine wp_mono answers ?_ fun _ gone => gone
  rintro _ g (⟨e, left⟩ | ⟨outbox, phase, held, agreed, fresh, keyed⟩)
  · exact .failed _ left
  · have left : Left sha book .client start g := keyed.left (.inr ⟨_, rfl⟩)
    apply wp_sendAll left.spent (fun e => .failed e left)
    exact wp_clientConfirm phase held agreed fresh keyed

theorem wp_clientHandshake {core : TransactionCore} (steady : Steady sha book start.system)
    (opened : start.system.core = some core) (deadline : Nat) :
    (clientHandshake ⟨book.bookId, book.segmentCount⟩ deadline).run.wp (port sha book)
      (Handed sha book .client start) (Gone sha book .client start) start := by
  have level := level_start steady opened
  have left : Left sha book .client start start := level.left
  unfold clientHandshake
  apply wp_setDeadline left.spent (fun e => .failed e left)
  apply wp_allocatorState left.spent opened
  apply wp_onMachine
  intro luck
  rcases host_cases .csprng16 luck start with ⟨loss, gone⟩ | answered
  · rw [gone]
    exact left.spent.lose loss
  rw [answered]
  simp only [answer]
  cases luck.random with
  | none => exact .failed _ left
  | some nonce =>
      refine wp_send left.spent (fun e => .failed e left) ?_
      exact wp_clientIssue rfl level

end Client

end Jbuu.Station
