/-
# Handshake.Server — the server's state machine

`ServerHandshake` of `otp-handshake`, one definition per function. The server issues its
segment at ISSUE_REQUEST, accepts the client's CONFIRM and answers it with its own.
`wp_onHello`, `wp_onIssueRequest` and `wp_onConfirm` say what each call can do.
-/
import Jbuu.Handshake.Client

namespace Jbuu

set_option autoImplicit false

open Jbuu.Library.BigEndian (Bytes Exactly)
open Jbuu.Library
open Jbuu.Library.Program (wp_bind)

inductive ServerPhase where
  | idle
  | issueWait
  | confirmWait
  | established
  | aheadPending
  | failed
  deriving DecidableEq, Repr

structure ServerConfig where
  version : ProtocolVersion
  bookId : BookId
  localPointer : SegmentIndex
  segmentCount : UInt64
  deriving DecidableEq, Repr

structure ServerHandshake where
  cfg : ServerConfig
  phase : ServerPhase
  clientNonce : Option Nonce16
  serverNonce : Option Nonce16
  /-- The pointer the arbitration agreed on, the server's own. -/
  agreed : Option SegmentIndex
  session : Option Session
  deriving DecidableEq, Repr

namespace ServerHandshake

/-- The machine `new` makes. -/
def idle (cfg : ServerConfig) : ServerHandshake where
  cfg := cfg
  phase := .idle
  clientNonce := none
  serverNonce := none
  agreed := none
  session := none

def new (cfg : ServerConfig) : Except HandshakeError ServerHandshake :=
  if cfg.version ≠ .v2 then .error (.violation .badVersion) else .ok (idle cfg)

def burnSession (h : ServerHandshake) : ServerHandshake := { h with session := none }

def abort (h : ServerHandshake) (reason : ErrorCode) : Step × ServerHandshake :=
  (.failed (.violation reason), { h.burnSession with phase := .failed })

def orderViolation (h : ServerHandshake) : Step × ServerHandshake :=
  (.failed (.violation .badOrder), { h.burnSession with phase := .failed })

/-- The arbitration table: the result, and the pointer it is announced with. -/
def arbitrate (sp cp : SegmentIndex) (n : UInt64) : ArbitrateResult × SegmentIndex :=
  if n ≤ sp.get then (.exhausted, ⟨n⟩)
  else if cp.get < sp.get then (.serverAhead, sp)
  else if sp.get < cp.get then (.clientAhead, sp)
  else (.ok, sp)

/-- The transition an arbitration makes. -/
def arbitrated (h : ServerHandshake) (serverNonce : Nonce16) (sp : SegmentIndex) :
    ArbitrateResult → ServerHandshake
  | .ok | .serverAhead =>
      { h with serverNonce := some serverNonce, agreed := some sp, phase := .issueWait }
  | .clientAhead => { h with phase := .aheadPending }
  | .exhausted => { h with phase := .failed }
  | .bookMismatch => h

/-- `on_hello` once the server nonce is drawn: a wrong book comes before arbitration. -/
def answerHello (h : ServerHandshake) (bookId : BookId) (clientPointer : SegmentIndex)
    (serverNonce : Nonce16) : Message × ServerHandshake :=
  if bookId ≠ h.cfg.bookId then
    (.arbitrate serverNonce .zero .bookMismatch, { h with phase := .failed })
  else
    let sp := h.cfg.localPointer
    let row := arbitrate sp clientPointer h.cfg.segmentCount
    (.arbitrate serverNonce row.2 row.1, h.arbitrated serverNonce sp row.1)

def onHello (h : ServerHandshake) (hello : Message) :
    Host (Except HandshakeError Message × ServerHandshake) :=
  if h.phase ≠ .idle then
    pure (.error (.violation .badOrder), { h.burnSession with phase := .failed })
  else
    match hello with
    | .hello bookId clientNonce clientPointer _ => do
        let h := { h with clientNonce := some clientNonce }
        match ← askHost .csprng16 with
        | none => pure (.error .csprng, h)
        | some serverNonce =>
            let (m, h) := h.answerHello bookId clientPointer serverNonce
            pure (.ok m, h)
    | _ => pure (.error (.violation .badOrder), { h with phase := .failed })

def onIssueRequest (h : ServerHandshake) (req : Message) : Host (Step × ServerHandshake) :=
  if h.phase ≠ .issueWait then pure h.orderViolation
  else
    match req, h.agreed with
    | .issueRequest chosenPointer clientNonce serverNonce, some i =>
        if chosenPointer ≠ i then
          pure (.failed (.violation .issuePointerMismatch), { h with phase := .failed })
        else
          match h.clientNonce, h.serverNonce with
          | some helloClientNonce, some selfServerNonce =>
              if clientNonce ≠ helloClientNonce ∨ serverNonce ≠ selfServerNonce then
                pure (.failed (.authentication .nonceMismatch), { h.burnSession with phase := .failed })
              else do
                match ← askHost .issue with
                | .error e => pure (.failed (.issuer e), { h with phase := .failed })
                | .ok seg =>
                    let ctx : SessionContext :=
                      { role := .server, bookId := h.cfg.bookId, segment := i
                        clientNonce := helloClientNonce, serverNonce := selfServerNonce }
                    pure (.awaitPeer, { h with session := some (.new seg ctx), phase := .confirmWait })
          | _, _ => pure h.orderViolation
    | _, _ => pure h.orderViolation

/-- `on_confirm` once the phase and the message are right. -/
def confirmWith (h : ServerHandshake) (segmentIndex : SegmentIndex) (sessionNonce : Nonce16)
    (epoch : Epoch) (seq : Sequence) (sealed : Exactly 103) : Host (Step × ServerHandshake) :=
  match h.agreed, h.clientNonce, h.serverNonce, h.session with
  | some i, some clientNonce, some serverNonce, some session => do
      let h := { h with session := none }
      match ← acceptConfirm session segmentIndex sessionNonce epoch seq sealed
        { bookId := h.cfg.bookId, segment := i, clientNonce, serverNonce
          direction := .clientToServer, msgType := confirmWire .clientToServer
          label := confirmLabel .clientToServer } with
      | .error e => pure (.failed e, { h with phase := .failed })
      | .ok session => do
          let (confirm, session) ← sealConfirm session h.cfg.bookId i clientNonce serverNonce
            .serverToClient
          match confirm with
          | .error e => pure (.failed e, { h with phase := .failed })
          | .ok confirm => pure (.established [confirm] session i, { h with phase := .established })
  | _, _, _, _ => pure h.orderViolation

def onConfirm (h : ServerHandshake) (confirm : Message) : Host (Step × ServerHandshake) :=
  if h.phase ≠ .confirmWait then pure h.orderViolation
  else
    match confirm with
    | .confirmC2s segmentIndex sessionNonce epoch seq sealed =>
        h.confirmWith segmentIndex sessionNonce epoch seq sealed
    | _ => pure h.orderViolation

end ServerHandshake

/-! ## The public calls -/

inductive ServerCall where
  | onHello (hello : Message)
  | onIssueRequest (req : Message)
  | onConfirm (confirm : Message)
  | abort (reason : ErrorCode)
  deriving DecidableEq, Repr

def ServerCall.on : ServerCall → ServerHandshake → Host (CallReply × ServerHandshake)
  | .onHello hello, h => do
      let (reply, h) ← h.onHello hello
      pure (.ofResult reply, h)
  | .onIssueRequest req, h => do
      let (reply, h) ← h.onIssueRequest req
      pure (.step reply, h)
  | .onConfirm confirm, h => do
      let (reply, h) ← h.onConfirm confirm
      pure (.step reply, h)
  | .abort reason, h =>
      let (reply, h) := h.abort reason
      pure (.step reply, h)

/-! ## What a call can do -/

namespace ServerHandshake

/-- Failed for good, no session held. -/
structure Dead (h : ServerHandshake) : Prop where
  ended : h.phase = .failed ∨ h.phase = .aheadPending
  burned : h.session = none

theorem dead_orderViolation (h : ServerHandshake) : h.orderViolation.2.Dead := ⟨.inl rfl, rfl⟩

/-- The table has no row for a wrong book: that was answered before. -/
theorem arbitrate_ne_bookMismatch (sp cp : SegmentIndex) (n : UInt64) :
    (arbitrate sp cp n).1 ≠ .bookMismatch := by
  unfold arbitrate
  split
  · nofun
  split
  · nofun
  split
  · nofun
  · nofun

theorem answerHello_cases {h : ServerHandshake} (burned : h.session = none) (bookId : BookId)
    (clientPointer : SegmentIndex) (serverNonce : Nonce16) :
    ((h.answerHello bookId clientPointer serverNonce).2.phase = .issueWait ∧
      (h.answerHello bookId clientPointer serverNonce).2.session = none) ∨
    (h.answerHello bookId clientPointer serverNonce).2.Dead := by
  unfold answerHello
  split
  · exact .inr ⟨.inl rfl, burned⟩
  · have known := arbitrate_ne_bookMismatch h.cfg.localPointer clientPointer h.cfg.segmentCount
    dsimp only
    generalize arbitrate h.cfg.localPointer clientPointer h.cfg.segmentCount = row at known ⊢
    cases result : row.1 with
    | ok => exact .inl ⟨rfl, burned⟩
    | serverAhead => exact .inl ⟨rfl, burned⟩
    | exhausted => exact .inr ⟨.inl rfl, burned⟩
    | bookMismatch => exact absurd result known
    | clientAhead => exact .inr ⟨.inr rfl, burned⟩

section Rules

variable {φ σ : Type} {D : Device HostOp HostReply φ σ} {crash : σ → Prop} {st : σ}
  {h : ServerHandshake}

/-- **What `on_hello` can do.** -/
theorem wp_onHello {post : Except HandshakeError Message × ServerHandshake → σ → Prop}
    (quiet : h.phase = .idle → h.session = none)
    (failed : ∀ e h', h'.Dead → post (.error e, h') st) (hello : Message)
    (asks : ∀ bookId clientNonce clientPointer features, h.phase = .idle →
      hello = .hello bookId clientNonce clientPointer features →
      ∀ fate, match D .csprng16 fate st with
        | (some none, st') => post (.error .csprng, { h with clientNonce := some clientNonce }) st'
        | (some (some _), st') => ∀ m h', (h'.phase = .issueWait ∧ h'.session = none) ∨ h'.Dead →
            post (.ok m, h') st'
        | (none, st') => crash st') :
    (h.onHello hello).wp D post crash st := by
  unfold onHello
  split
  · exact failed _ _ h.dead_orderViolation
  · rename_i phase
    replace phase := not_not.mp phase
    have burned := quiet phase
    split
    · rename_i bookId clientNonce clientPointer features
      intro fate
      have answer := asks bookId clientNonce clientPointer features phase rfl fate
      revert answer
      generalize D .csprng16 fate st = given
      rcases given with ⟨_ | _ | serverNonce, st'⟩
      · exact id
      · exact id
      · intro answers
        have fresh : { h with clientNonce := some clientNonce : ServerHandshake }.session = none :=
          burned
        exact answers _ _ (answerHello_cases fresh bookId clientPointer serverNonce)
    · exact failed _ _ ⟨.inl rfl, burned⟩

variable {post : Step × ServerHandshake → σ → Prop}

/-- **What `on_issue_request` can do.** -/
theorem wp_onIssueRequest (I : σ → Prop) (start : I st) (quiet : h.phase = .issueWait → h.session = none)
    (failed : ∀ e h' st', h'.Dead → I st' → post (.failed e, h') st') (req : Message)
    (issues : ∀ i clientNonce serverNonce, h.phase = .issueWait → h.agreed = some i →
      h.clientNonce = some clientNonce → h.serverNonce = some serverNonce →
      ∀ fate, match D .issue fate st with
        | (some (.error _), st') => I st'
        | (some (.ok seg), st') =>
            post (.awaitPeer,
              { h with
                phase := .confirmWait
                session := some (.new seg { role := .server, bookId := h.cfg.bookId, segment := i,
                                            clientNonce, serverNonce }) }) st'
        | (none, st') => crash st') :
    (h.onIssueRequest req).wp D post crash st := by
  unfold onIssueRequest
  split
  · exact failed _ _ st h.dead_orderViolation start
  · rename_i phase
    replace phase := not_not.mp phase
    have burned := quiet phase
    split
    · rename_i chosen clientNonce serverNonce i agreed
      split
      · exact failed _ _ st ⟨.inl rfl, burned⟩ start
      split
      · rename_i helloClientNonce selfServerNonce client server
        split
        · exact failed _ _ st ⟨.inl rfl, rfl⟩ start
        · intro fate
          have issued := issues i helloClientNonce selfServerNonce phase agreed client server fate
          revert issued
          generalize D .issue fate st = given
          rcases given with ⟨_ | e | seg, st'⟩
          · exact id
          · exact failed _ _ st' ⟨.inl rfl, burned⟩
          · exact id
      · exact failed _ _ st h.dead_orderViolation start
    · exact failed _ _ st h.dead_orderViolation start

/-- **What `on_confirm` can do.** -/
theorem wp_onConfirm (I : σ → Prop) (start : I st)
    (own : ∀ session, h.session = some session →
      session.Coherent ∧ session.ctx.role = .server ∧ session.nextSend = .zero)
    (failed : ∀ e h' st', h'.Dead → I st' → post (.failed e, h') st') (confirm : Message)
    (establishes : ∀ i clientNonce serverNonce session keys segmentIndex sessionNonce epoch seq sealed,
      h.phase = .confirmWait → h.agreed = some i → h.clientNonce = some clientNonce →
      h.serverNonce = some serverNonce → h.session = some session → session.keys = some keys →
      confirm = .confirmC2s segmentIndex sessionNonce epoch seq sealed →
      ∀ fate, match D (.decrypt (keys.keyFor .clientToServer)
          (recordNonce session.domain .clientToServer .zero)
          (session.ctx.buildAad (confirmType .clientToServer) .clientToServer ⟨0⟩ .zero)
          (splitTag sealed.val).1 (splitTag sealed.val).2) fate st with
        | (some none, st') => I st'
        | (some (some _), st') => I st' ∧
            ∀ fate, match D (.encrypt (keys.keyFor .serverToClient)
                (recordNonce session.domain .serverToClient .zero)
                (session.ctx.buildAad (confirmType .serverToClient) .serverToClient ⟨0⟩ .zero)
                (encodeConfirmBody
                  (sealedBody h.cfg.bookId i clientNonce serverNonce .serverToClient))) fate st' with
              | (some none, st'') => I st''
              | (some (some (ciphertext, tag)), st'') =>
                  ∃ fits : (ciphertext ++ tag.val).length = 103,
                    post (.established [.confirmS2c i session.ctx.sessionNonce ⟨0⟩ .zero
                          ⟨ciphertext ++ tag.val, fits⟩]
                        { session with
                          recvLast := session.recvLast.set .clientToServer (some .zero)
                          sendSeq := session.sendSeq.set .serverToClient ⟨1⟩ } i,
                      { h with phase := .established, session := none }) st''
              | (none, st'') => crash st''
        | (none, st') => crash st') :
    (h.onConfirm confirm).wp D post crash st := by
  unfold onConfirm
  split
  · exact failed _ _ st h.dead_orderViolation start
  · rename_i phase
    replace phase := not_not.mp phase
    split
    · rename_i segmentIndex sessionNonce epoch seq sealed
      unfold confirmWith
      split
      · rename_i i clientNonce serverNonce session agreed client server held
        obtain ⟨coherent, role, first⟩ := own session held
        have dead : ∀ e st', I st' →
            post (.failed e, { h with phase := .failed, session := none }) st' :=
          fun e st' inv => failed e _ st' ⟨.inl rfl, rfl⟩ inv
        show Program.wp D post crash (acceptConfirm _ _ _ _ _ _ _ >>= _) st
        rw [wp_bind]
        refine wp_acceptConfirm coherent (show _ = Direction.clientToServer by rw [role]; rfl)
          (fun e => dead e st start) ?_
        intro keys active given fate
        have answer := establishes i clientNonce serverNonce session keys segmentIndex sessionNonce
          epoch seq sealed phase agreed client server held given rfl fate
        revert answer
        dsimp only
        generalize D _ fate st = given
        rcases given with ⟨_ | _ | payload, st'⟩
        · exact id
        · exact fun inv e => dead e st' inv
        · rintro ⟨inv, seals⟩
          refine ⟨fun e => dead e st' inv, ?_⟩
          show Program.wp D post crash (sealConfirm _ _ _ _ _ _ >>= _) st'
          rw [wp_bind]
          refine wp_sealConfirm active given first
            (show _ = Direction.serverToClient by rw [role]; rfl) ?_
          intro fate
          have answer := seals fate
          revert answer
          dsimp only
          generalize D _ fate st' = given
          rcases given with ⟨_ | _ | ⟨ciphertext, tag⟩, st''⟩
          · exact id
          · exact dead _ st''
          · exact id
      · exact failed _ _ st h.dead_orderViolation start
    · exact failed _ _ st h.dead_orderViolation start

end Rules

end ServerHandshake

end Jbuu
