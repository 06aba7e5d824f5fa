/-
# Handshake.Client — the client's state machine

`ClientHandshake` of `otp-handshake`, one definition per function. `wp_handle` says what
a call of `handle` can do: fail, which leaves the machine dead; issue and send, when an
ARBITRATE is answered; or establish, when a CONFIRM_S2C opens.
-/
import Jbuu.Handshake.Confirm

namespace Jbuu

set_option autoImplicit false

open Jbuu.Library.BigEndian (Bytes Exactly)
open Jbuu.Library
open Jbuu.Library.Program (wp_bind wp_mono)
open Jbuu.Allocator (IssueError)

inductive ClientPhase where
  | idle
  | helloSent
  | confirmSent
  | established
  | aheadRecovery
  | failed
  deriving DecidableEq, Repr

structure ClientConfig where
  version : ProtocolVersion
  bookId : BookId
  localPointer : SegmentIndex
  segmentCount : UInt64
  deriving DecidableEq, Repr

structure ClientHandshake where
  cfg : ClientConfig
  phase : ClientPhase
  clientNonce : Option Nonce16
  serverNonce : Option Nonce16
  /-- The pointer the arbitration agreed on. -/
  agreed : Option SegmentIndex
  session : Option Session
  wastedGap : Option (SegmentIndex × SegmentIndex)
  deriving DecidableEq, Repr

/-- The loop of `issue` calls that wastes the gap; `fuel` is the length of its range. -/
def issueGap : Nat → Host (Except IssueError Unit)
  | 0 => pure (.ok ())
  | fuel + 1 => do
      match ← askHost .issue with
      | .error e => pure (.error e)
      | .ok _ => issueGap fuel

namespace ClientHandshake

/-- The machine `new` makes. -/
def idle (cfg : ClientConfig) : ClientHandshake where
  cfg := cfg
  phase := .idle
  clientNonce := none
  serverNonce := none
  agreed := none
  session := none
  wastedGap := none

def new (cfg : ClientConfig) : Except HandshakeError ClientHandshake :=
  if cfg.version ≠ .v2 then .error (.violation .badVersion) else .ok (idle cfg)

def start (h : ClientHandshake) : Host (Except HandshakeError Message × ClientHandshake) :=
  if h.phase ≠ .idle then pure (.error (.violation .badOrder), { h with phase := .failed })
  else do
    match ← askHost .csprng16 with
    | none => pure (.error .csprng, h)
    | some nonce =>
        pure (.ok (.hello h.cfg.bookId nonce h.cfg.localPointer ⟨0⟩),
          { h with clientNonce := some nonce, phase := .helloSent })

def burnSession (h : ClientHandshake) : ClientHandshake := { h with session := none }

def abort (h : ClientHandshake) (reason : ErrorCode) : Step × ClientHandshake :=
  (.failed (.violation reason), { h.burnSession with phase := .failed })

def orderViolation (h : ClientHandshake) : Step × ClientHandshake :=
  (.failed (.violation .badOrder), { h.burnSession with phase := .failed })

def rejectPointerCombination (h : ClientHandshake) : Step × ClientHandshake :=
  (.failed (.violation .issuePointerMismatch), { h with phase := .failed })

def failIssuer (h : ClientHandshake) (e : IssueError) : Step × ClientHandshake :=
  (.failed (.issuer e), { h.burnSession with phase := .failed })

def issueAndConfirm (h : ClientHandshake) : Host (Step × ClientHandshake) :=
  match h.agreed with
  | none => pure h.orderViolation
  | some i => do
      let cp := h.cfg.localPointer
      match ← issueGap (i.get.toNat - cp.get.toNat) with
      | .error e => pure (h.failIssuer e)
      | .ok () =>
          match ← askHost .issue with
          | .error e => pure (h.failIssuer e)
          | .ok seg =>
              match h.clientNonce, h.serverNonce with
              | some clientNonce, some serverNonce => do
                  let ctx : SessionContext :=
                    { role := .client, bookId := h.cfg.bookId, segment := i, clientNonce, serverNonce }
                  let (confirm, session) ← sealConfirm (.new seg ctx) h.cfg.bookId i clientNonce
                    serverNonce .clientToServer
                  match confirm with
                  | .error e => pure (.failed e, { h.burnSession with phase := .failed })
                  | .ok confirm =>
                      pure (.send [.issueRequest i clientNonce serverNonce, confirm],
                        { h with session := some session, phase := .confirmSent })
              | _, _ => pure h.orderViolation

def onArbitrate (h : ClientHandshake) (serverNonce : Nonce16) (sp : SegmentIndex)
    (result : ArbitrateResult) : Host (Step × ClientHandshake) :=
  let cp := h.cfg.localPointer
  let n := h.cfg.segmentCount
  match result with
  | .bookMismatch => pure (.failed .bookMismatch, { h with phase := .failed })
  | .exhausted =>
      if sp.get ≠ n then pure h.rejectPointerCombination
      else pure (.failed (.exhausted sp), { h with phase := .failed })
  | .clientAhead =>
      if cp.get ≤ sp.get then pure h.rejectPointerCombination
      else pure (.failed (.clientAhead cp sp), { h with phase := .aheadRecovery })
  | .ok =>
      if sp ≠ cp then pure h.rejectPointerCombination
      else issueAndConfirm { h with serverNonce := some serverNonce, agreed := some sp }
  | .serverAhead =>
      if sp.get ≤ cp.get then pure h.rejectPointerCombination
      else issueAndConfirm
        { h with wastedGap := some (cp, sp), serverNonce := some serverNonce, agreed := some sp }

def onConfirmS2c (h : ClientHandshake) (segmentIndex : SegmentIndex) (sessionNonce : Nonce16)
    (epoch : Epoch) (seq : Sequence) (sealed : Exactly 103) : Host (Step × ClientHandshake) :=
  match h.agreed, h.clientNonce, h.serverNonce, h.session with
  | some i, some clientNonce, some serverNonce, some session => do
      let h := { h with session := none }
      match ← acceptConfirm session segmentIndex sessionNonce epoch seq sealed
        { bookId := h.cfg.bookId, segment := i, clientNonce, serverNonce
          direction := .serverToClient, msgType := confirmWire .serverToClient
          label := confirmLabel .serverToClient } with
      | .error e => pure (.failed e, { h with phase := .failed })
      | .ok session => pure (.established [] session i, { h with phase := .established })
  | _, _, _, _ => pure h.orderViolation

def handle (h : ClientHandshake) (msg : Message) : Host (Step × ClientHandshake) :=
  match h.phase, msg with
  | .helloSent, .arbitrate serverNonce sp result => h.onArbitrate serverNonce sp result
  | .confirmSent, .confirmS2c segmentIndex sessionNonce epoch seq sealed =>
      h.onConfirmS2c segmentIndex sessionNonce epoch seq sealed
  | _, _ => pure h.orderViolation

end ClientHandshake

/-! ## The public calls -/

inductive ClientCall where
  | start
  | handle (msg : Message)
  | abort (reason : ErrorCode)
  deriving DecidableEq, Repr

/-- What a public call of either machine gives. -/
inductive CallReply where
  | message (m : Message)
  | refused (e : HandshakeError)
  | step (s : Step)
  deriving DecidableEq, Repr

namespace CallReply

/-- `Err` or `Step::Failed`. -/
def fails : CallReply → Bool
  | .refused _ | .step (.failed _) => true
  | _ => false

def ofResult : Except HandshakeError Message → CallReply
  | .ok m => .message m
  | .error e => .refused e

end CallReply

def ClientCall.on : ClientCall → ClientHandshake → Host (CallReply × ClientHandshake)
  | .start, h => do
      let (reply, h) ← h.start
      pure (.ofResult reply, h)
  | .handle msg, h => do
      let (reply, h) ← h.handle msg
      pure (.step reply, h)
  | .abort reason, h =>
      let (reply, h) := h.abort reason
      pure (.step reply, h)

/-! ## What a call can do -/

namespace ClientHandshake

/-- Failed for good, no session held. -/
structure Dead (h : ClientHandshake) : Prop where
  ended : h.phase = .failed ∨ h.phase = .aheadRecovery
  burned : h.session = none

theorem dead_orderViolation (h : ClientHandshake) : h.orderViolation.2.Dead := ⟨.inl rfl, rfl⟩

section Rules

variable {φ σ : Type} {D : Device HostOp HostReply φ σ} {crash : σ → Prop} {I : σ → Prop}

/-- `I` is what every issued segment, and every failure, leaves true. -/
theorem wp_issueGap {post : Except IssueError Unit → σ → Prop} (n : Nat) {st : σ} (start : I st)
    (issues : ∀ fate st, I st → match D .issue fate st with
      | (some _, st') => I st'
      | (none, st') => crash st')
    (ends : ∀ r st', I st' → post r st') : (issueGap n).wp D post crash st := by
  induction n generalizing st with
  | zero => exact ends _ st start
  | succ n ih =>
      intro fate
      have issued := issues fate st start
      revert issued
      generalize D .issue fate st = given
      rcases given with ⟨_ | _ | seg, st'⟩
      · exact id
      · exact ends _ st'
      · exact ih

/-- From any state in `I`: if the issuer gives a segment and the cipher a record, the
machine is in `ConfirmSent` with a session on that segment, and `post` holds. -/
def Sends (D : Device HostOp HostReply φ σ) (crash I : σ → Prop)
    (post : Step × ClientHandshake → σ → Prop) (cfg : ClientConfig)
    (wastedGap : Option (SegmentIndex × SegmentIndex)) (i : SegmentIndex)
    (clientNonce serverNonce : Nonce16) : Prop :=
  ∀ fate st, I st → match D .issue fate st with
    | (some (.ok seg), st') =>
        let ctx : SessionContext :=
          { role := .client, bookId := cfg.bookId, segment := i, clientNonce, serverNonce }
        ∀ fate, match D (.encrypt ((SessionKeys.split seg).keyFor .clientToServer)
            (recordNonce ctx.nonceDomain .clientToServer .zero)
            (ctx.buildAad (confirmType .clientToServer) .clientToServer ⟨0⟩ .zero)
            (encodeConfirmBody
              (sealedBody cfg.bookId i clientNonce serverNonce .clientToServer))) fate st' with
          | (some none, st'') => I st''
          | (some (some (ciphertext, tag)), st'') =>
              ∃ fits : (ciphertext ++ tag.val).length = 103,
                post (.send [.issueRequest i clientNonce serverNonce,
                    .confirmC2s i ctx.sessionNonce ⟨0⟩ .zero ⟨ciphertext ++ tag.val, fits⟩],
                  { cfg, wastedGap
                    phase := .confirmSent
                    clientNonce := some clientNonce
                    serverNonce := some serverNonce
                    agreed := some i
                    session := some { Session.new seg ctx with sendSeq := ⟨⟨1⟩, .zero⟩ } }) st''
          | (none, st'') => crash st''
    | _ => True

variable {st : σ} {h : ClientHandshake} {post : Step × ClientHandshake → σ → Prop}

/-- What `issue_and_confirm` can do. -/
theorem wp_issueAndConfirm (start : I st)
    (failed : ∀ e h' st', h'.Dead → I st' → post (.failed e, h') st')
    (issues : ∀ fate st, I st → match D .issue fate st with
      | (some _, st') => I st'
      | (none, st') => crash st')
    (sends : ∀ i clientNonce serverNonce, h.agreed = some i → h.clientNonce = some clientNonce →
      h.serverNonce = some serverNonce →
      Sends D crash I post h.cfg h.wastedGap i clientNonce serverNonce) :
    h.issueAndConfirm.wp D post crash st := by
  have dead : ∀ e st', I st' → post (.failed e, { h.burnSession with phase := .failed }) st' :=
    fun e st' inv => failed e _ st' ⟨.inl rfl, rfl⟩ inv
  unfold issueAndConfirm
  cases agreed : h.agreed with
  | none => exact dead _ st start
  | some i =>
      dsimp only
      rw [wp_bind]
      apply wp_issueGap _ start issues
      rintro (e | _) st' inv
      · exact dead _ st' inv
      intro fate
      have issued := issues fate st' inv
      have sent := fun c s hc hs => sends i c s agreed hc hs fate st' inv
      revert issued sent
      generalize D .issue fate st' = given
      rcases given with ⟨_ | e | seg, st''⟩
      · exact fun crashed _ => crashed
      · exact fun inv _ => dead _ st'' inv
      · intro inv sent
        cases client : h.clientNonce with
        | none => exact dead _ st'' inv
        | some clientNonce =>
            cases server : h.serverNonce with
            | none => exact dead _ st'' inv
            | some serverNonce =>
                show Program.wp D post crash (sealConfirm _ _ _ _ _ _ >>= _) st''
                rw [wp_bind]
                refine wp_sealConfirm rfl rfl rfl (show _ = Direction.clientToServer from rfl) ?_
                intro fate
                have answer := sent clientNonce serverNonce client server fate
                revert answer
                dsimp only [Session.new]
                generalize D _ fate st'' = given
                rcases given with ⟨_ | _ | ⟨ciphertext, tag⟩, st3⟩
                · exact id
                · exact dead _ st3
                · exact id

/-- What `on_arbitrate` can do. -/
theorem wp_onArbitrate (start : I st) (quiet : h.session = none)
    (failed : ∀ e h' st', h'.Dead → I st' → post (.failed e, h') st')
    (issues : ∀ fate st, I st → match D .issue fate st with
      | (some _, st') => I st'
      | (none, st') => crash st')
    (sends : ∀ gap i clientNonce serverNonce, h.clientNonce = some clientNonce →
      Sends D crash I post h.cfg gap i clientNonce serverNonce)
    (serverNonce : Nonce16) (sp : SegmentIndex) (result : ArbitrateResult) :
    (h.onArbitrate serverNonce sp result).wp D post crash st := by
  cases result with
  | bookMismatch => exact failed _ _ st ⟨.inl rfl, quiet⟩ start
  | exhausted =>
      show Program.wp D post crash (if _ then _ else _) st
      split
      · exact failed _ _ st ⟨.inl rfl, quiet⟩ start
      · exact failed _ _ st ⟨.inl rfl, quiet⟩ start
  | clientAhead =>
      show Program.wp D post crash (if _ then _ else _) st
      split
      · exact failed _ _ st ⟨.inl rfl, quiet⟩ start
      · exact failed _ _ st ⟨.inr rfl, quiet⟩ start
  | ok =>
      show Program.wp D post crash (if _ then _ else _) st
      split
      · exact failed _ _ st ⟨.inl rfl, quiet⟩ start
      · apply wp_issueAndConfirm start failed issues
        intro i clientNonce serverNonce _ client _
        exact sends _ i clientNonce serverNonce client
  | serverAhead =>
      show Program.wp D post crash (if _ then _ else _) st
      split
      · exact failed _ _ st ⟨.inl rfl, quiet⟩ start
      · apply wp_issueAndConfirm start failed issues
        intro i clientNonce serverNonce _ client _
        exact sends _ i clientNonce serverNonce client

/-- **What `handle` can do.** -/
theorem wp_handle (I : σ → Prop) (start : I st) (quiet : h.phase = .helloSent → h.session = none)
    (own : ∀ session, h.session = some session → session.Coherent ∧ session.ctx.role = .client)
    (failed : ∀ e h' st', h'.Dead → I st' → post (.failed e, h') st')
    (issues : ∀ fate st, I st → match D .issue fate st with
      | (some _, st') => I st'
      | (none, st') => crash st')
    (sends : ∀ gap i clientNonce serverNonce, h.phase = .helloSent →
      h.clientNonce = some clientNonce →
      Sends D crash I post h.cfg gap i clientNonce serverNonce)
    (msg : Message)
    (establishes : ∀ i session keys segmentIndex sessionNonce epoch seq sealed,
      h.phase = .confirmSent → h.agreed = some i → h.session = some session →
      session.keys = some keys → msg = .confirmS2c segmentIndex sessionNonce epoch seq sealed →
      ∀ fate, match D (.decrypt (keys.keyFor .serverToClient)
          (recordNonce session.domain .serverToClient .zero)
          (session.ctx.buildAad (confirmType .serverToClient) .serverToClient ⟨0⟩ .zero)
          (splitTag sealed.val).1 (splitTag sealed.val).2) fate st with
        | (some none, st') => I st'
        | (some (some _), st') => I st' ∧
            post (.established [] { session with
                recvLast := session.recvLast.set .serverToClient (some .zero) } i,
              { h with phase := .established, session := none }) st'
        | (none, st') => crash st') :
    (h.handle msg).wp D post crash st := by
  unfold handle
  split
  · rename_i serverNonce sp result phase
    exact wp_onArbitrate start (quiet phase) failed issues
      (fun gap i c s client => sends gap i c s phase client) serverNonce sp result
  · rename_i segmentIndex sessionNonce epoch seq sealed phase
    unfold onConfirmS2c
    split
    · rename_i i clientNonce serverNonce session agreed client server held
      obtain ⟨coherent, role⟩ := own session held
      have dead : ∀ e st', I st' → post (.failed e, { h with phase := .failed, session := none }) st' :=
        fun e st' inv => failed e _ st' ⟨.inl rfl, rfl⟩ inv
      show Program.wp D post crash (acceptConfirm _ _ _ _ _ _ _ >>= _) st
      rw [wp_bind]
      refine wp_acceptConfirm coherent (show _ = Direction.serverToClient by rw [role]; rfl)
        (fun e => dead e st start) ?_
      intro keys _ given fate
      have answer := establishes i session keys segmentIndex sessionNonce epoch seq sealed phase
        agreed held given rfl fate
      revert answer
      dsimp only
      generalize D _ fate st = given
      rcases given with ⟨_ | _ | payload, st'⟩
      · exact id
      · exact fun inv e => dead e st' inv
      · exact fun both => ⟨fun e => dead e st' both.1, both.2⟩
    · exact failed _ _ st h.dead_orderViolation start
  · exact failed _ _ st h.dead_orderViolation start

end Rules

end ClientHandshake

end Jbuu
