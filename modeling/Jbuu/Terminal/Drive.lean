/-
# Terminal.Drive — the loop that serves a connection, next to all the others

`drive` and `drain_pty` of `otp-terminal/src/server.rs` over the registry and its terminals,
cut at every access to what connections share and at every call of the transport. A
connection is where it is in `drive` with the locals it has there; what comes from outside
(a frame received, the fate of a send, how much the kernel takes or hands over) is the input
of a step. So a run is any interleaving of any number of connections with the children's
output and ends and with time.

Some ways through the loop are not what one expects, and the model has them as the code
has: a write that is rejected leaves the loop over the slices but not the turn, which goes
on to drain; a drain that fails between slices is followed by the drain of the turn, with
`pending` as it was; once the exit is sent the lease is not looked at again.
-/
import Mathlib.Logic.Function.Basic
import Jbuu.Session.DataFrames
import Jbuu.Terminal.Hub

namespace Jbuu.Terminal

set_option autoImplicit false

open Jbuu.Library.BigEndian (Bytes)
open Jbuu.Transport (TransportError)

/-- What `drive` uses of `ServeOptions`. -/
structure ServeOptions where
  firstFrameTimeout : Nat
  exitGrace : Nat

inductive ServeEnd where
  | shellExited (code : Int32)
  | peerClosed
  | fenced
  | leaseExpired
  | deniedBusy
  | deniedGone
  | protocol
  | failed (e : TerminalError)
  deriving DecidableEq

structure ServeSummary where
  handle : UInt64
  token : FencingToken
  inputBytes : UInt64
  outputBytes : UInt64
  exit : Option ExitStatus
  ends : ServeEnd
  deriving DecidableEq

/-- `u64::saturating_add`. -/
def saturatingAdd (a : UInt64) (n : Nat) : UInt64 := .ofNat (min (a.toNat + n) (2 ^ 64 - 1))

/-- Where a connection is in `drive`. A drain goes back to the slices still to be written
(`some`), or on with the turn (`none`). -/
inductive DriveStage where
  | starting
  | first
  | opening
  | finding
  | denying (reason : DenyReason)
  | acquiring
  | granting
  | aligning
  | receiving
  | beating (f : TerminalFrame)
  | writing (slice : Bytes) (rest : List Bytes)
  | resizing
  | draining (next : Option (List Bytes))
  | sending (chunk : Bytes) (rest : List Bytes) (next : Option (List Bytes))
  /-- `second`: the exit is known, the status is asked again -/
  | polling (second : Bool)
  | exiting (status : ExitStatus)
  | gracing
  | checking
  /-- not current any more, the snapshot not yet taken -/
  | judging
  | leaving
  /-- the grant is dropped -/
  | retiring
  | delisting
  /-- `drive` returns an error, the grant not yet dropped -/
  | failing (e : TerminalError)
  | ended (result : Except TerminalError ServeSummary)
  | panicked
  deriving DecidableEq

structure Drive where
  stage : DriveStage
  conn : ConnId
  deadline : Nat
  handle : UInt64
  window : WindowSize
  token : FencingToken
  inputBytes : UInt64
  outputBytes : UInt64
  exit : Option ExitStatus
  ends : Option ServeEnd
  exitSentAt : Option Nat
  ptyEof : Bool
  pending : Bytes
  /-- the frames the loop received -/
  frames : List TerminalFrame
  /-- the frames that went out -/
  sent : List TerminalFrame
  /-- how much had been read of the terminal when the lease was granted -/
  base : Nat

/-- What a step gets from outside. -/
inductive DriveAct where
  | go
  | recv (outcome : RecvOutcome)
  /-- the result of a send, or of a call whose only result is an error -/
  | done (result : Except TerminalError Unit)
  | spawned (ok : Bool)
  | write (rounds : List WriteRound)
  /-- how much the kernel hands over; `none` where the read fails -/
  | read (n : Option Nat)
  | waited (ok : Bool)

namespace Drive

def start (conn : ConnId) : Drive where
  stage := .starting
  conn := conn
  deadline := 0
  handle := 0
  window := ⟨0, 0⟩
  token := ⟨0⟩
  inputBytes := 0
  outputBytes := 0
  exit := none
  ends := none
  exitSentAt := none
  ptyEof := false
  pending := []
  frames := []
  sent := []
  base := 0

def at_ (c : Drive) (stage : DriveStage) : Drive := { c with stage }

/-- `end` is set. -/
def ending (c : Drive) (ends : ServeEnd) : Drive := { c with ends := some ends }

/-- A frame went out. -/
def sends (c : Drive) (f : TerminalFrame) : Drive := { c with sent := c.sent ++ [f] }

/-- What an early `return Ok` of a connection without a lease says. -/
def denied (c : Drive) (ends : ServeEnd) : ServeSummary where
  handle := c.handle
  token := ⟨0⟩
  inputBytes := 0
  outputBytes := 0
  exit := none
  ends := ends

def summary (c : Drive) : ServeSummary where
  handle := c.handle
  token := c.token
  inputBytes := c.inputBytes
  outputBytes := c.outputBytes
  exit := c.exit
  ends := c.ends.getD .peerClosed

/-- The slices in which the data of an `Input` frame is written. -/
def slices (data : Bytes) : List Bytes :=
  (chunkInput data).flatMap (chunks ptyWriteSlice (by decide))

/-- On to what `next` says. -/
def goes (c : Drive) (next : Drive → DriveStage) : Drive := c.at_ (next c)

/-- The turn is over: another one, unless `end` is set. -/
def again (c : Drive) : DriveStage := if c.ends = none then .receiving else .leaving

/-- On to the lease check. -/
def check (c : Drive) : DriveStage := if c.ends = none ∧ c.exitSentAt = none then .checking else c.again

/-- On to the grace period, if the exit is sent. -/
def grace (c : Drive) : DriveStage := if c.exitSentAt.isSome then .gracing else c.check

/-- On from the drain of the turn. -/
def turn (c : Drive) : DriveStage := if c.exit = none then .polling c.ptyEof else c.grace

/-- The drain of the turn. -/
def drainTurn (c : Drive) : DriveStage := if c.ptyEof then c.turn else .draining none

/-- On with the slices of an input. -/
def goOn (slices : List Bytes) (c : Drive) : DriveStage :=
  match slices with
  | [] => c.drainTurn
  | slice :: rest => .writing slice rest

/-- The drain after a slice. -/
def drainBetween (rest : List Bytes) (c : Drive) : DriveStage :=
  if c.ptyEof then c.goOn rest else .draining (some rest)

/-- `drain_pty` returned `Ok`. -/
def drained (next : Option (List Bytes)) (c : Drive) : DriveStage :=
  match next with
  | none => c.turn
  | some rest => c.goOn rest

/-- `drain_pty` returned an error: `break` in the turn, and between slices `break 'input`, out
of the slices and on to the drain of the turn. -/
def drainFailed (next : Option (List Bytes)) (c : Drive) : DriveStage :=
  match next with
  | none => .leaving
  | some _ => c.drainTurn

/-- What was read goes out in chunks. -/
def flush (next : Option (List Bytes)) (c : Drive) : DriveStage :=
  match chunkInput c.pending with
  | [] => c.drained next
  | chunk :: rest => .sending chunk rest next

/-- The end of a connection that is closed while it receives. -/
def closedEnd : TerminalError → ServeEnd
  | .transport .closedByPeer => .peerClosed
  | other => .failed other

/-- A frame, after the heartbeat it stands for. -/
def handles (fresh : Bool) (c : Drive) : TerminalFrame → Drive
  | .input data => if fresh then c.goes (goOn (slices data)) else (c.ending .fenced).at_ .leaving
  | .resize rows cols =>
      if fresh then { c with window := ⟨rows, cols⟩ }.at_ .resizing else (c.ending .fenced).at_ .leaving
  | .ping => c.goes drainTurn
  | _ => (c.ending .protocol).at_ .leaving

/-- One step of a connection on its terminal. -/
def onHub (opts : ServeOptions) (now : Nat) (act : DriveAct) (c : Drive) (h : PtyHub) : Drive × PtyHub :=
  match c.stage, act with
  | .acquiring, .go =>
      match h.acquire now c.conn with
      | (none, h') => (c.at_ .panicked, h')
      | (some (.error _), h') => (c.at_ (.denying .busy), h')
      | (some (.ok grant), h') =>
          ({ c with token := grant.token, base := h.pty.emitted.length - h.pty.output.length }.at_ .granting, h')
  | .granting, .done (.ok ()) => ((c.sends (.granted c.handle c.token.get)).at_ .aligning, h)
  | .granting, .done (.error e) => (c.at_ (.failing e), h)
  -- the result of this resize is dropped
  | .aligning, .done _ => (c.at_ .receiving, h)
  | .receiving, .recv (.frame f) => ({ c with frames := c.frames ++ [f] }.at_ (.beating f), h)
  | .receiving, .recv .timeout => (c.goes drainTurn, h)
  | .receiving, .recv (.closed e) =>
      if c.exitSentAt.isSome then (c.goes drainTurn, h) else ((c.ending (closedEnd e)).at_ .leaving, h)
  | .beating f, .go =>
      (c.handles (h.heartbeat now c.token).1.toBool f, (h.heartbeat now c.token).2)
  | .writing slice rest, .write rounds =>
      match h.writeInput now c.token slice rounds with
      | (.ok (), h) =>
          ({ c with inputBytes := saturatingAdd c.inputBytes slice.length }.goes (drainBetween rest), h)
      | (.error .staleWriter, h) => ((c.ending .fenced).goes drainTurn, h)
      | (.error e, h) => ((c.ending (.failed e)).goes drainTurn, h)
  | .resizing, .done result =>
      match h.resize now c.token result.toBool with
      | .error .staleWriter => ((c.ending .fenced).at_ .leaving, h)
      | _ => (c.goes drainTurn, h)
  | .draining next, .read none => ((c.ending (.failed .io)).goes (drainFailed next), h)
  | .draining next, .read (some n) =>
      let h' := (h.drainOutput n).2.noteDrain now c.token (h.drainOutput n).1
      match (h.drainOutput n).1 with
      | .data bytes =>
          let c' := { c with pending := c.pending ++ bytes }
          (if dataChunkMax ≤ c'.pending.length then c'.goes (flush next) else c', h')
      | .eof => ({ c with ptyEof := true }.goes (flush next), h')
      | .timeout => (c.goes (flush next), h')
  | .sending chunk rest next, .done (.ok ()) =>
      let c' := { c.sends (.output chunk) with outputBytes := saturatingAdd c.outputBytes chunk.length }
      match rest with
      | [] => ({ c' with pending := [] }.goes (drained next), h)
      | chunk :: rest => (c'.at_ (.sending chunk rest next), h)
  | .sending _ _ next, .done (.error e) => ((c.ending (.failed e)).goes (drainFailed next), h)
  | .polling second, .waited ok =>
      match h.pollExit ok with
      | (none, h) => (c.goes grace, h)
      | (some status, h) =>
          (if second then { c with exit := some status }.at_ (.exiting status) else c.at_ (.polling true), h)
  | .exiting status, .done (.ok ()) =>
      ({ c.sends (.exit status.code) with exitSentAt := some now }.at_ .gracing, h)
  | .exiting _, .done (.error e) => (c.at_ (.failing e), h)
  | .gracing, .go =>
      match c.exitSentAt with
      | some sentAt =>
          if opts.exitGrace ≤ now - sentAt then
            ((c.ending (.shellExited ((c.exit.map (·.code)).getD 0))).at_ .leaving, h)
          else (c.goes check, h)
      | none => (c.goes check, h)
  | .checking, .go => (if h.leaseIsCurrent now c.token then c.goes again else c.at_ .judging, h)
  | .judging, .go =>
      ((c.ending (if c.token.get < h.lease.inner.token then .fenced else .leaseExpired)).at_ .leaving, h)
  | .leaving, .go => (c.at_ .retiring, h.dropGrant c.token)
  | .retiring, .go => (c.at_ (if h.hasExited then .delisting else .ended (.ok c.summary)), h)
  | .failing e, .go => (c.at_ (.ended (.error e)), h.dropGrant c.token)
  | _, _ => (c, h)

end Drive

/-! ## The registry, and all connections -/

structure TerminalRegistry where
  leaseTimeout : Nat
  connCounter : UInt64
  nextHandle : UInt64
  /-- The handles that `find` knows. -/
  hubs : List UInt64

structure World where
  opts : ServeOptions
  clock : Nat
  registry : TerminalRegistry
  /-- Every terminal there is or was, registered or only held by its connections. -/
  hub : UInt64 → Option PtyHub
  conns : List Drive

inductive WorldEvent where
  | connect
  | pass (time : Nat)
  | emit (handle : UInt64) (bytes : Bytes)
  | hangUp (handle : UInt64)
  | exits (handle : UInt64) (status : ChildEnd)
  | conn (k : Nat) (act : DriveAct)

namespace World

def start (opts : ServeOptions) (leaseTimeout : Nat) : World where
  opts := opts
  clock := 0
  registry := { leaseTimeout, connCounter := 0, nextHandle := 1, hubs := [] }
  hub _ := none
  conns := []

def setConn (w : World) (k : Nat) (c : Drive) : World := { w with conns := w.conns.set k c }

def setHub (w : World) (handle : UInt64) (h : PtyHub) : World :=
  { w with hub := Function.update w.hub handle (some h) }

/-- Something happens to the PTY of a terminal. -/
def onPty (w : World) (handle : UInt64) (f : Pty → Pty) : World :=
  match w.hub handle with
  | none => w
  | some h => w.setHub handle { h with pty := f h.pty }

/-- `TerminalRegistry::open` for the connection `k`. -/
def open_ (w : World) (k : Nat) (c : Drive) (spawned : Bool) : World :=
  match checkedAdd w.registry.nextHandle 1 with
  | none => w.setConn k (c.at_ .panicked)
  | some nextHandle =>
      let handle := w.registry.nextHandle
      let w := { w with registry := { w.registry with nextHandle } }
      if spawned then
        match PtyHub.fromParts w.registry.leaseTimeout w.clock with
        | none => w.setConn k (c.at_ .panicked)
        | some h =>
            ({ w with registry := { w.registry with hubs := w.registry.hubs ++ [handle] } }.setHub handle h).setConn k
              ({ c with handle }.at_ .acquiring)
      else w.setConn k (c.at_ (.ended (.error .io)))

/-- One step of the connection `k`. -/
def connStep (w : World) (k : Nat) (c : Drive) (act : DriveAct) : World :=
  match c.stage, act with
  | .starting, .done (.ok ()) =>
      w.setConn k ({ c with deadline := w.clock + w.opts.firstFrameTimeout }.at_ .first)
  | .starting, .done (.error e) => w.setConn k (c.at_ (.ended (.error e)))
  | .first, .recv (.frame (.open rows cols)) => w.setConn k ({ c with window := ⟨rows, cols⟩ }.at_ .opening)
  | .first, .recv (.frame (.attach handle rows cols)) =>
      w.setConn k ({ c with handle, window := ⟨rows, cols⟩ }.at_ .finding)
  | .first, .recv (.frame _) => w.setConn k (c.at_ (.ended (.error .protocol)))
  | .first, .recv (.closed e) => w.setConn k (c.at_ (.ended (.error e)))
  | .first, .recv .timeout =>
      if c.deadline ≤ w.clock then w.setConn k (c.at_ (.ended (.error .protocol))) else w
  | .opening, .spawned ok => w.open_ k c ok
  | .finding, .go =>
      w.setConn k (c.at_ (if c.handle ∈ w.registry.hubs then .acquiring else .denying .gone))
  | .denying reason, .done (.ok ()) =>
      let c := c.sends (.denied reason)
      w.setConn k (c.at_ (.ended (.ok (c.denied (if reason = .gone then .deniedGone else .deniedBusy)))))
  | .denying _, .done (.error e) => w.setConn k (c.at_ (.ended (.error e)))
  | .delisting, .go =>
      { w with registry := { w.registry with hubs := w.registry.hubs.filter (· ≠ c.handle) } }.setConn k
        (c.at_ (.ended (.ok c.summary)))
  | _, _ =>
      match w.hub c.handle with
      | none => w
      | some h => (w.setHub c.handle (c.onHub w.opts w.clock act h).2).setConn k (c.onHub w.opts w.clock act h).1

def step (event : WorldEvent) (w : World) : World :=
  match event with
  | .connect =>
      { w with
        registry := { w.registry with connCounter := w.registry.connCounter + 1 }
        conns := w.conns ++ [Drive.start (w.registry.connCounter + 1)] }
  | .pass time => { w with clock := w.clock + time }
  | .emit handle bytes => w.onPty handle (.emit bytes)
  | .hangUp handle => w.onPty handle .hangUp
  | .exits handle status => w.onPty handle (.ends status)
  | .conn k act =>
      match w.conns[k]? with
      | none => w
      | some c => w.connStep k c act

end World

/-! ## What one step does -/

namespace Drive

/-- What a step of a connection on its terminal does, case by case. -/
inductive Moves (opts : ServeOptions) (now : Nat) (act : DriveAct) (c : Drive) (h : PtyHub) :
    Drive × PtyHub → Prop where
  | stays : Moves opts now act c h (c, h)
  | panics (was : c.stage = .acquiring) (out : (h.acquire now c.conn).1 = none) :
      Moves opts now act c h (c.at_ .panicked, (h.acquire now c.conn).2)
  | busy (denied : LeaseDenied) (was : c.stage = .acquiring)
      (out : (h.acquire now c.conn).1 = some (.error denied)) :
      Moves opts now act c h (c.at_ (.denying .busy), (h.acquire now c.conn).2)
  | granted (grant : LeaseGrant) (was : c.stage = .acquiring)
      (out : (h.acquire now c.conn).1 = some (.ok grant)) :
      Moves opts now act c h
        ({ c with token := grant.token, base := h.pty.emitted.length - h.pty.output.length }.at_ .granting,
          (h.acquire now c.conn).2)
  | announces (was : c.stage = .granting) :
      Moves opts now act c h ((c.sends (.granted c.handle c.token.get)).at_ .aligning, h)
  | fails (e : TerminalError) (was : c.stage = .granting ∨ ∃ status, c.stage = .exiting status) :
      Moves opts now act c h (c.at_ (.failing e), h)
  | aligns (was : c.stage = .aligning) : Moves opts now act c h (c.at_ .receiving, h)
  | receives (f : TerminalFrame) (was : c.stage = .receiving) (came : act = .recv (.frame f)) :
      Moves opts now act c h ({ c with frames := c.frames ++ [f] }.at_ (.beating f), h)
  | idles (was : c.stage = .receiving)
      (came : act = .recv .timeout ∨ ∃ e, act = .recv (.closed e) ∧ c.exitSentAt.isSome = true) :
      Moves opts now act c h (c.goes drainTurn, h)
  | hangsUp (ends : ServeEnd) (was : c.stage = .receiving) :
      Moves opts now act c h ((c.ending ends).at_ .leaving, h)
  | beats (f : TerminalFrame) (was : c.stage = .beating f) (going : act = .go) :
      Moves opts now act c h (c.handles (h.heartbeat now c.token).1.toBool f, (h.heartbeat now c.token).2)
  | writes (slice : Bytes) (rest : List Bytes) (rounds : List WriteRound) (was : c.stage = .writing slice rest)
      (came : act = .write rounds) (out : (h.writeInput now c.token slice rounds).1 = .ok ()) :
      Moves opts now act c h
        ({ c with inputBytes := saturatingAdd c.inputBytes slice.length }.goes (drainBetween rest),
          (h.writeInput now c.token slice rounds).2)
  | rejected (slice : Bytes) (rest : List Bytes) (rounds : List WriteRound) (ends : ServeEnd)
      (was : c.stage = .writing slice rest) (came : act = .write rounds)
      (out : (h.writeInput now c.token slice rounds).1 ≠ .ok ()) :
      Moves opts now act c h ((c.ending ends).goes drainTurn, (h.writeInput now c.token slice rounds).2)
  | resizes (set : Bool) (was : c.stage = .resizing) (out : h.resize now c.token set ≠ .error .staleWriter) :
      Moves opts now act c h (c.goes drainTurn, h)
  | outdated (was : c.stage = .resizing) : Moves opts now act c h ((c.ending .fenced).at_ .leaving, h)
  | readFails (next : Option (List Bytes)) (was : c.stage = .draining next) :
      Moves opts now act c h ((c.ending (.failed .io)).goes (drainFailed next), h)
  | reads (next : Option (List Bytes)) (n : Nat) (bytes : Bytes) (was : c.stage = .draining next)
      (came : act = .read (some n)) (out : (h.drainOutput n).1 = .data bytes) :
      Moves opts now act c h
        (if dataChunkMax ≤ (c.pending ++ bytes).length then { c with pending := c.pending ++ bytes }.goes (flush next)
          else { c with pending := c.pending ++ bytes },
          (h.drainOutput n).2.noteDrain now c.token (.data bytes))
  | readsNothing (next : Option (List Bytes)) (n : Nat) (eof : Bool) (was : c.stage = .draining next)
      (out : (h.drainOutput n).1 = if eof then .eof else .timeout) :
      Moves opts now act c h ({ c with ptyEof := c.ptyEof || eof }.goes (flush next), (h.drainOutput n).2)
  | sendsLast (chunk : Bytes) (next : Option (List Bytes)) (was : c.stage = .sending chunk [] next) :
      Moves opts now act c h
        ({ c.sends (.output chunk) with
            outputBytes := saturatingAdd c.outputBytes chunk.length, pending := [] }.goes (drained next), h)
  | sendsMore (chunk other : Bytes) (rest : List Bytes) (next : Option (List Bytes))
      (was : c.stage = .sending chunk (other :: rest) next) :
      Moves opts now act c h
        ({ c.sends (.output chunk) with
            outputBytes := saturatingAdd c.outputBytes chunk.length }.at_ (.sending other rest next), h)
  | sendFails (chunk : Bytes) (rest : List Bytes) (next : Option (List Bytes)) (e : TerminalError)
      (was : c.stage = .sending chunk rest next) (came : act = .done (.error e)) :
      Moves opts now act c h ((c.ending (.failed e)).goes (drainFailed next), h)
  | pollsRunning (second ok : Bool) (was : c.stage = .polling second) (out : (h.pollExit ok).1 = none) :
      Moves opts now act c h (c.goes grace, (h.pollExit ok).2)
  | pollsFirst (ok : Bool) (was : c.stage = .polling false) :
      Moves opts now act c h (c.at_ (.polling true), (h.pollExit ok).2)
  | pollsExit (ok : Bool) (status : ExitStatus) (was : c.stage = .polling true) (came : act = .waited ok)
      (out : (h.pollExit ok).1 = some status) :
      Moves opts now act c h ({ c with exit := some status }.at_ (.exiting status), (h.pollExit ok).2)
  | exits (status : ExitStatus) (was : c.stage = .exiting status) :
      Moves opts now act c h ({ c.sends (.exit status.code) with exitSentAt := some now }.at_ .gracing, h)
  | graceOver (ends : ServeEnd) (was : c.stage = .gracing) :
      Moves opts now act c h ((c.ending ends).at_ .leaving, h)
  | graceGoes (was : c.stage = .gracing) : Moves opts now act c h (c.goes check, h)
  | checks (was : c.stage = .checking) (current : h.Current now c.token) : Moves opts now act c h (c.goes again, h)
  | lapses (was : c.stage = .checking) (lost : ¬h.Current now c.token) : Moves opts now act c h (c.at_ .judging, h)
  | judged (ends : ServeEnd) (was : c.stage = .judging) :
      Moves opts now act c h ((c.ending ends).at_ .leaving, h)
  | leaves (was : c.stage = .leaving) : Moves opts now act c h (c.at_ .retiring, h.dropGrant c.token)
  | retires (was : c.stage = .retiring) :
      Moves opts now act c h (c.at_ (if h.hasExited then .delisting else .ended (.ok c.summary)), h)
  | returns (e : TerminalError) (was : c.stage = .failing e) :
      Moves opts now act c h (c.at_ (.ended (.error e)), h.dropGrant c.token)

theorem onHub_moves (opts : ServeOptions) (now : Nat) (act : DriveAct) (c : Drive) (h : PtyHub) :
    Moves opts now act c h (c.onHub opts now act h) := by
  unfold onHub
  split
  case h_1 was =>
    have panics := @Moves.panics opts now .go c h was
    have busy := fun denied => @Moves.busy opts now .go c h denied was
    have granted := fun grant => @Moves.granted opts now .go c h grant was
    revert panics busy granted
    generalize h.acquire now c.conn = result
    intro panics busy granted
    rcases result with ⟨_ | denied | grant, h'⟩
    · exact panics rfl
    · exact busy denied rfl
    · exact granted grant rfl
  case h_2 was => exact .announces was
  case h_3 was => exact .fails _ (.inl was)
  case h_4 was => exact .aligns was
  case h_5 was => exact .receives _ was rfl
  case h_6 was => exact .idles was (.inl rfl)
  case h_7 e was =>
    split
    · rename_i sent
      exact .idles was (.inr ⟨e, rfl, sent⟩)
    · exact .hangsUp _ was
  case h_8 was => exact .beats _ was rfl
  case h_9 slice rest rounds was =>
    have writes := @Moves.writes opts now (.write rounds) c h slice rest rounds was rfl
    have rejected := fun ends => @Moves.rejected opts now (.write rounds) c h slice rest rounds ends was rfl
    revert writes rejected
    generalize h.writeInput now c.token slice rounds = result
    intro writes rejected
    split
    · exact writes rfl
    · exact rejected _ nofun
    · exact rejected _ nofun
  case h_10 result was =>
    split
    · exact .outdated was
    · rename_i other
      exact .resizes _ was other
  case h_11 was => exact .readFails _ was
  case h_12 next n was =>
    dsimp only
    split
    · rename_i bytes out
      have reads := @Moves.reads opts now (.read (some n)) c h next n bytes was rfl out
      rw [out]
      exact reads
    · rename_i out
      have reads := @Moves.readsNothing opts now (.read (some n)) c h next n true was out
      rw [out, Bool.or_true] at *
      exact reads
    · rename_i out
      have reads := @Moves.readsNothing opts now (.read (some n)) c h next n false was out
      rw [out, Bool.or_false] at *
      exact reads
  case h_13 chunk rest next was =>
    dsimp only
    split
    · exact .sendsLast chunk next was
    · rename_i other rest
      exact .sendsMore chunk other rest next was
  case h_14 was => exact .sendFails _ _ _ _ was rfl
  case h_15 second ok was =>
    have running := @Moves.pollsRunning opts now (.waited ok) c h second ok was
    have first := fun (same : second = false) => @Moves.pollsFirst opts now (.waited ok) c h ok (same ▸ was)
    have exit := fun (same : second = true) status => @Moves.pollsExit opts now (.waited ok) c h ok status (same ▸ was) rfl
    revert running first exit
    generalize h.pollExit ok = result
    intro running first exit
    rcases result with ⟨_ | status, h'⟩
    · exact running rfl
    · cases second with
      | false => exact first rfl
      | true => exact exit rfl status rfl
  case h_16 was => exact .exits _ was
  case h_17 was => exact .fails _ (.inr ⟨_, was⟩)
  case h_18 was =>
    split
    · split
      · exact .graceOver _ was
      · exact .graceGoes was
    · exact .graceGoes was
  case h_19 was =>
    split
    · rename_i current
      exact .checks was current
    · rename_i lost
      exact .lapses was lost
  case h_20 was => exact .judged _ was
  case h_21 was => exact .leaves was
  case h_22 was => exact .retires was
  case h_23 was => exact .returns _ was
  case h_24 => exact .stays

end Drive

end Jbuu.Terminal
