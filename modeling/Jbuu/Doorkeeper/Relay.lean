/-
# Doorkeeper.Relay — one connection: its handler and its two pipe threads

`handle_conn`, `pipe` and `pipe_one` of `otp-doorkeeper/src/proxy.rs`, cut at every socket
operation and at every access to what the threads share: the slot of the first error, the
byte counters, and the two sockets, which either thread shuts down for both. What a socket
answers is the input of a step, so a run is any schedule of the threads with any answers.

The handler also tells what it logs. As ghosts, a connection keeps what each direction has
read and delivered, how much was delivered at the shutdown of a destination, and the sides
whose operation failed before the relay had shut any socket down for good.
-/
import Jbuu.Types

namespace Jbuu.Doorkeeper

set_option autoImplicit false

open Jbuu.Library.BigEndian (Bytes)

/-- `PIPE_BUF_SIZE`. -/
def pipeBufSize : Nat := 16 * 1024

inductive Side where
  | client
  | upstream
  deriving DecidableEq, Repr

def writeSide : Side → Side
  | .client => .upstream
  | .upstream => .client

/-- The side that a direction reads from. -/
def readSide : Direction → Side
  | .clientToServer => .client
  | .serverToClient => .upstream

/-- The kinds of socket errors the code tells apart. -/
inductive ErrorKind where
  | interrupted
  | connectionReset
  | brokenPipe
  | connectionAborted
  | writeZero
  | other
  deriving DecidableEq, Repr

structure RelayConfig where
  warnMode : Bool
  warnLine : Bytes
  failureLine : Bool

/-- `warn::failure_line`. -/
def failureLine : Bytes :=
  ascii "NOTICE: upstream sshd unreachable via doorkeeper, try later" ++ [13, 10]

inductive Reason where
  | normal
  | clientReset
  | upstreamReset
  | warnWriteTimeout
  | upstreamUnavailable
  | overLimit
  deriving DecidableEq, Repr

def Reason.text : Reason → String
  | .normal => "normal"
  | .clientReset => "client_reset"
  | .upstreamReset => "upstream_reset"
  | .warnWriteTimeout => "warn_write_timeout"
  | .upstreamUnavailable => "upstream_unavailable"
  | .overLimit => "over_limit"

/-- What is logged of a connection. -/
inductive Record where
  | connAccept (connId : UInt64)
  | warnSent (connId : UInt64) (bytes : Nat)
  | upstreamConnect (connId : UInt64) (ok : Bool)
  | clientVersion (connId : UInt64)
  | connClose (connId : UInt64) (reason : Reason) (bytesC2s bytesS2c : UInt64)
  | connRefusedOverLimit
  | connSpawnFailed
  deriving DecidableEq, Repr

/-! ## The pipe threads -/

/-- Where a pipe thread is in `pipe_one`. -/
inductive PipeAt where
  | unborn
  | reading
  | writing (chunk : Bytes) (written : Nat)
  /-- `write_all` is done, the counter not yet raised -/
  | counting (n : Nat)
  /-- end of file, `shutdown(Write)` is next -/
  | shutting
  /-- an error, `record_err` is next -/
  | recording (side : Side)
  /-- in `hard_close`; `second` once the side that is read is shut down -/
  | closing (second : Bool)
  | ended (clean : Bool)
  deriving DecidableEq, Repr

structure Pipe where
  at_ : PipeAt
  counter : UInt64
  taken : Bytes
  delivered : Bytes
  eof : Bool
  shutAt : Option Nat
  deriving DecidableEq, Repr

namespace Pipe

def unborn : Pipe where
  at_ := .unborn
  counter := 0
  taken := []
  delivered := []
  eof := false
  shutAt := none

/-- The thread exists and has not ended. -/
def live (p : Pipe) : Bool :=
  match p.at_ with
  | .unborn => false
  | .ended _ => false
  | _ => true

def isOver (p : Pipe) : Bool :=
  match p.at_ with
  | .ended _ => true
  | _ => false

end Pipe

/-! ## The connection -/

/-- Where the handler is in `handle_conn` and `pipe`. -/
inductive Stage where
  | queued
  | numbered
  | accepted
  /-- from here on there is a guard -/
  | guarded
  | warning (written : Nat)
  | warned
  | connecting
  | failing (written : Nat)
  | cloning
  | spawning
  | spawningSecond
  | joining
  | joined
  | reported
  | closing (reason : Reason) (bytesC2s bytesS2c : UInt64)
  /-- the close record is written, the guard not yet dropped -/
  | closed
  | unwinding (guard : Bool)
  /-- the handler has ended; `released` where its guard gave the slot back -/
  | ended (released : Bool)
  deriving DecidableEq, Repr

namespace Stage

/-- The guard of the slot has been created. -/
def hasGuard : Stage → Bool
  | .queued => false
  | .numbered => false
  | .accepted => false
  | .unwinding guard => guard
  | .ended _ => false
  | _ => true

def isOver : Stage → Bool
  | .ended _ => true
  | _ => false

/-- The handler has written its close record, or never will. -/
def after : Stage → Bool
  | .closed => true
  | .unwinding _ => true
  | .ended _ => true
  | _ => false

end Stage

structure Conn where
  stage : Stage
  connId : UInt64
  firstErr : Option Side
  pipes : PerDirection Pipe
  toClient : Bytes
  hardClosed : Bool
  failed : Side → Bool

namespace Conn

/-- The thread of a connection that was just accepted. -/
def start : Conn where
  stage := .queued
  connId := 0
  firstErr := none
  pipes := ⟨.unborn, .unborn⟩
  toClient := []
  hardClosed := false
  failed _ := false

def pipe (c : Conn) (d : Direction) : Pipe := c.pipes.get d

def setPipe (c : Conn) (d : Direction) (p : Pipe) : Conn := { c with pipes := c.pipes.set d p }

/-- A socket operation of a pipe thread failed. -/
def fails (c : Conn) (d : Direction) (side : Side) : Conn :=
  { c.setPipe d { c.pipe d with at_ := .recording side } with
    failed := fun s => c.failed s || (s = side && !c.hardClosed) }

/-- The destination of a direction took some bytes. -/
def deliver (c : Conn) (d : Direction) (piece : Bytes) (at_ : PipeAt) : Conn :=
  { c.setPipe d { c.pipe d with at_, delivered := (c.pipe d).delivered ++ piece } with
    toClient := match d with
      | .clientToServer => c.toClient
      | .serverToClient => c.toClient ++ piece }

end Conn

inductive PipeInput where
  | read (result : Except ErrorKind Bytes)
  | write (result : Except ErrorKind Nat)
  | go

/-- One step of a pipe thread. -/
def Conn.pipeStep (d : Direction) (input : PipeInput) (c : Conn) : Conn :=
  let p := c.pipe d
  match p.at_, input with
  | .reading, .read (.ok bytes) =>
      let chunk := bytes.take pipeBufSize
      if chunk = [] then c.setPipe d { p with at_ := .shutting, eof := true }
      else c.setPipe d { p with at_ := .writing chunk 0, taken := p.taken ++ chunk }
  | .reading, .read (.error kind) =>
      if kind = .interrupted then c else c.fails d (readSide d)
  | .writing chunk written, .write (.ok n) =>
      if n = 0 then c.fails d (writeSide (readSide d))
      else
        let at_ := if chunk.length ≤ written + n then .counting chunk.length else .writing chunk (written + n)
        c.deliver d ((chunk.drop written).take n) at_
  | .writing _ _, .write (.error kind) =>
      if kind = .interrupted then c else c.fails d (writeSide (readSide d))
  | .counting n, .go => c.setPipe d { p with at_ := .reading, counter := p.counter + .ofNat n }
  | .shutting, .go => c.setPipe d { p with at_ := .ended true, shutAt := some p.delivered.length }
  | .recording side, .go =>
      { c.setPipe d { p with at_ := .closing false } with firstErr := c.firstErr <|> some side }
  | .closing false, .go => { c.setPipe d { p with at_ := .closing true } with hardClosed := true }
  | .closing true, .go => c.setPipe d { p with at_ := .ended false }
  | _, _ => c

/-! ## The handler -/

inductive Input where
  | go
  | number (connId : UInt64)
  | outcome (ok : Bool)
  | wrote (result : Except ErrorKind Nat)
  | panic

/-- The handler panics on it: so it does over a pipe thread it cannot have. -/
def Input.faults (stage : Stage) : Input → Bool
  | .panic => true
  | .outcome ok => !ok && (stage = .spawning || stage = .spawningSecond)
  | _ => false

namespace Conn

def at_ (c : Conn) (stage : Stage) : Conn := { c with stage }

/-- The client took some bytes of a line. -/
def tell (c : Conn) (piece : Bytes) (stage : Stage) : Conn :=
  { c with stage, toClient := c.toClient ++ piece }

/-- The reason for a close whose warning could not be written. -/
def warnReason : ErrorKind → Reason
  | .connectionReset => .clientReset
  | .brokenPipe => .clientReset
  | .connectionAborted => .clientReset
  | _ => .warnWriteTimeout

/-- The reason for a close of a relayed connection. -/
def closeReason (c : Conn) : Reason :=
  match c.firstErr with
  | some .client => .clientReset
  | some .upstream => .upstreamReset
  | none => .normal

/-- One step of the handler, and what it logs. -/
def mainStep (cfg : RelayConfig) (input : Input) (c : Conn) : Conn × List Record :=
  match c.stage, input with
  | .ended _, _ => (c, [])
  | .unwinding guard, .go => (c.at_ (.ended guard), [])
  | .unwinding _, _ => (c, [])
  | stage, .panic => (c.at_ (.unwinding stage.hasGuard), [])
  | .queued, .number connId => ({ c with stage := .numbered, connId }, [])
  | .numbered, .go => (c.at_ .accepted, [.connAccept c.connId])
  | .accepted, .go => (c.at_ .guarded, [])
  | .guarded, .outcome true =>
      if cfg.warnMode then (c.at_ (if cfg.warnLine = [] then .warned else .warning 0), [])
      else (c.at_ .connecting, [])
  | .guarded, .outcome false => (c.at_ (.closing .clientReset 0 0), [])
  | .warning written, .wrote (.ok n) =>
      if n = 0 then (c.at_ (.closing (warnReason .writeZero) 0 0), [])
      else
        let piece := (cfg.warnLine.drop written).take n
        (c.tell piece (if cfg.warnLine.length ≤ written + n then .warned else .warning (written + n)), [])
  | .warning _, .wrote (.error kind) =>
      if kind = .interrupted then (c, []) else (c.at_ (.closing (warnReason kind) 0 0), [])
  | .warned, .go => (c.at_ .connecting, [.warnSent c.connId cfg.warnLine.length])
  | .connecting, .outcome true => (c.at_ .cloning, [.upstreamConnect c.connId true])
  | .connecting, .outcome false =>
      (c.at_ (if cfg.failureLine then .failing 0 else .closing .upstreamUnavailable 0 0),
        [.upstreamConnect c.connId false])
  | .failing written, .wrote (.ok n) =>
      if n = 0 then (c.at_ (.closing .upstreamUnavailable 0 0), [])
      else
        let piece := (Doorkeeper.failureLine.drop written).take n
        (c.tell piece (if Doorkeeper.failureLine.length ≤ written + n
          then .closing .upstreamUnavailable 0 0 else .failing (written + n)), [])
  | .failing _, .wrote (.error kind) =>
      if kind = .interrupted then (c, []) else (c.at_ (.closing .upstreamUnavailable 0 0), [])
  | .cloning, .outcome true => (c.at_ .spawning, [])
  | .cloning, .outcome false => (c.at_ (.closing .clientReset 0 0), [])
  | .spawning, .outcome true =>
      ((c.setPipe .clientToServer { Pipe.unborn with at_ := .reading }).at_ .spawningSecond, [])
  -- `expect` on the new thread
  | .spawning, .outcome false => (c.at_ (.unwinding true), [])
  | .spawningSecond, .outcome true =>
      ((c.setPipe .serverToClient { Pipe.unborn with at_ := .reading }).at_ .joining, [])
  | .spawningSecond, .outcome false => (c.at_ (.unwinding true), [])
  | .joining, .go => if c.pipes.c2s.isOver ∧ c.pipes.s2c.isOver then (c.at_ .joined, []) else (c, [])
  | .joined, .go => (c.at_ .reported, [.clientVersion c.connId])
  | .reported, .go => (c.at_ (.closing c.closeReason c.pipes.c2s.counter c.pipes.s2c.counter), [])
  | .closing reason c2s s2c, .go => (c.at_ .closed, [.connClose c.connId reason c2s s2c])
  | .closed, .go => (c.at_ (.ended true), [])
  | _, _ => (c, [])

end Conn

inductive ConnAct where
  | main (input : Input)
  | pipe (d : Direction) (input : PipeInput)

/-- One step of one of the threads of a connection, and what it logs. -/
def Conn.step (cfg : RelayConfig) (act : ConnAct) (c : Conn) : Conn × List Record :=
  match act with
  | .main input => c.mainStep cfg input
  | .pipe d input => (c.pipeStep d input, [])

/-- A connection on its own, with the records of it so far. -/
def Conn.lifeStep (cfg : RelayConfig) (act : ConnAct) (s : Conn × List Record) : Conn × List Record :=
  ((s.1.step cfg act).1, s.2 ++ (s.1.step cfg act).2)

/-! ## What one step does -/

namespace Conn

@[simp] theorem pipe_setPipe (c : Conn) (d : Direction) (p : Pipe) : (c.setPipe d p).pipe d = p :=
  PerDirection.get_set_same ..

theorem pipe_setPipe_other (c : Conn) {d e : Direction} (p : Pipe) (other : e ≠ d) :
    (c.setPipe d p).pipe e = c.pipe e :=
  PerDirection.get_set_other _ _ other

/-- What a step of the pipe thread of a direction does, case by case. -/
inductive PipeMoves (c : Conn) (d : Direction) : Conn → Prop where
  | stays : PipeMoves c d c
  | ends (was : (c.pipe d).at_ = .reading) :
      PipeMoves c d (c.setPipe d { c.pipe d with at_ := .shutting, eof := true })
  | reads (chunk : Bytes) (was : (c.pipe d).at_ = .reading) (some : chunk ≠ []) :
      PipeMoves c d (c.setPipe d
        { c.pipe d with at_ := .writing chunk 0, taken := (c.pipe d).taken ++ chunk })
  | fails (side : Side) (was : (c.pipe d).at_ = .reading ∨
      ∃ chunk written, (c.pipe d).at_ = .writing chunk written) : PipeMoves c d (c.fails d side)
  | delivers (chunk : Bytes) (written n : Nat) (was : (c.pipe d).at_ = .writing chunk written)
      (some : n ≠ 0) :
      PipeMoves c d (c.deliver d ((chunk.drop written).take n)
        (if chunk.length ≤ written + n then .counting chunk.length else .writing chunk (written + n)))
  | counts (n : Nat) (was : (c.pipe d).at_ = .counting n) :
      PipeMoves c d (c.setPipe d
        { c.pipe d with at_ := .reading, counter := (c.pipe d).counter + .ofNat n })
  | shuts (was : (c.pipe d).at_ = .shutting) :
      PipeMoves c d (c.setPipe d
        { c.pipe d with at_ := .ended true, shutAt := some (c.pipe d).delivered.length })
  | records (side : Side) (was : (c.pipe d).at_ = .recording side) :
      PipeMoves c d { c.setPipe d { c.pipe d with at_ := .closing false } with
        firstErr := c.firstErr <|> some side }
  | shutsRead (was : (c.pipe d).at_ = .closing false) :
      PipeMoves c d { c.setPipe d { c.pipe d with at_ := .closing true } with hardClosed := true }
  | shutsWrite (was : (c.pipe d).at_ = .closing true) :
      PipeMoves c d (c.setPipe d { c.pipe d with at_ := .ended false })

theorem pipeStep_moves (c : Conn) (d : Direction) (input : PipeInput) :
    PipeMoves c d (c.pipeStep d input) := by
  unfold pipeStep
  dsimp only
  split
  · rename_i was
    split
    · exact .ends was
    · rename_i some_
      exact .reads _ was some_
  · rename_i was
    split
    · exact .stays
    · exact .fails _ (.inl was)
  · rename_i chunk written n was
    split
    · exact .fails _ (.inr ⟨chunk, written, was⟩)
    · rename_i some_
      exact .delivers chunk written n was some_
  · rename_i chunk written kind was
    split
    · exact .stays
    · exact .fails _ (.inr ⟨chunk, written, was⟩)
  · rename_i n was
    exact .counts n was
  · rename_i was
    exact .shuts was
  · rename_i side was
    exact .records side was
  · rename_i was
    exact .shutsRead was
  · rename_i was
    exact .shutsWrite was
  · exact .stays

/-- What a step of the handler does, case by case. -/
inductive MainMoves (cfg : RelayConfig) (c : Conn) (input : Input) : Conn × List Record → Prop where
  | stays : MainMoves cfg c input (c, [])
  | unwound (guard : Bool) (was : c.stage = .unwinding guard) :
      MainMoves cfg c input (c.at_ (.ended guard), [])
  | panics (live : c.stage.isOver = false) (faults : input.faults c.stage = true) :
      MainMoves cfg c input (c.at_ (.unwinding c.stage.hasGuard), [])
  | numbers (connId : UInt64) (was : c.stage = .queued) :
      MainMoves cfg c input ({ c with stage := .numbered, connId }, [])
  | accepts (was : c.stage = .numbered) : MainMoves cfg c input (c.at_ .accepted, [.connAccept c.connId])
  | guards (was : c.stage = .accepted) : MainMoves cfg c input (c.at_ .guarded, [])
  | warns (was : c.stage = .guarded) (on : cfg.warnMode = true) :
      MainMoves cfg c input (c.at_ (if cfg.warnLine = [] then .warned else .warning 0), [])
  | skips (was : c.stage = .guarded) (off : cfg.warnMode = false) : MainMoves cfg c input (c.at_ .connecting, [])
  | refuses (reason : Reason) (was : c.stage = .guarded ∨ c.stage = .cloning ∨ ∃ w, c.stage = .warning w)
      (other : reason ≠ .normal) : MainMoves cfg c input (c.at_ (.closing reason 0 0), [])
  | writesWarning (written n : Nat) (was : c.stage = .warning written) (some : n ≠ 0) :
      MainMoves cfg c input (c.tell ((cfg.warnLine.drop written).take n)
        (if cfg.warnLine.length ≤ written + n then .warned else .warning (written + n)), [])
  | sent (was : c.stage = .warned) :
      MainMoves cfg c input (c.at_ .connecting, [.warnSent c.connId cfg.warnLine.length])
  | connects (was : c.stage = .connecting) :
      MainMoves cfg c input (c.at_ .cloning, [.upstreamConnect c.connId true])
  | unreachable (was : c.stage = .connecting) :
      MainMoves cfg c input (c.at_ (if cfg.failureLine then .failing 0 else .closing .upstreamUnavailable 0 0),
        [.upstreamConnect c.connId false])
  | writesFailure (written n : Nat) (was : c.stage = .failing written) (some : n ≠ 0) :
      MainMoves cfg c input (c.tell ((Doorkeeper.failureLine.drop written).take n)
        (if Doorkeeper.failureLine.length ≤ written + n then .closing .upstreamUnavailable 0 0
          else .failing (written + n)), [])
  | gives (written : Nat) (was : c.stage = .failing written) :
      MainMoves cfg c input (c.at_ (.closing .upstreamUnavailable 0 0), [])
  | clones (was : c.stage = .cloning) : MainMoves cfg c input (c.at_ .spawning, [])
  | spawns (was : c.stage = .spawning) :
      MainMoves cfg c input
        ((c.setPipe .clientToServer { Pipe.unborn with at_ := .reading }).at_ .spawningSecond, [])
  | spawnsSecond (was : c.stage = .spawningSecond) :
      MainMoves cfg c input ((c.setPipe .serverToClient { Pipe.unborn with at_ := .reading }).at_ .joining, [])
  | joins (was : c.stage = .joining) (both : c.pipes.c2s.isOver ∧ c.pipes.s2c.isOver) :
      MainMoves cfg c input (c.at_ .joined, [])
  | reports (was : c.stage = .joined) : MainMoves cfg c input (c.at_ .reported, [.clientVersion c.connId])
  | closes (was : c.stage = .reported) :
      MainMoves cfg c input (c.at_ (.closing c.closeReason c.pipes.c2s.counter c.pipes.s2c.counter), [])
  | logs (reason : Reason) (c2s s2c : UInt64) (was : c.stage = .closing reason c2s s2c) :
      MainMoves cfg c input (c.at_ .closed, [.connClose c.connId reason c2s s2c])
  | drops (was : c.stage = .closed) : MainMoves cfg c input (c.at_ (.ended true), [])

theorem warnReason_ne (kind : ErrorKind) : warnReason kind ≠ .normal := by
  cases kind <;> nofun

/-- A thread that cannot be had makes the handler panic, which has its guard by then. -/
theorem MainMoves.expects {cfg : RelayConfig} {c : Conn} {input : Input}
    (guard : c.stage.hasGuard = true) (faults : input.faults c.stage = true) :
    MainMoves cfg c input (c.at_ (.unwinding true), []) := by
  have live : c.stage.isOver = false := by
    cases same : c.stage <;> simp_all [Stage.isOver, Stage.hasGuard]
  have panics := @MainMoves.panics cfg c input live faults
  rwa [guard] at panics

theorem mainStep_moves (cfg : RelayConfig) (input : Input) (c : Conn) :
    MainMoves cfg c input (c.mainStep cfg input) := by
  unfold mainStep
  split
  case h_1 => exact .stays
  case h_2 was => exact .unwound _ was
  case h_3 => exact .stays
  case h_4 atEnd _ => exact .panics (by cases same : c.stage <;> simp_all [Stage.isOver]) rfl
  case h_5 was => exact .numbers _ was
  case h_6 was => exact .accepts was
  case h_7 was => exact .guards was
  case h_8 was =>
    split
    · rename_i on
      exact .warns was on
    · rename_i off
      exact .skips was (by simpa using off)
  case h_9 was => exact .refuses _ (.inl was) nofun
  case h_10 written n was =>
    split
    · exact .refuses _ (.inr (.inr ⟨written, was⟩)) (warnReason_ne _)
    · rename_i some_
      exact .writesWarning written n was some_
  case h_11 written kind was =>
    split
    · exact .stays
    · exact .refuses _ (.inr (.inr ⟨written, was⟩)) (warnReason_ne _)
  case h_12 was => exact .sent was
  case h_13 was => exact .connects was
  case h_14 was => exact .unreachable was
  case h_15 written n was =>
    split
    · exact .gives written was
    · rename_i some_
      exact .writesFailure written n was some_
  case h_16 written kind was =>
    split
    · exact .stays
    · exact .gives written was
  case h_17 was => exact .clones was
  case h_18 was => exact .refuses _ (.inr (.inl was)) nofun
  case h_19 was => exact .spawns was
  case h_20 was => exact .expects (by rw [was]; rfl) (by rw [was]; rfl)
  case h_21 was => exact .spawnsSecond was
  case h_22 was => exact .expects (by rw [was]; rfl) (by rw [was]; rfl)
  case h_23 was =>
    split
    · rename_i both
      exact .joins was both
    · exact .stays
  case h_24 was => exact .reports was
  case h_25 was => exact .closes was
  case h_26 was => exact .logs _ _ _ was
  case h_27 was => exact .drops was
  case h_28 => exact .stays

end Conn

end Jbuu.Doorkeeper
