/-
# Station.Processes — the processes of a station, from their start to their end

`run_serve` with `serve_one`, and `run_connect`, cut at their critical sections: a start-up, a
connection, a handshake under the lock of the allocator, a look at its state, an emission under the
lock of the audit log, a record sealed or opened by a session that is served, an end. A server has
its connections in any number and order up to `--sessions`; a client has one. At any request, and
between any two steps, the process may be killed or the machine may lose its power; then another
process may start.

`serve_connection` and the terminal client use their session through `seal`, `open` and `close`; that
they do so in any way they like is all that is asked of them here.
-/
import Jbuu.Handshake.Failure
import Jbuu.Recovery.Interrupted
import Jbuu.Station.Handshakes

namespace Jbuu.Station

set_option autoImplicit false

open Jbuu.Library.BigEndian (Bytes)
open Jbuu.Library
open Jbuu.Allocator (BookFile TransactionCore Disk Loss System)
open Jbuu.AuditLog (AuditEntry)
open Jbuu.Cli (SessionInfo Handshaking serverHandshake clientHandshake)
open Jbuu.Handshake (Answer)
open Jbuu.Recovery (RecoveryReport startupRecover allocatorOpen)
open Jbuu.Recovery.Interrupted (PlatformFate platform)

/-! ## The audit log -/

/-- The log file: what was synced, and what was written since. -/
structure LogFile where
  synced : Bytes
  unsynced : Bytes
  deriving DecidableEq, Repr

/-- What the file answers to one `write_entry`. -/
structure Emission where
  writes : List WriteSome
  sync : Bool
  deriving DecidableEq, Repr

/-- `JsonlAuditSink::write_entry`. -/
def LogFile.writeEntry (file : LogFile) (entry : AuditEntry) (e : Emission) : Bool × LogFile :=
  match (AuditLog.Attempt.mk entry e.writes e.sync).writeEntry file.unsynced with
  | (.ok (), unsynced) => (true, ⟨file.synced ++ unsynced, []⟩)
  | (.error _, unsynced) => (false, { file with unsynced })

/-- `Audit::emit`: whether it returned `Ok`. Without a sink it writes nothing. -/
def emit (log : Option LogFile) (entry : AuditEntry) (e : Emission) : Bool × Option LogFile :=
  match log with
  | none => (true, none)
  | some file => ((file.writeEntry entry e).1, some (file.writeEntry entry e).2)

/-- What is left of the log: all of it, or what was synced and any bytes behind it. -/
def LogFile.lose (file : LogFile) : Option Bytes → LogFile
  | none => file
  | some tail => { file with unsynced := tail }

/-! ## The station -/

/-- Where the code that serves a connection stands. -/
inductive Conn where
  | accepted
  /-- A handshake or a session failed. -/
  | rejected (category : ErrorCategory)
  /-- The entry of the failure is due. -/
  | owing (entry : AuditEntry)
  /-- The handshake is done, the entry of its segment is due. -/
  | established (session : Session) (info : SessionInfo)
  | serving (session : Session) (info : SessionInfo)
  | closed
  deriving DecidableEq, Repr

/-- Two places hold a session. -/
def Conn.session : Conn → Option (Session × SessionInfo)
  | .established session info => some (session, info)
  | .serving session info => some (session, info)
  | _ => none

/-- What the command line of a process says. -/
structure Flags where
  sessions : Nat
  deadline : Nat
  deriving DecidableEq, Repr

structure Site where
  ground : Ground
  log : Option LogFile
  /-- Of the running process. -/
  flags : Flags
  conns : List Conn
  deriving DecidableEq, Repr

/-- A call of a session that is served. -/
inductive RecordCall where
  | seal (mt : MessageType) (plaintext : Bytes)
  | open (mt : MessageType) (seq : Sequence) (sealed : Bytes)
  | close
  deriving DecidableEq, Repr

inductive Event (sha : Bytes → Digest) where
  | start (flags : Flags) (recovery opening : List (PlatformFate sha)) (emission : Emission) (tail : Option Bytes)
  | accept
  | handshake (k : Nat) (lucks : List (Luck sha)) (tail : Option Bytes)
  | look (k : Nat)
  | audit (k : Nat) (emission : Emission)
  | record (k : Nat) (call : RecordCall) (answers : List Answer)
  /-- The session ended, with an error that is to be audited or none. -/
  | finish (k : Nat) (category : Option ErrorCategory)
  | lose (loss : Loss sha) (tail : Option Bytes)

namespace Site

def initial (sha : Bytes → Digest) (book : BookFile) (log : Option LogFile) : Site where
  ground := { system := Allocator.initial sha book, marks := [] }
  log := log
  flags := ⟨0, 0⟩
  conns := []

def setConn (s : Site) (k : Nat) (c : Conn) : Site := { s with conns := s.conns.set k c }

/-- `Audit::emit`, and the mark of it. -/
def emitted (s : Site) (entry : AuditEntry) (e : Emission) : Bool × Site :=
  ((emit s.log entry e).1,
    { s with
      log := (emit s.log entry e).2
      ground := if (emit s.log entry e).1 then s.ground.mark (.audited entry) else s.ground })

/-- The process ended without a word. -/
def gone (s : Site) (ground : Ground) (tail : Option Bytes) : Site :=
  { s with ground, log := s.log.map fun file => file.lose tail, conns := [] }

/-- A start-up ended without an allocator. -/
def onDisk (s : Site) (disk : Disk) : Site :=
  { s with ground := { s.ground with system := { s.ground.system with disk, core := none } } }

/-- A panic of the process. -/
def panic (s : Site) : Site :=
  { s with
    ground := { s.ground with system := { s.ground.system with core := none, panicked := true } }
    conns := [] }

def adopt (s : Site) (core : TransactionCore) (disk : Disk) : Site :=
  { s with
    ground :=
      { s.ground with
        system :=
          { s.ground.system with
            disk, core := some core, adopted := s.ground.system.adopted ++ [core.current] } } }

end Site

section Entries

variable (book : BookFile)

/-- The entry of a recovery that failed; a client writes none. -/
def quarantined : AuditEntry := ⟨book.bookId, .zero, ⟨0⟩, .quarantined, some .recovery⟩

def recovered (report : RecoveryReport) : AuditEntry :=
  ⟨book.bookId, report.adopted.next, report.adopted.generation, .recovered, none⟩

def issued (info : SessionInfo) : AuditEntry :=
  ⟨book.bookId, info.segment, info.generation, .issued, none⟩

/-- The entry of an error, with the state of the allocator. -/
def rejected (core : TransactionCore) (category : ErrorCategory) : AuditEntry :=
  ⟨book.bookId, core.current.next, core.current.generation, .rejected, some category⟩

end Entries

section Steps

variable (sha : Bytes → Digest) (book : BookFile) (role : Role)

/-- `Allocator::open` of a start-up. -/
def opening (fates : List (PlatformFate sha)) (tail : Option Bytes) (s : Site) : Site :=
  match (allocatorOpen sha book.bookId).run.exec (platform sha book) fates s.ground.system.disk with
  | (.returned (.ok core), disk) => s.adopt core disk
  | (.returned (.error _), disk) => s.onDisk disk
  | (.crashed, disk) => s.gone (s.onDisk disk).ground tail
  | (.panicked, disk) => (s.onDisk disk).panic

/-- A start-up: the recovery, its entry in the log, and the allocator. -/
def startUp (recovery fates : List (PlatformFate sha)) (e : Emission) (tail : Option Bytes) (s : Site) : Site :=
  match (startupRecover sha).run.exec (platform sha book) recovery s.ground.system.disk with
  | (.returned (.ok report), disk) =>
      opening sha book fates tail ((s.onDisk disk).emitted (recovered book report) e).2
  | (.returned (.error _), disk) =>
      match role with
      | .server => ((s.onDisk disk).emitted (quarantined book) e).2
      | .client => s.onDisk disk
  | (.crashed, disk) => s.gone (s.onDisk disk).ground tail
  | (.panicked, disk) => (s.onDisk disk).panic

/-- The handshake of the role. -/
def driver (deadline : Nat) : Handshaking (Session × SessionInfo) :=
  match role with
  | .server => serverHandshake ⟨book.bookId, book.segmentCount⟩ deadline
  | .client => clientHandshake ⟨book.bookId, book.segmentCount⟩ deadline

def handshake (k : Nat) (lucks : List (Luck sha)) (tail : Option Bytes) (s : Site) : Site :=
  match (driver book role s.flags.deadline).run.exec (port sha book) lucks s.ground with
  | (.returned (.ok (session, info)), ground) =>
      { s with ground := ground.mark (.established info session.keys) }.setConn k (.established session info)
  | (.returned (.error f), ground) => { s with ground }.setConn k (.rejected f.category)
  | (.crashed, ground) => s.gone ground tail
  | (.panicked, ground) => { s with ground }.panic

/-- What a connection owes the log. -/
def audit (k : Nat) (e : Emission) (s : Site) : Conn → Site
  | .owing entry => (s.emitted entry e).2.setConn k .closed
  | .established session info =>
      match s.emitted (issued book info) e with
      | (true, s) => s.setConn k (.serving session info)
      -- Nobody is served whose segment is not in the log; a client tries to write that down, too.
      | (false, s) =>
          match role with
          | .server => s.setConn k .closed
          | .client => s.setConn k (.rejected .platform)
  | _ => s

/-- The cipher as a session over the segment asks it, whatever it answers. -/
def recordHost (segment : SegmentIndex) : Device HostOp HostReply Answer Ground
  | .encrypt key nonce aad plaintext, a, g =>
      (some (a.sealed.map fun sealed => (fitted sealed.1 plaintext.length, sealed.2)),
        g.mark (.record segment (.encrypt key nonce aad plaintext)))
  | .decrypt key nonce aad ciphertext tag, a, g =>
      (some a.opened, g.mark (.record segment (.decrypt key nonce aad ciphertext tag)))
  | .csprng16, a, g => (some a.random, g)
  -- A session issues no segment.
  | .issue, _, g => (some (.error .lockUnavailable), g)

/-- The call, and the session it leaves. -/
def RecordCall.on (session : Session) : RecordCall → Host Session
  | .seal mt plaintext => do
      let out ← session.seal mt plaintext
      pure out.2
  | .open mt seq sealed => do
      let out ← session.open mt seq sealed
      pure out.2
  | .close => pure session.close

def record (k : Nat) (call : RecordCall) (answers : List Answer) (s : Site) (session : Session)
    (info : SessionInfo) : Site :=
  match (call.on session).exec (recordHost info.segment) answers s.ground with
  | (.returned session, ground) => { s with ground }.setConn k (.serving session info)
  | (.crashed, ground) => s.gone ground none
  | (.panicked, ground) => { s with ground }.panic

/-- How many connections a process takes. -/
def Flags.limit (flags : Flags) : Nat :=
  match role with
  | .server => flags.sessions
  | .client => 1

def step : Event sha → Site → Site
  | .start flags recovery fates e tail, s =>
      if s.ground.system.core = none then startUp sha book role recovery fates e tail { s with flags } else s
  | .accept, s =>
      if s.ground.system.core ≠ none ∧ s.conns.length < s.flags.limit role then
        { s with conns := s.conns ++ [.accepted] }
      else s
  | .handshake k lucks tail, s =>
      if s.conns[k]? = some .accepted then handshake sha book role k lucks tail s else s
  | .look k, s =>
      match s.conns[k]?, s.ground.system.core with
      | some (.rejected category), some core => s.setConn k (.owing (rejected book core category))
      | _, _ => s
  | .audit k e, s =>
      match s.conns[k]? with
      | some conn => audit book role k e s conn
      | none => s
  | .record k call answers, s =>
      match s.conns[k]? with
      | some (.serving session info) => record k call answers s session info
      | _ => s
  | .finish k category, s =>
      match s.conns[k]? with
      | some (.serving _ _) =>
          match category with
          | none => s.setConn k .closed
          | some category => s.setConn k (.rejected category)
      | _ => s
  | .lose loss tail, s => s.gone (s.ground.lose loss) tail

end Steps

end Jbuu.Station
