/-
# Station.Life — what holds over the whole life of a station

`Kept` is the invariant of `step`: the allocator is steady, the marks have their history, every
session that a connection still has is over a segment of its own, nobody is served whose segment is not
in the log, and what the log took it does not lose. Each kind of step keeps it, whatever fails, and
wherever the process or the machine is gone.

Over any life of a server and any life of a client on one book: no key and nonce are used for two
encryptions (`no_nonce_for_two_records`), the sessions of a station are over segments that rise
(`sessions_on_rising_segments`), and a record is asked for after its segment is in the log, where it
stays (`audit_before_records`).
-/
import Jbuu.Station.History

namespace Jbuu.Station

set_option autoImplicit false

open Jbuu.Library.BigEndian (Bytes Exactly)
open Jbuu.Library
open Jbuu.Library.Program (exec_of_wp)
open Jbuu.Allocator (BookFile TransactionCore Disk Loss Sound Lineage Genuine Past Current Steady CopyState)
open Jbuu.AuditLog (AuditEntry)
open Jbuu.Cli (SessionInfo)
open Jbuu.Handshake (Answer DistinctHalves)
open Jbuu.Recovery.Interrupted (PlatformFate RecoverLeaves wp_startupRecover wp_allocatorOpen)

/-! ## The log -/

/-- What the log took is in its synced part. -/
def Logged (marks : List Mark) (file : LogFile) : Prop :=
  ∀ entry, Mark.audited entry ∈ marks → AuditLog.line entry <:+: file.synced

section Log

variable {marks marks' : List Mark} {file : LogFile}

theorem Logged.of_marks (logged : Logged marks file)
    (same : ∀ entry, Mark.audited entry ∈ marks' → Mark.audited entry ∈ marks) : Logged marks' file :=
  fun entry mem => logged entry (same entry mem)

/-- Neither a kill nor a power loss takes what was synced. -/
theorem Logged.lose (logged : Logged marks file) (tail : Option Bytes) : Logged marks (file.lose tail) := by
  cases tail with
  | none => exact logged
  | some tail => exact logged

/-- The line is written and synced, or something is written behind what was synced. -/
theorem writeEntry_cases (file : LogFile) (entry : AuditEntry) (e : Emission) :
    file.writeEntry entry e = (true, ⟨file.synced ++ (file.unsynced ++ AuditLog.line entry), []⟩) ∨
      ∃ unsynced, file.writeEntry entry e = (false, ⟨file.synced, unsynced⟩) := by
  unfold LogFile.writeEntry AuditLog.Attempt.writeEntry
  dsimp only
  split
  · rename_i unsynced wrote
    split at wrote
    · cases congrArg Prod.fst wrote
    · rename_i whole
      obtain ⟨-, rfl⟩ := Prod.mk.inj wrote
      have line : (AuditLog.Attempt.mk entry e.writes e.sync).piece = AuditLog.line entry := writeFull_of_ok whole
      rw [line]
      exact .inl rfl
  · exact .inr ⟨_, rfl⟩

/-- An entry that was taken is there, and so are those before it. -/
theorem Logged.writeEntry (logged : Logged marks file) (entry : AuditEntry) (e : Emission) :
    Logged (if (file.writeEntry entry e).1 then marks ++ [.audited entry] else marks)
      (file.writeEntry entry e).2 := by
  rcases writeEntry_cases file entry e with wrote | ⟨unsynced, wrote⟩
  · rw [wrote]
    intro entry' mem
    rcases List.mem_append.mp mem with before | here
    · exact (logged entry' before).trans (List.prefix_append _ _).isInfix
    · obtain rfl := Mark.audited.inj (List.mem_singleton.mp here)
      rw [← List.append_assoc]
      exact (List.suffix_append _ _).isInfix
  · rw [wrote]
    exact logged

end Log

/-! ## The invariant -/

/-- Two connections are not over one segment. -/
def Apart (c c' : Conn) : Prop := ∀ session info session' info',
  c.session = some (session, info) → c'.session = some (session', info') → info.segment ≠ info'.segment

theorem Apart.symm {c c' : Conn} (apart : Apart c c') : Apart c' c :=
  fun session info session' info' here there same => apart session' info' session info there here same.symm

structure Kept (sha : Bytes → Digest) (book : BookFile) (role : Role) (s : Site) : Prop where
  steady : Steady sha book s.ground.system
  /-- Without a process there is no connection. -/
  idle : s.ground.system.core = none → s.conns = []
  history : History book role s.ground
  holds : ∀ (k : Nat) conn, s.conns[k]? = some conn → ∀ session info, conn.session = some (session, info) →
    Holding book role s.ground session info
  apart : ∀ (k k' : Nat) conn conn', k ≠ k' → s.conns[k]? = some conn → s.conns[k']? = some conn' →
    Apart conn conn'
  served : ∀ (k : Nat) session info, s.conns[k]? = some (.serving session info) →
    Mark.audited (issued book info) ∈ s.ground.marks
  logged : ∀ file, s.log = some file → Logged s.ground.marks file

section Kept

variable {sha : Bytes → Digest} {book : BookFile} {role : Role} {s : Site}

/-- Where no connection is. -/
theorem kept_of_no_conns (steady : Steady sha book s.ground.system) (history : History book role s.ground)
    (logged : ∀ file, s.log = some file → Logged s.ground.marks file) (empty : s.conns = []) :
    Kept sha book role s where
  steady := steady
  idle := fun _ => empty
  history := history
  holds := by
    intro k conn here
    rw [empty] at here
    cases here
  apart := by
    intro k k' conn conn' _ here
    rw [empty] at here
    cases here
  served := by
    intro k session info here
    rw [empty] at here
    cases here
  logged := logged

theorem kept_initial (log : Option LogFile) : Kept sha book role (Site.initial sha book log) := by
  refine kept_of_no_conns Allocator.steady_initial ?_ (fun file _ entry mem => ?_) rfl
  · exact ⟨nofun, fun _ => .nil, .nil, nofun, nofun, nofun⟩
  · cases mem

theorem conns_setConn {k j : Nat} {conn c : Conn} (here : (s.setConn k conn).conns[j]? = some c) :
    j = k ∧ c = conn ∨ j ≠ k ∧ s.conns[j]? = some c := by
  simp only [Site.setConn, List.getElem?_set] at here
  split at here
  · rename_i same
    split at here
    · exact .inl ⟨same.symm, (Option.some.inj here).symm⟩
    · cases here
  · rename_i other
    exact .inr ⟨fun same => other same.symm, here⟩

/-- One connection goes on. -/
theorem Kept.setConn (kept : Kept sha book role s) (k : Nat) (conn : Conn)
    (holds : ∀ session info, conn.session = some (session, info) → Holding book role s.ground session info)
    (apart : ∀ j conn', j ≠ k → s.conns[j]? = some conn' → Apart conn' conn)
    (served : ∀ session info, conn = .serving session info → Mark.audited (issued book info) ∈ s.ground.marks) :
    Kept sha book role (s.setConn k conn) where
  steady := kept.steady
  idle := by
    intro closed
    show s.conns.set k conn = []
    rw [kept.idle closed]
    rfl
  history := kept.history
  holds := by
    intro j c here session info
    rcases conns_setConn here with ⟨rfl, rfl⟩ | ⟨-, there⟩
    · exact holds session info
    · exact kept.holds j c there session info
  apart := by
    intro i j c c' ne here there
    rcases conns_setConn here with ⟨rfl, rfl⟩ | ⟨other, old⟩ <;>
      rcases conns_setConn there with ⟨rfl, rfl⟩ | ⟨other', old'⟩
    · exact absurd rfl ne
    · exact (apart j c' other' old').symm
    · exact apart i c other old
    · exact kept.apart i j c c' ne old old'
  served := by
    intro j session info here
    rcases conns_setConn here with ⟨-, same⟩ | ⟨-, there⟩
    · exact served session info same.symm
    · exact kept.served j session info there
  logged := kept.logged

/-- A connection without a session. -/
theorem Kept.setConn_none (kept : Kept sha book role s) (k : Nat) {conn : Conn} (without : conn.session = none) :
    Kept sha book role (s.setConn k conn) := by
  refine kept.setConn k conn ?_ ?_ ?_
  · intro session info here
    cases without.symm.trans here
  · intro j conn' _ _ session info session' info' _ there
    cases without.symm.trans there
  · rintro session info rfl
    cases without

/-- The process is gone. -/
theorem Kept.gone (kept : Kept sha book role s) {ground : Ground} (steady : Steady sha book ground.system)
    (history : History book role ground)
    (same : ∀ entry, Mark.audited entry ∈ ground.marks → Mark.audited entry ∈ s.ground.marks)
    (tail : Option Bytes) : Kept sha book role (s.gone ground tail) := by
  refine kept_of_no_conns steady history (fun file here => ?_) rfl
  obtain ⟨before, log, rfl⟩ := Option.map_eq_some_iff.mp here
  exact ((kept.logged before log).of_marks same).lose tail

/-- The marks say which entries the log took. -/
theorem Kept.emitted (kept : Kept sha book role s) (entry : AuditEntry) (e : Emission) :
    Kept sha book role (s.emitted entry e).2 := by
  have ground : (s.emitted entry e).2.ground.system = s.ground.system ∧
      (s.emitted entry e).2.ground.marks =
        if (emit s.log entry e).1 then s.ground.marks ++ [.audited entry] else s.ground.marks := by
    simp only [Site.emitted]
    split
    · exact ⟨rfl, rfl⟩
    · exact ⟨rfl, rfl⟩
  have still {m : Mark} (mem : m ∈ s.ground.marks) : m ∈ (s.emitted entry e).2.ground.marks := by
    rw [ground.2]
    split
    · exact List.mem_append_left _ mem
    · exact mem
  refine ⟨?_, ?_, ?_, ?_, kept.apart, fun k session info here => still (kept.served k session info here), ?_⟩
  · rw [ground.1]
    exact kept.steady
  · rw [ground.1]
    exact kept.idle
  · simp only [Site.emitted]
    split
    · exact kept.history.audited entry
    · exact kept.history
  · intro k conn here session info has
    have holding := kept.holds k conn here session info has
    simp only [Site.emitted]
    split
    · exact holding.mark rfl
    · exact holding
  · intro file here
    rw [ground.2]
    cases log : s.log with
    | none =>
        simp only [Site.emitted, emit, log] at here
        cases here
    | some before =>
        simp only [Site.emitted, emit, log] at here ⊢
        obtain rfl := Option.some.inj here
        exact (kept.logged before log).writeEntry entry e

theorem audited_of_emitted {entry : AuditEntry} {e : Emission} (ok : (s.emitted entry e).1 = true) :
    Mark.audited entry ∈ (s.emitted entry e).2.ground.marks := by
  have emits : (emit s.log entry e).1 = true := ok
  simp only [Site.emitted, emits, if_true]
  exact List.mem_append_right _ (List.mem_singleton_self _)

/-! ## A start-up -/

/-- What a start-up may leave on the disk. -/
def Found (sha : Bytes → Digest) (book : BookFile) (s : Site) (_ : AnchorCopy) (r : AnchorRecord) : Prop :=
  (Genuine sha book r ∧ Past s.ground.system.delivered r) ∧ s.ground.system.disk.Holds sha r

theorem Kept.found (kept : Kept sha book role s) : Sound sha (Found sha book s) s.ground.system.disk :=
  kept.steady.sound.mono fun copy _ holds genuine => ⟨genuine, copy, holds⟩

theorem Kept.lineage (kept : Kept sha book role s) {disk : Disk} (sound : Sound sha (Found sha book s) disk) :
    Lineage sha disk :=
  kept.steady.lineage.of_holds fun _ ⟨copy, holds⟩ => (sound.within copy _ holds).2

/-- The marks are what they were, wherever the allocator is. -/
theorem History.withSystem {g : Ground} (history : History book role g) {system : Allocator.System}
    (same : system.delivered = g.system.delivered) : History book role { g with system } where
  keys := by
    rw [same]
    exact history.keys
  once := history.once
  rising := history.rising
  taken := by
    rw [same]
    exact history.taken
  keyed := history.keyed
  preceded := history.preceded

theorem Kept.onDisk (kept : Kept sha book role s) (closed : s.ground.system.core = none) {disk : Disk}
    (sound : Sound sha (Found sha book s) disk) : Kept sha book role (s.onDisk disk) := by
  refine kept_of_no_conns ?_ (kept.history.withSystem rfl) kept.logged (kept.idle closed)
  exact ⟨kept.steady.calm, kept.steady.delivered, kept.lineage sound, sound.mono fun _ _ _ found => found.1,
    by rintro core ⟨⟩⟩

/-- A start-up that adopted its record. -/
theorem Kept.adopt (kept : Kept sha book role s) (closed : s.ground.system.core = none) {disk : Disk}
    {r : AnchorRecord} (sound : Sound sha (Found sha book s) disk)
    (reads : ∀ copy, decodeAndVerify sha (disk.get copy).cached = .ok r) :
    Kept sha book role (s.adopt ⟨book.segmentCount, book.bookId, r, false⟩ disk) := by
  refine kept_of_no_conns ?_ (kept.history.withSystem rfl) kept.logged (kept.idle closed)
  refine ⟨kept.steady.calm, kept.steady.delivered, kept.lineage sound, sound.mono fun _ _ _ found => found.1, ?_⟩
  rintro _ ⟨⟩
  obtain ⟨⟨genuine, past⟩, -⟩ := sound.within .a r (CopyState.holds_cached (reads .a))
  exact ⟨⟨rfl, rfl, genuine⟩, past, fun _ older ⟨copy, holds⟩ => sound.newest copy r (reads copy) older holds⟩

theorem Kept.crashed (kept : Kept sha book role s) (closed : s.ground.system.core = none) {disk : Disk}
    (sound : Sound sha (Found sha book s) disk) (tail : Option Bytes) :
    Kept sha book role (s.gone (s.onDisk disk).ground tail) := by
  have there := kept.onDisk closed sound
  exact kept.gone there.steady there.history (fun _ mem => mem) tail

theorem Kept.opening (kept : Kept sha book role s) (closed : s.ground.system.core = none)
    (fates : List (PlatformFate sha)) (tail : Option Bytes) :
    Kept sha book role (opening sha book fates tail s) := by
  have opens : (Recovery.allocatorOpen sha book.bookId).run.wp (Recovery.Interrupted.platform sha book)
      (Allocator.Opened sha (Found sha book s) book s.ground.system.disk) (Sound sha (Found sha book s))
      s.ground.system.disk :=
    wp_allocatorOpen kept.found fun _ _ _ _ newer _ => newer
  have ends := exec_of_wp opens fates
  unfold Station.opening
  revert ends
  rcases (Recovery.allocatorOpen sha book.bookId).run.exec (Recovery.Interrupted.platform sha book) fates
    s.ground.system.disk with ⟨out | _ | _, disk⟩
  · rintro (sound | ⟨sound, reads, -⟩)
    · exact kept.onDisk closed sound
    · exact kept.adopt closed sound reads
  · exact fun sound => kept.crashed closed sound tail
  · exact False.elim

theorem Kept.startUp (kept : Kept sha book role s) (closed : s.ground.system.core = none)
    (recovery fates : List (PlatformFate sha)) (e : Emission) (tail : Option Bytes) :
    Kept sha book role (startUp sha book role recovery fates e tail s) := by
  have recovers : (Recovery.startupRecover sha).run.wp (Recovery.Interrupted.platform sha book)
      (RecoverLeaves sha (Found sha book s) s.ground.system.disk) (Sound sha (Found sha book s))
      s.ground.system.disk :=
    wp_startupRecover kept.found fun _ _ _ _ _ newer _ => newer
  have ends := exec_of_wp recovers recovery
  unfold Station.startUp
  revert ends
  rcases (Recovery.startupRecover sha).run.exec (Recovery.Interrupted.platform sha book) recovery
    s.ground.system.disk with ⟨out | _ | _, disk⟩
  · rintro (sound | @⟨report, _, sound, -, -⟩)
    · have there := kept.onDisk closed sound
      cases role with
      | server => exact there.emitted _ e
      | client => exact there
    · have there := (kept.onDisk closed sound).emitted (recovered book report) e
      refine there.opening ?_ fates tail
      simp only [Site.emitted]
      split
      · rfl
      · rfl
  · exact fun sound => kept.crashed closed sound tail
  · exact False.elim

/-! ## A handshake -/

variable (role) in
theorem wp_driver {start : Ground} {core : TransactionCore} (steady : Steady sha book start.system)
    (opened : start.system.core = some core) (deadline : Nat) :
    (driver book role deadline).run.wp (port sha book) (Handed sha book role start) (Gone sha book role start)
      start := by
  cases role with
  | server => exact wp_serverHandshake steady opened deadline
  | client => exact wp_clientHandshake steady opened deadline

/-- A handshake writes nothing to the log. -/
theorem Spent.audited {start g : Ground} (spent : Spent sha book role start g) {entry : AuditEntry}
    (mem : Mark.audited entry ∈ g.marks) : Mark.audited entry ∈ start.marks := by
  obtain ⟨sealed, asked⟩ := spent.asks
  refine (asked.mem mem).resolve_right ?_
  rintro ⟨op, other⟩
  cases other

theorem Spent.kept {start g : Ground} (spent : Spent sha book role start g) {m : Mark} (mem : m ∈ start.marks) :
    m ∈ g.marks := by
  obtain ⟨sealed, ops, marks, -⟩ := spent.asks
  rw [marks]
  exact List.mem_append_left _ mem

/-- What the connections keep while one of them shakes hands. -/
theorem Kept.onGround (kept : Kept sha book role s) {g : Ground} (left : Left sha book role s.ground g) :
    Kept sha book role { s with ground := g } where
  steady := left.spent.steady
  idle := by
    intro closed
    obtain ⟨core, opened⟩ := left.opened
    cases closed.symm.trans opened
  history := kept.history.spent left.spent
  holds := fun k conn here session info has => (kept.holds k conn here session info has).spent left.spent
  apart := kept.apart
  served := fun k session info here => left.spent.kept (kept.served k session info here)
  logged := fun file here => (kept.logged file here).of_marks fun _ mem => left.spent.audited mem

/-- A session is handed over: the others stay where they are. -/
theorem Kept.establish (kept : Kept sha book role s) {g : Ground} {session : Session} {info : SessionInfo}
    (fresh : OnSegment book role session info.segment ⟨1⟩)
    (keyed : Keyed sha book s.ground info.segment.get.toNat
      [(keyAt book role info.segment.get.toNat, recordNonce session.domain role.sendDirection .zero)] g) :
    Kept sha book role { s with ground := g.mark (.established info session.keys) } := by
  have left : Left sha book role s.ground g := keyed.left (.inr ⟨_, rfl⟩)
  have there := kept.onGround left
  refine ⟨there.steady, there.idle, kept.history.established fresh keyed, ?_, kept.apart, ?_, ?_⟩
  · exact fun k conn here session' info' has => (there.holds k conn here session' info' has).mark rfl
  · intro k session' info' here
    exact List.mem_append_left _ (there.served k session' info' here)
  · intro file here
    refine (there.logged file here).of_marks fun entry mem => (List.mem_append.mp mem).resolve_right ?_
    intro other
    cases List.mem_singleton.mp other

theorem Kept.handshake (kept : Kept sha book role s) (k : Nat) (lucks : List (Luck sha)) (tail : Option Bytes)
    (running : s.conns ≠ []) : Kept sha book role (handshake sha book role k lucks tail s) := by
  obtain ⟨core, opened⟩ := Option.ne_none_iff_exists'.mp fun closed => running (kept.idle closed)
  have ends := exec_of_wp (wp_driver role kept.steady opened s.flags.deadline) lucks
  unfold Station.handshake
  revert ends
  rcases (driver book role s.flags.deadline).run.exec (port sha book) lucks s.ground with ⟨out | _ | _, g⟩
  · rintro (⟨e, left⟩ | ⟨fresh, keyed, opened', generation⟩)
    · exact (kept.onGround left).setConn_none k rfl
    · refine (kept.establish fresh keyed).setConn k _ ?_ ?_ ?_
      · rintro _ _ ⟨⟩
        exact .established kept.history fresh keyed
      · rintro j conn _ there session' info' _ _ has ⟨⟩ same
        have earlier := ((kept.holds j conn there session' info' has).before keyed).ne
        rw [same] at earlier
        exact absurd rfl earlier
      · rintro _ _ ⟨⟩
  · intro gone
    exact kept.gone gone.spent.steady (kept.history.spent gone.spent) (fun _ mem => gone.spent.audited mem) tail
  · exact False.elim

/-! ## The other steps -/

theorem Kept.audit (kept : Kept sha book role s) (k : Nat) (e : Emission) {conn : Conn}
    (here : s.conns[k]? = some conn) : Kept sha book role (audit book role k e s conn) := by
  cases conn with
  | owing entry => exact (kept.emitted entry e).setConn_none k rfl
  | established session info =>
      have there := kept.emitted (issued book info) e
      have audited := @audited_of_emitted s (issued book info) e
      have holding := there.holds k (.established session info) here session info rfl
      have apart := fun j conn' ne old => there.apart j k conn' (.established session info) ne old here
      unfold Station.audit
      dsimp only
      split
      · rename_i s' ok
        rw [ok] at there audited holding apart
        refine there.setConn k _ ?_ ?_ ?_
        · rintro _ _ ⟨⟩
          exact holding
        · rintro j conn' ne old session' info' _ _ has ⟨⟩
          exact apart j conn' ne old session' info' session info has rfl
        · rintro _ _ ⟨⟩
          exact audited rfl
      · rename_i s' failed
        rw [failed] at there
        cases role with
        | server => exact there.setConn_none k rfl
        | client => exact there.setConn_none k rfl
  | _ => exact kept

/-- What the other connections keep in a call of one session. -/
theorem Kept.onCall (kept : Kept sha book role s) {k : Nat} {session session' : Session} {info : SessionInfo}
    {g : Ground} (here : s.conns[k]? = some (.serving session info))
    (used : Used role info.segment session s.ground session' g) :
    Kept sha book role { s.setConn k .closed with ground := g } := by
  have holding := kept.holds k _ here session info rfl
  have without := kept.setConn_none k (rfl : Conn.closed.session = none)
  refine ⟨?_, ?_, kept.history.used holding used (kept.served k session info here), ?_, without.apart, ?_, ?_⟩
  · rw [used.system]
    exact kept.steady
  · rw [used.system]
    exact without.idle
  · intro j conn there session'' info' has
    rcases conns_setConn there with ⟨-, rfl⟩ | ⟨ne, old⟩
    · cases has
    · have apart := kept.apart j k conn _ ne old here session'' info' session info has rfl
      exact (kept.holds j conn old session'' info' has).aside kept.steady holding apart used
  · exact fun j session'' info' there => used.kept (without.served j session'' info' there)
  · exact fun file there => (kept.logged file there).of_marks fun _ mem => used.audited mem

theorem Kept.record (kept : Kept sha book role s) (k : Nat) (call : RecordCall) (answers : List Answer)
    {session : Session} {info : SessionInfo} (here : s.conns[k]? = some (.serving session info)) :
    Kept sha book role (record k call answers s session info) := by
  have holding := kept.holds k _ here session info rfl
  have calls : (call.on session).wp (recordHost info.segment) (Used role info.segment session s.ground)
      (fun _ => False) s.ground := wp_recordCall holding.coherent holding.played call
  have ends := exec_of_wp calls answers
  unfold Station.record
  revert ends
  rcases (call.on session).exec (recordHost info.segment) answers s.ground with ⟨session' | _ | _, g⟩
  · intro used
    have again : ({ s with ground := g } : Site).setConn k (.serving session' info) =
        ({ s.setConn k .closed with ground := g } : Site).setConn k (.serving session' info) := by
      simp only [Site.setConn, List.set_set]
    dsimp only
    rw [again]
    refine (kept.onCall here used).setConn k _ ?_ ?_ ?_
    · rintro _ _ ⟨⟩
      exact holding.used used
    · rintro j conn ne there session'' info' _ _ has ⟨⟩
      rcases conns_setConn there with ⟨same, -⟩ | ⟨-, old⟩
      · exact absurd same ne
      · exact kept.apart j k conn _ ne old here session'' info' session info has rfl
    · rintro _ _ ⟨⟩
      exact used.kept (kept.served k session info here)
  · exact False.elim
  · exact False.elim

/-- The next connection. -/
theorem Kept.accept (kept : Kept sha book role s) (running : s.ground.system.core ≠ none) :
    Kept sha book role { s with conns := s.conns ++ [.accepted] } := by
  have old {k : Nat} {conn : Conn} (here : (s.conns ++ [.accepted])[k]? = some conn) :
      s.conns[k]? = some conn ∨ conn = .accepted := by
    rcases lt_or_ge k s.conns.length with below | late
    · rw [List.getElem?_append_left below] at here
      exact .inl here
    · rw [List.getElem?_append_right late] at here
      exact .inr (List.mem_singleton.mp (List.mem_of_getElem? here))
  refine ⟨kept.steady, fun closed => absurd closed running, kept.history, ?_, ?_, ?_, kept.logged⟩
  · intro k conn here session info has
    rcases old here with there | rfl
    · exact kept.holds k conn there session info has
    · cases has
  · intro k k' conn conn' ne here here' session info session' info' has has'
    rcases old here with there | rfl
    · rcases old here' with there' | rfl
      · exact kept.apart k k' conn conn' ne there there' session info session' info' has has'
      · cases has'
    · cases has
  · intro k session info here
    rcases old here with there | other
    · exact kept.served k session info there
    · cases other

/-- **Every step keeps the invariant.** -/
theorem step_kept (event : Event sha) (s : Site) (kept : Kept sha book role s) :
    Kept sha book role (step sha book role event s) := by
  cases event with
  | start flags recovery fates e tail =>
      simp only [step]
      split
      · rename_i closed
        have here : Kept sha book role { s with flags } := ⟨kept.steady, kept.idle, kept.history, kept.holds,
          kept.apart, kept.served, kept.logged⟩
        exact here.startUp closed recovery fates e tail
      · exact kept
  | accept =>
      simp only [step]
      split
      · rename_i running
        exact kept.accept running.1
      · exact kept
  | handshake k lucks tail =>
      simp only [step]
      split
      · rename_i here
        refine kept.handshake k lucks tail fun empty => ?_
        rw [empty] at here
        cases here
      · exact kept
  | look k =>
      simp only [step]
      split
      · exact kept.setConn_none k rfl
      · exact kept
  | audit k e =>
      simp only [step]
      split
      · rename_i here
        exact kept.audit k e here
      · exact kept
  | record k call answers =>
      simp only [step]
      split
      · rename_i here
        exact kept.record k call answers here
      · exact kept
  | finish k category =>
      simp only [step]
      split
      · cases category with
        | none => exact kept.setConn_none k rfl
        | some category => exact kept.setConn_none k rfl
      · exact kept
  | lose loss tail =>
      have steady : Steady sha book (s.ground.lose loss).system :=
        Allocator.step_steady (.lose loss) _ kept.steady
      have history : History book role (s.ground.lose loss) := kept.history.withSystem rfl
      exact kept.gone steady history (fun _ mem => mem) tail

theorem run_kept (log : Option LogFile) (events : List (Event sha)) :
    Kept sha book role (run (step sha book role) events (Site.initial sha book log)) :=
  run_invariant _ step_kept events (kept_initial log)

end Kept

/-! ## Whole lives -/

/-- The keys of a server and a client differ, wherever they are in the book. -/
theorem keys_disjoint {sha : Bytes → Digest} {book : BookFile} {server client : Site}
    (distinct : DistinctHalves (bodies book)) (serving : Kept sha book .server server)
    (connecting : Kept sha book .client client) {sealing : DirectionKey × Nonce96}
    (here : sealing ∈ sealings server.ground.marks) : sealing ∉ sealings client.ground.marks := by
  intro there
  obtain ⟨d, mem, key⟩ := serving.history.keys sealing.1 sealing.2 here
  obtain ⟨d', mem', key'⟩ := connecting.history.keys sealing.1 sealing.2 there
  have inside := serving.steady.delivered.inside d mem
  have inside' := connecting.steady.delivered.inside d' mem'
  cases (keyAt_inj distinct inside inside' (key.symm.trans key')).2

section Lives

/-- A book of two segments, with four halves that differ. -/
def twoBook : BookFile where
  bookId := ⟨.replicate 16 3⟩
  segmentCount := 2
  body i := ⟨.replicate 32 i.get.toUInt8 ++ .replicate 32 (i.get.toUInt8 + 2), by simp⟩

theorem distinctHalves_twoBook : DistinctHalves (bodies twoBook) := by
  have two : bodies twoBook = [twoBook.body ⟨0⟩, twoBook.body ⟨1⟩] := rfl
  have all : ∀ k < 2, ∀ k' < 2, ∀ body ∈ (bodies twoBook)[k]?, ∀ body' ∈ (bodies twoBook)[k']?,
      ∀ d ∈ [Direction.clientToServer, .serverToClient], ∀ d' ∈ [Direction.clientToServer, .serverToClient],
      (SessionKeys.split body).keyFor d = (SessionKeys.split body').keyFor d' → k = k' ∧ d = d' := by
    decide +kernel
  intro k k' body body' d d' here here'
  have below {k : Nat} {body : Segment} (here : (bodies twoBook)[k]? = some body) : k < 2 := by
    rw [two] at here
    exact (List.getElem?_eq_some_iff.mp here).1
  exact all k (below here) k' (below here') body here body' here' d (by cases d <;> decide) d' (by cases d' <;> decide)

/-- A hash of nothing. -/
def noSha : Bytes → Digest := fun _ => .replicate 32 0

/-- All goes well, and the peer sends the message. -/
def hears (msg : Message) : Luck noSha where
  lost := none
  deadline := .ok ()
  sent := .ok ()
  received :=
    match encode msg with
    | .ok wire => .ok wire
    | .error _ => .error .closedByPeer
  sealed := some ([], .replicate 16 9)
  opened := some (encodeConfirmBody
    (sealedBody twoBook.bookId .zero (.replicate 16 7) (.replicate 16 8) .clientToServer))
  random := some (.replicate 16 8)
  issue := []

/-- A client whose server answers, and then has nothing more to say. -/
def asked (pointer : SegmentIndex) : List (Luck noSha) :=
  .replicate 12 (hears (.arbitrate (.replicate 16 8) pointer .ok))

/-- It is killed after its CONFIRM, and starts again. -/
def twoStarts : List (Event noSha) :=
  [.start ⟨1, 30⟩ [] [] ⟨[], true⟩ none, .accept, .handshake 0 (asked ⟨0⟩) none, .lose .kill none,
    .start ⟨1, 30⟩ [] [] ⟨[], true⟩ none, .accept, .handshake 0 (asked ⟨1⟩) none]

/-- A client that says what a server expects. -/
def heard : List (Luck noSha) :=
  let sealed : Exactly 103 := ⟨List.replicate 87 1 ++ List.replicate 16 9, rfl⟩
  .replicate 5 (hears (.hello twoBook.bookId (.replicate 16 7) .zero ⟨0⟩)) ++
    .replicate 2 (hears (.issueRequest .zero (.replicate 16 7) (.replicate 16 8))) ++
    .replicate 5 (hears (.confirmC2s .zero (.replicate 16 15) ⟨0⟩ .zero sealed))

/-- It is served, and one record is sealed for it. -/
def oneRecord : List (Event noSha) :=
  [.start ⟨1, 30⟩ [] [] ⟨[], true⟩ none, .accept, .handshake 0 heard none, .audit 0 ⟨[], true⟩,
    .record 0 (.seal .data [1]) []]

end Lives

/-- **The audit comes before the data plane.** Whenever a session asked the cipher for a record, the log
had taken the entry that its segment was issued before; and where there is a log file, the line of that
entry is in what was synced, whatever was killed or lost its power since. -/
theorem audit_before_records (sha : Bytes → Digest) (book : BookFile) (role : Role) (log : Option LogFile)
    (events : List (Event sha)) :
    let s := run (step sha book role) events (Site.initial sha book log)
    ∀ (i : Nat) (segment : SegmentIndex) (op : HostOp), s.ground.marks[i]? = some (.record segment op) →
      ∃ j < i, ∃ info : SessionInfo, info.segment = segment ∧
        s.ground.marks[j]? = some (.audited (issued book info)) ∧
        ∀ file, s.log = some file → AuditLog.line (issued book info) <:+: file.synced := by
  intro s i segment op here
  have kept : Kept sha book role s := run_kept log events
  obtain ⟨j, before, info, same, there⟩ := kept.history.preceded i segment op here
  refine ⟨j, before, info, same, there, fun file log => ?_⟩
  exact kept.logged file log _ (List.mem_of_getElem? there)

end Jbuu.Station
