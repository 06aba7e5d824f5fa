/-
# Recovery.SecondProcess — a start-up beside a process that holds the lock

One process has an open allocator and takes calls; another one runs `startUp` on the same
two files. `Race` is the machine of both: what is left of the two programs, the files, and
as ghosts what the live process last wrote to each copy, which records the starting one
has read, and which a copy held when the starting one truncated it. A turn is one request
of either process, done or failed as the adversary says, or the begin of a call.

The lock is held throughout, so the starting process ends without a core; but
`startup_recover` runs before it asks for the lock. The live process writes A and then B
(`InTurn`); `Yields` is what the starting one may rely on between its requests, and
`wp_startUp` what follows for the one copy it writes: a record that the copy holds and
that the starting process has read is not after the adopted one, and a record that it has
not read is. `second_process_never_lowers_iff` reads the exact condition off.
-/
import Jbuu.Allocator.Recovery
import Jbuu.Recovery.StartUp
import Jbuu.Library.Interference
import Jbuu.Library.Runs
import Mathlib.Logic.Function.Basic

namespace Jbuu.Recovery

set_option autoImplicit false

open Jbuu.Library.BigEndian (Bytes)
open Jbuu.Library
open Jbuu.Library.Program (call asked failWith failIf mapErr interpret interpret_call
  interpret_failIf wp_interpret_except_bind wp_interpret_failWith wp_interpret_lift run_attempt wp_bind wp_map wp_except_bind wp_except_lift wp_failWith wp_failIf wp_mapErr wp_mono
  wp_amid_call wp_amid_moves wp_amid_step)
open Jbuu.Allocator (MediaOp MediaReply MediaError IssueError BookFile TransactionCore Transaction
  Disk Effect Call Delivery Reservation ReservedRange Begins)

section Machine

variable (sha : Bytes → Digest)

/-- How a request of a process that is not killed in it ends. -/
inductive Answer where
  | ok
  | fail (error : PlatformError) (book : BookError) (media : MediaError) (effect : Effect sha)

variable {sha}

/-- What was done of the request. -/
def Answer.effect : Answer sha → Effect sha
  | .ok => .whole
  | .fail _ _ _ effect => effect

def Answer.plain : Answer sha → Except PlatformError Unit
  | .ok => .ok ()
  | .fail error _ _ _ => .error error

/-- What a request writes, and where. -/
def PlatformOp.writes : PlatformOp → Option (AnchorCopy × Bytes)
  | .writeFull copy bytes => some (copy, bytes)
  | .media (.write copy bytes) => some (copy, bytes)
  | _ => none

structure Shared where
  disk : Disk
  /-- What the live process last wrote to each copy. -/
  latest : AnchorCopy → AnchorRecord
  /-- The records the starting process has read. -/
  seen : List AnchorRecord
  /-- What a copy held when the starting process truncated it. -/
  displaced : List (AnchorCopy × AnchorRecord)

variable (sha)

def Shared.reads (s : Shared) (copy : AnchorCopy) : Except AnchorSpecError AnchorRecord :=
  decodeAndVerify sha (s.disk.get copy).cached

/-- The record that a write to the copy replaces. -/
def Shared.Held (s : Shared) (copy : AnchorCopy) (old : AnchorRecord) : Prop :=
  s.reads sha copy = .ok old ∨ (copy, old) ∈ s.displaced

/-- The records last written, after one more request of the live process. -/
def written (latest : AnchorCopy → AnchorRecord) : MediaOp → Effect sha → AnchorCopy → AnchorRecord
  | .write copy bytes, .whole =>
      match decodeAndVerify sha bytes with
      | .ok record => Function.update latest copy record
      | .error _ => latest
  | _, _ => latest

/-- What the live process sees. -/
def liveSide (book : BookFile) : Device MediaOp MediaReply (Answer sha) Shared :=
  fun op answer s =>
    (some (match answer with
      | .ok => Allocator.reply book s.disk op
      | .fail _ _ error _ => Allocator.failure error op),
      { s with
        disk := s.disk.partly op answer.effect
        latest := written sha s.latest op answer.effect })

/-- What the starting process sees. The other one holds the lock. -/
def startingSide (book : BookFile) : Device PlatformOp PlatformReply (Answer sha) Shared
  | .openExisting _, answer, s => (some answer.plain, s)
  | .readToEnd copy, answer, s =>
      match answer with
      | .ok => (some (.ok (s.disk.get copy).cached),
          { s with seen := (s.reads sha copy).toOption.toList ++ s.seen })
      | .fail error _ _ _ => (some (.error error), s)
  | .setLenZero copy, answer, s =>
      (some answer.plain,
        { s with
          disk := s.disk.partly (.write copy []) answer.effect
          displaced := (s.reads sha copy).toOption.toList.map (copy, ·) ++ s.displaced })
  | .writeFull copy bytes, answer, s =>
      (some answer.plain, { s with disk := s.disk.partly (.write copy bytes) answer.effect })
  | .fsync copy, answer, s =>
      (some answer.plain, { s with disk := s.disk.partly (.sync copy) answer.effect })
  | .openBook, answer, s =>
      (some (match answer with
        | .ok => .ok ⟨book.bookId, book.segmentCount⟩
        | .fail _ error _ _ => .error error), s)
  | .openMedia _, answer, s => (some answer.plain, s)
  | .lock, _, s => (some (.error .lockHeld), s)
  | .media op, answer, s =>
      (some (match answer with
        | .ok => Allocator.reply book s.disk op
        | .fail _ _ error _ => Allocator.failure error op),
        { s with disk := s.disk.partly op answer.effect })

/-- The two processes: what is left of the call of the one and of the start-up of the other. -/
structure Race where
  shared : Shared
  core : TransactionCore
  running : Option (Transaction (Except IssueError (List Delivery) × TransactionCore))
  starting : Platform (Except StartUpError TransactionCore)

inductive Turn where
  | call (call : Call)
  | live (answer : Answer sha)
  | start (answer : Answer sha)

def Race.step (book : BookFile) : Turn sha → Race → Race
  | .call call, s =>
      match s.running with
      | none => { s with running := some (call.on sha s.core) }
      | some _ => s
  | .live answer, s =>
      match s.running with
      | some (.request op next) =>
          match liveSide sha book op answer s.shared with
          | (some reply, shared) => { s with shared, running := some (next reply) }
          | (none, _) => s
      | some (.pure (_, core)) => { s with core, running := none }
      | _ => s
  | .start answer, s =>
      match s.starting with
      | .request op next =>
          match startingSide sha book op answer s.shared with
          | (some reply, shared) => { s with shared, starting := next reply }
          | (none, _) => s
      | _ => s

/-- An idle live process, and a start-up of the book `expected` that has not begun. -/
def Race.begin (disk : Disk) (core : TransactionCore) (expected : BookId) : Race where
  shared := { disk, latest := fun _ => core.current, seen := [], displaced := [] }
  core
  running := none
  starting := (startUp sha expected).run

/-- The turn writes `new` where the copy held `old`, on the side of the starting process. -/
inductive Replaces (s : Race) (turn : Turn sha) (old new : AnchorRecord) : Prop
  | write {answer : Answer sha} {op : PlatformOp} {copy : AnchorCopy} {bytes : Bytes}
      (turns : turn = .start answer) (asks : s.starting.asked = some op)
      (writes : op.writes = some (copy, bytes)) (whole : answer.effect = .whole)
      (record : decodeAndVerify sha bytes = .ok new) (held : s.shared.Held sha copy old)

/-- No copy is lowered in this turn. -/
def NeverLowers (s : Race) (turn : Turn sha) : Prop :=
  ∀ old new, Replaces sha s turn old new → ¬new.Before old ∧ old.next.get ≤ new.next.get

/-- What is replaced in this turn, the starting process has read. -/
def Undisturbed (s : Race) (turn : Turn sha) : Prop :=
  ∀ old new, Replaces sha s turn old new → old ∈ s.shared.seen

end Machine

/-! ## The live process -/

section Live

variable {sha : Bytes → Digest} {book : BookFile}

/-- What the live process may ask for: a newer record for A once both copies are level,
the record of A for B. -/
inductive InTurn (sha : Bytes → Digest) (latest : AnchorCopy → AnchorRecord) : MediaOp → Prop
  | first {r : AnchorRecord} (canonical : r.Canonical) (level : latest .b = latest .a)
      (newer : (latest .a).LeadsTo r) : InTurn sha latest (.write .a (encodeRecord sha r))
  | second {r : AnchorRecord} (canonical : r.Canonical) (same : latest .a = r) :
      InTurn sha latest (.write .b (encodeRecord sha r))
  | other {op : MediaOp} (reads : ∀ copy bytes, op ≠ .write copy bytes) : InTurn sha latest op

/-- The live process as the starting one leaves it: what it last wrote is not touched. -/
noncomputable abbrev liveAmid (sha : Bytes → Digest) (book : BookFile) :
    Device MediaOp MediaReply (Answer sha × Shared) Shared :=
  (liveSide sha book).amid (fun s s' => s'.latest = s.latest) fun op _ s => InTurn sha s.latest op

instance : Std.Refl fun s s' : Shared => s'.latest = s.latest := ⟨fun _ => rfl⟩

instance : IsTrans Shared fun s s' : Shared => s'.latest = s.latest :=
  ⟨fun _ _ _ first second => second.trans first⟩

theorem written_other {latest : AnchorCopy → AnchorRecord} {op : MediaOp} {effect : Effect sha}
    (reads : ∀ copy bytes, op ≠ .write copy bytes) : written sha latest op effect = latest := by
  unfold written
  split
  · exact absurd rfl (reads _ _)
  · rfl

theorem written_whole {latest : AnchorCopy → AnchorRecord} {copy : AnchorCopy} {r : AnchorRecord}
    (canonical : r.Canonical) : written sha latest (.write copy (encodeRecord sha r)) .whole =
      Function.update latest copy r := by
  simp only [written, decodeAndVerify_encodeRecord sha r canonical]

section Requests

variable {s : Shared}

theorem live_boundary {point : Allocator.Boundary} {post : Except MediaError Unit → Shared → Prop}
    (next : ∀ out s', s'.latest = s.latest → post out s') :
    (Allocator.boundary point).run.wp (liveAmid sha book) post (fun _ => False) s := by
  refine wp_amid_call.mpr fun answer now moved => ⟨.other nofun, next _ _ ?_⟩
  show written sha now.latest (.boundary point) answer.effect = s.latest
  rw [written_other (by nofun), moved]

theorem live_sync {copy : AnchorCopy} {post : Except MediaError Unit → Shared → Prop}
    (next : ∀ out s', s'.latest = s.latest → post out s') :
    (Allocator.sync copy).run.wp (liveAmid sha book) post (fun _ => False) s := by
  refine wp_amid_call.mpr fun answer now moved => ⟨.other nofun, next _ _ ?_⟩
  show written sha now.latest (.sync copy) answer.effect = s.latest
  rw [written_other (by nofun), moved]

theorem live_segment {index : SegmentIndex} {post : Except MediaError Segment → Shared → Prop}
    (next : ∀ out s', s'.latest = s.latest → post out s') :
    (Allocator.segment index).run.wp (liveAmid sha book) post (fun _ => False) s := by
  refine wp_amid_call.mpr fun answer now moved => ⟨.other nofun, next _ _ ?_⟩
  show written sha now.latest (.segment index) answer.effect = s.latest
  rw [written_other (by nofun), moved]

theorem live_write {copy : AnchorCopy} {r : AnchorRecord}
    {post : Except MediaError Unit → Shared → Prop} (canonical : r.Canonical)
    (inTurn : InTurn sha s.latest (.write copy (encodeRecord sha r)))
    (done : ∀ s', s'.latest = Function.update s.latest copy r → post (.ok ()) s')
    (failed : ∀ e s', post (.error e) s') :
    (Allocator.write copy (encodeRecord sha r)).run.wp (liveAmid sha book) post (fun _ => False) s := by
  refine wp_amid_call.mpr fun answer now moved => ⟨moved ▸ inTurn, ?_⟩
  cases answer with
  | ok => exact done _ ((written_whole canonical).trans (congrArg (Function.update · copy r) moved))
  | fail error book media effect => exact failed media _

end Requests

theorem live_persistCopy {r : AnchorRecord} {at_ : Allocator.Points} {copy : AnchorCopy} {s : Shared}
    (canonical : r.Canonical) (inTurn : InTurn sha s.latest (.write copy (encodeRecord sha r))) :
    (Allocator.persistCopy sha r at_ copy).run.wp (liveAmid sha book)
      (fun out s' => out = .ok () → s'.latest = Function.update s.latest copy r)
      (fun _ => False) s := by
  unfold Allocator.persistCopy
  rw [wp_except_bind]
  apply live_boundary
  rintro (e | ⟨⟩) started same
  · nofun
  dsimp only
  rw [wp_except_bind]
  apply live_write canonical (same ▸ inTurn) ?_ fun _ _ => nofun
  intro after isWritten
  rw [same] at isWritten
  rw [wp_except_bind]
  apply live_boundary
  rintro (e | ⟨⟩) completed still
  · nofun
  dsimp only
  rw [wp_except_bind]
  apply live_boundary
  rintro (e | ⟨⟩) syncing still'
  · nofun
  dsimp only
  rw [wp_except_bind]
  apply live_sync
  rintro (e | ⟨⟩) synced still''
  · nofun
  apply live_boundary
  intro out returned last _
  rw [last, still'', still', still, isWritten]

/-- Both copies at one record, and the next record into both. -/
theorem live_persistPair {r : AnchorRecord} {intent : Bool} {s : Shared} (canonical : r.Canonical)
    (level : s.latest .b = s.latest .a) (newer : (s.latest .a).LeadsTo r) :
    (Allocator.persistPair sha r intent).run.wp (liveAmid sha book)
      (fun out s' => out = .ok () → ∀ copy, s'.latest copy = r) (fun _ => False) s := by
  unfold Allocator.persistPair
  rw [wp_except_bind]
  refine wp_mono (live_persistCopy canonical (.first canonical level newer)) ?_
    fun _ crashed => crashed
  rintro (e | ⟨⟩) first done
  · nofun
  have updated := done rfl
  have second : InTurn sha first.latest (.write .b (encodeRecord sha r)) :=
    .second canonical (by rw [updated, Function.update_self])
  refine wp_mono (live_persistCopy canonical second) ?_ fun _ crashed => crashed
  intro out both done ok copy
  rw [done ok, updated]
  cases copy <;> simp

theorem live_readBodies {base : SegmentIndex} {remaining : Nat} {i : UInt64} {bytes : Bytes}
    {s : Shared} :
    (TransactionCore.readBodies base remaining i bytes).run.wp (liveAmid sha book)
      (fun _ s' => s'.latest = s.latest) (fun _ => False) s := by
  induction remaining generalizing i bytes s with
  | zero => exact rfl
  | succ remaining ih =>
      rw [TransactionCore.readBodies, wp_except_bind, wp_failWith]
      apply live_segment
      rintro (e | body) read same
      · exact same
      · exact wp_mono ih (fun _ _ still => still.trans same) fun _ crashed => crashed

/-- A core at rest knows the size of the book, and both copies were last written as its
record, unless it is halted. -/
structure AtRest (book : BookFile) (core : TransactionCore) (latest : AnchorCopy → AnchorRecord) :
    Prop where
  size : core.segmentCount = book.segmentCount
  level : core.halted = false → ∀ copy, latest copy = core.current

theorem live_transact {core : TransactionCore} {n : UInt64} (res : Reservation book core n)
    {s : Shared} (size : core.segmentCount = book.segmentCount)
    (level : ∀ copy, s.latest copy = core.current) :
    (TransactionCore.transact sha core.current.next n res.newNext res.generation
      { core with current := res.intent }).wp (liveAmid sha book)
      (fun out s' => AtRest book out.2 s'.latest) (fun _ => False) s := by
  unfold TransactionCore.transact
  rw [wp_bind]
  refine wp_mono (live_persistPair res.canonical_intent ((level .b).trans (level .a).symm)
    (level .a ▸ res.leadsTo_intent)) ?_ fun _ crashed => crashed
  rintro (e | ⟨⟩) reserved done
  · exact ⟨size, nofun⟩
  have intents := done rfl
  rw [wp_bind]
  apply live_boundary
  rintro (e | ⟨⟩) reading same
  · exact ⟨size, fun _ copy => (congrFun same copy).trans (intents copy)⟩
  dsimp only
  rw [wp_bind]
  refine wp_mono live_readBodies ?_ fun _ crashed => crashed
  intro out read same'
  have still : ∀ copy, read.latest copy = res.intent := by
    intro copy
    rw [same', same, intents copy]
  rcases out with e | bytes
  · exact ⟨size, fun _ => still⟩
  dsimp only
  rw [wp_bind]
  refine wp_mono (live_persistPair (res.canonical_commitWith _) ((still .b).trans (still .a).symm)
    (still .a ▸ res.intent_leadsTo _)) ?_ fun _ crashed => crashed
  rintro (e | ⟨⟩) committed done
  · exact ⟨size, nofun⟩
  · exact ⟨size, fun _ => done rfl⟩

/-- **A call writes in turn**, and leaves the core at rest. -/
theorem live_call {core : TransactionCore} {s : Shared} (rest : AtRest book core s.latest)
    (call : Call) :
    (call.on sha core).wp (liveAmid sha book) (fun out s' => AtRest book out.2 s'.latest)
      (fun _ => False) s := by
  obtain ⟨program, begins, same⟩ := Allocator.call_begins sha rest.size call
  rw [same, wp_map]
  cases begins with
  | refused refused => exact rest
  | spent live left spent => exact ⟨rest.size, nofun⟩
  | reserves live res => exact live_transact res rest.size (rest.level live)

end Live

/-! ## The starting process -/

section Starting

variable {sha : Bytes → Digest} {book : BookFile}

/-- How far the live process may have got. -/
structure Reach (latest latest' : AnchorCopy → AnchorRecord) : Prop where
  first : (latest .a).LeadsTo (latest' .a)
  second : latest' .b = latest .b ∨ (latest .a).LeadsTo (latest' .b)

theorem Reach.trans {latest latest' latest'' : AnchorCopy → AnchorRecord} (before : Reach latest latest')
    (after : Reach latest' latest'') : Reach latest latest'' where
  first := before.first.trans after.first
  second := by
    rcases after.second with same | leads
    · rw [same]
      exact before.second
    · exact .inr (before.first.trans leads)

/-- The copies hold what the live process last wrote, where they hold a record. -/
structure Tracks (sha : Bytes → Digest) (s : Shared) : Prop where
  order : (s.latest .b).LeadsTo (s.latest .a)
  reads : ∀ copy r, s.reads sha copy = .ok r → r = s.latest copy

/-- What the starting process may rely on between its requests. -/
structure Yields (sha : Bytes → Digest) (s s' : Shared) : Prop where
  seen : s'.seen = s.seen
  displaced : s'.displaced = s.displaced
  reach : Reach s.latest s'.latest
  tracks : Tracks sha s → Tracks sha s'

instance : Std.Refl (Yields sha) :=
  ⟨fun _ => ⟨rfl, rfl, ⟨.refl _, .inl rfl⟩, id⟩⟩

instance : IsTrans Shared (Yields sha) where
  trans _ _ _ before after :=
    { seen := after.seen.trans before.seen
      displaced := after.displaced.trans before.displaced
      reach := before.reach.trans after.reach
      tracks := after.tracks ∘ before.tracks }

/-- Having read `old` or not tells how it lies to `new`. -/
def Tells (seen : List AnchorRecord) (new old : AnchorRecord) : Prop :=
  (old ∈ seen → ¬new.Before old ∧ old.next.get ≤ new.next.get) ∧ (old ∉ seen → new.Before old)

/-- The starting process as the live one leaves it: each record it replaces is told. -/
noncomputable abbrev startingAmid (sha : Bytes → Digest) (book : BookFile) :
    Device PlatformOp PlatformReply (Answer sha × Shared) Shared :=
  (startingSide sha book).amid (Yields sha) fun op answer s =>
    ∀ copy bytes new old, op.writes = some (copy, bytes) → answer.effect = .whole →
      decodeAndVerify sha bytes = .ok new → s.Held sha copy old → Tells s.seen new old

/-- What a copy reads as after a request, of either process. -/
theorem reads_partly {d : Disk} {op : MediaOp} {effect : Effect sha} {copy : AnchorCopy}
    {r : AnchorRecord} (reads : decodeAndVerify sha ((d.partly op effect).get copy).cached = .ok r) :
    (decodeAndVerify sha (d.get copy).cached = .ok r ∧
        ∀ bytes, ¬(op = .write copy bytes ∧ effect = .whole)) ∨
      ∃ bytes, op = .write copy bytes ∧ effect = .whole ∧ decodeAndVerify sha bytes = .ok r := by
  cases op with
  | write at_ bytes =>
      by_cases same : copy = at_
      · subst same
        cases effect with
        | nothing => exact .inl ⟨reads, by simp⟩
        | half torn =>
            simp only [Disk.partly, Disk.get_set_same, Allocator.CopyState.cached_write] at reads
            exact absurd reads (torn.torn r)
        | whole =>
            simp only [Disk.partly, Disk.get_set_same, Allocator.CopyState.cached_write] at reads
            exact .inr ⟨bytes, rfl, rfl, reads⟩
      · have elsewhere : (d.partly (.write at_ bytes) effect).get copy = d.get copy := by
          cases effect with
          | nothing => rfl
          | half torn => exact Disk.get_set_ne _ _ same
          | whole => exact Disk.get_set_ne _ _ same
        rw [elsewhere] at reads
        exact .inl ⟨reads, by simp [Ne.symm same]⟩
  | sync at_ =>
      refine .inl ⟨?_, nofun⟩
      cases effect with
      | whole =>
          by_cases same : copy = at_
          · subst same
            simpa only [Disk.partly, Disk.get_set_same, Allocator.CopyState.cached_sync] using reads
          · simpa only [Disk.partly, Disk.get_set_ne _ _ same] using reads
      | _ => exact reads
  | _ => exact .inl ⟨reads, nofun⟩

theorem written_elsewhere {latest : AnchorCopy → AnchorRecord} {op : MediaOp} {effect : Effect sha}
    {copy : AnchorCopy} (elsewhere : ∀ bytes, ¬(op = .write copy bytes ∧ effect = .whole)) :
    written sha latest op effect copy = latest copy := by
  unfold written
  split
  · rename_i at_ bytes
    have differ : copy ≠ at_ := by
      rintro rfl
      exact elsewhere bytes ⟨rfl, rfl⟩
    cases decodeAndVerify sha bytes with
    | ok record => exact Function.update_of_ne differ ..
    | error e => rfl
  · rfl

theorem written_unfinished {latest : AnchorCopy → AnchorRecord} {op : MediaOp} {effect : Effect sha}
    (unfinished : effect ≠ .whole) : written sha latest op effect = latest :=
  funext fun _ => written_elsewhere fun _ both => unfinished both.2

/-- The copies go on holding what was last written to them. -/
theorem Tracks.reads_written {s : Shared} (tracks : Tracks sha s) {op : MediaOp} {effect : Effect sha}
    {copy : AnchorCopy} {r : AnchorRecord}
    (reads : decodeAndVerify sha ((s.disk.partly op effect).get copy).cached = .ok r) :
    r = written sha s.latest op effect copy := by
  rcases reads_partly reads with ⟨before, elsewhere⟩ | ⟨bytes, rfl, rfl, decodes⟩
  · rw [written_elsewhere elsewhere]
    exact tracks.reads copy r before
  · simp only [written, decodes, Function.update_self]

/-- The live process keeps what the starting one relies on. -/
theorem InTurn.yields {s : Shared} {op : MediaOp} (inTurn : InTurn sha s.latest op)
    (answer : Answer sha) :
    Yields sha s { s with
      disk := s.disk.partly op answer.effect
      latest := written sha s.latest op answer.effect } := by
  have progress : Reach s.latest (written sha s.latest op answer.effect) ∧
      ((s.latest .b).LeadsTo (s.latest .a) →
        (written sha s.latest op answer.effect .b).LeadsTo
          (written sha s.latest op answer.effect .a)) := by
    by_cases whole : answer.effect = .whole
    · cases inTurn with
      | @first r canonical level newer =>
          rw [whole, written_whole canonical]
          have a : Function.update s.latest .a r .a = r := Function.update_self ..
          have b : Function.update s.latest .a r .b = s.latest .b := Function.update_of_ne (by decide) ..
          exact ⟨⟨a.symm ▸ newer, .inl b⟩, fun _ => by rw [a, b, level]; exact newer⟩
      | @second r canonical same =>
          rw [whole, written_whole canonical]
          have a : Function.update s.latest .b r .a = s.latest .a := Function.update_of_ne (by decide) ..
          have b : Function.update s.latest .b r .b = r := Function.update_self ..
          refine ⟨⟨by rw [a]; exact .refl _, .inr ?_⟩, fun _ => ?_⟩
          · rw [b, same]
            exact .refl r
          · rw [a, b, same]
            exact .refl r
      | other reads =>
          rw [written_other reads]
          exact ⟨⟨.refl _, .inl rfl⟩, id⟩
    · rw [written_unfinished whole]
      exact ⟨⟨.refl _, .inl rfl⟩, id⟩
  exact
    { seen := rfl
      displaced := rfl
      reach := progress.1
      tracks := fun tracks => ⟨progress.2 tracks.order, fun _ _ reads => tracks.reads_written reads⟩ }

section Requests

variable {s : Shared}

/-- A request that writes no record, its reply ignored. -/
theorem starting_quiet {op : PlatformOp} {post : PlatformReply op → Shared → Prop}
    (quiet : op.writes = none) (next : ∀ reply s', post reply s') :
    (call op).wp (startingAmid sha book) post (fun _ => False) s := by
  refine wp_amid_call.mpr fun answer now moved => ⟨fun _ _ _ _ writes => ?_, ?_⟩
  · cases quiet.symm.trans writes
  · cases op with
    | readToEnd copy => cases answer <;> exact next _ _
    | _ => exact next _ _

theorem starting_openExisting {copy : AnchorCopy} {post : Except PlatformError Unit → Shared → Prop}
    (next : ∀ out now, Yields sha s now → post out now) :
    (openExisting copy).run.wp (startingAmid sha book) post (fun _ => False) s :=
  wp_amid_call.mpr fun _ _ moved => ⟨nofun, next _ _ moved⟩

theorem starting_readVerified {copy : AnchorCopy}
    {post : Except PlatformError AnchorRecord → Shared → Prop}
    (read : ∀ r now, Yields sha s now → now.reads sha copy = .ok r →
      post (.ok r) { now with seen := r :: now.seen })
    (failed : ∀ e s', post (.error e) s') :
    (fileStore sha (.readVerified copy)).wp (startingAmid sha book) post (fun _ => False) s := by
  rw [fileStore, wp_except_bind]
  refine wp_amid_call.mpr fun answer now moved => ⟨by rintro _ _ _ _ ⟨⟩, ?_⟩
  cases answer with
  | fail error book media effect => exact failed _ _
  | ok =>
      show Program.wp _ post _ _ _
      cases reads : now.reads sha copy with
      | error e =>
          have decodes : decodeAndVerify sha (now.disk.get copy).cached = .error e := reads
          simp only [decodes]
          exact failed _ _
      | ok r =>
          have decodes : decodeAndVerify sha (now.disk.get copy).cached = .ok r := reads
          simp only [decodes]
          exact read r now moved reads

end Requests

section Stores

variable {copy : AnchorCopy} {r : AnchorRecord}

theorem interpret_readVerified : (readVerified copy).run.interpret (fileStore sha) =
    fileStore sha (.readVerified copy) := interpret_call

theorem interpret_writeFullAndSync : (writeFullAndSync copy r).run.interpret (fileStore sha) =
    fileStore sha (.writeFullAndSync copy r) := interpret_call

theorem interpret_syncParent : (syncParentIfCreated copy).run.interpret (fileStore sha) =
    fileStore sha (.syncParentIfCreated copy) := interpret_call

end Stores

/-! ### The repair -/

/-- What the starting process knows when it is about to put `r` into a copy. -/
structure Ready (sha : Bytes → Digest) (s : Shared) (copy : AnchorCopy) (r : AnchorRecord) : Prop where
  tracks : Tracks sha s
  fresh : s.displaced = []
  canonical : r.Canonical
  tells : ∀ latest, Reach s.latest latest → Tells s.seen r (latest copy)

theorem decodeAndVerify_nil (r : AnchorRecord) : decodeAndVerify sha [] ≠ .ok r := by
  simp [decodeAndVerify, anchorRecordLen]

/-- A truncated copy holds no record. -/
theorem Tracks.truncated {s : Shared} (tracks : Tracks sha s) (copy : AnchorCopy) (effect : Effect sha)
    (displaced : List (AnchorCopy × AnchorRecord)) :
    Tracks sha { s with disk := s.disk.partly (.write copy []) effect, displaced } where
  order := tracks.order
  reads copy' r reads := by
    rcases reads_partly reads with ⟨before, -⟩ | ⟨bytes, writes, -, decodes⟩
    · exact tracks.reads copy' r before
    · obtain ⟨rfl, rfl⟩ := MediaOp.write.inj writes
      exact absurd decodes (decodeAndVerify_nil r)

theorem starting_writeFullAndSync {s : Shared} {copy : AnchorCopy} {r : AnchorRecord}
    {post : Except PlatformError Unit → Shared → Prop} (ready : Ready sha s copy r)
    (next : ∀ out s', post out s') :
    (fileStore sha (.writeFullAndSync copy r)).wp (startingAmid sha book) post (fun _ => False) s := by
  rw [fileStore, wp_except_bind]
  refine wp_amid_call.mpr fun answer now moved => ⟨by rintro _ _ _ _ ⟨⟩, ?_⟩
  have tracks := moved.tracks ready.tracks
  cases answer with
  | fail error book media effect => exact next _ _
  | ok =>
      show Program.wp _ _ _ _ _
      rw [wp_except_bind]
      refine wp_amid_call.mpr fun answer later moved' => ⟨?_, ?_⟩
      · intro copy' bytes new old writes whole decodes held
        obtain ⟨rfl, rfl⟩ := Prod.mk.inj (Option.some.inj writes)
        rw [decodeAndVerify_encodeRecord sha r ready.canonical] at decodes
        obtain rfl := Except.ok.inj decodes
        rw [moved'.seen.trans moved.seen]
        rcases held with reads | displaced
        · -- The copy has been written again since it was truncated.
          rw [(moved'.tracks (tracks.truncated copy .whole _)).reads copy old reads]
          exact ready.tells _ (moved.reach.trans moved'.reach)
        · have before : now.reads sha copy = .ok old := by
            rw [moved'.displaced, moved.displaced, ready.fresh] at displaced
            cases reads : now.reads sha copy with
            | error e => simp [reads, Except.toOption] at displaced
            | ok x => simpa [reads, Except.toOption, eq_comm] using displaced
          rw [tracks.reads copy old before]
          exact ready.tells _ moved.reach
      · cases answer with
        | fail error book media effect => exact next _ _
        | ok => exact starting_quiet rfl next

theorem starting_repairStale {s : Shared} {copy : AnchorCopy} {r : AnchorRecord}
    (ready : Ready sha s copy r) :
    ((repairStale r (some copy)).run.interpret (fileStore sha)).wp (startingAmid sha book)
      (fun _ _ => True) (fun _ => False) s := by
  rw [repairStale, wp_interpret_except_bind, wp_interpret_failWith, interpret_writeFullAndSync]
  apply starting_writeFullAndSync ready
  rintro (e | ⟨⟩) written
  · trivial
  dsimp only
  rw [wp_interpret_except_bind, wp_interpret_failWith, interpret_syncParent]
  show ((do let repaired ← failWith .store (readVerified copy)
            failIf (repaired ≠ r) .store : ExceptT RecoveryError Restart Unit).run.interpret
    (fileStore sha)).wp (startingAmid sha book) (fun _ _ => True) (fun _ => False) written
  rw [wp_interpret_except_bind, wp_interpret_failWith, interpret_readVerified]
  apply starting_readVerified
  · intro back now moved reads
    dsimp only
    rw [interpret_failIf, wp_failIf]
    exact ⟨fun _ => trivial, fun _ => trivial⟩
  · intro e now
    trivial

/-- The adopted record of what was read, and a record that is one of these or comes after it. -/
theorem tells_of_leadsTo {a b r old : AnchorRecord} {stale : Option AnchorCopy}
    (settles : Settles a b r stale) (later : old = a ∨ old = b ∨ r.LeadsTo old) :
    Tells [b, a] r old := by
  have irrefl : ¬r.Before r := fun before => before.asymm before
  have bounds (x : AnchorRecord) (mem : x = b ∨ x = a) : ¬r.Before x ∧ x.next.get ≤ r.next.get := by
    cases settles with
    | level same =>
        subst same
        obtain rfl := mem.elim id id
        exact ⟨irrefl, UInt64.le_refl _⟩
    | behind before le =>
        rcases mem with rfl | rfl
        · exact ⟨irrefl, UInt64.le_refl _⟩
        · exact ⟨before.asymm, le⟩
    | ahead before le =>
        rcases mem with rfl | rfl
        · exact ⟨before.asymm, le⟩
        · exact ⟨irrefl, UInt64.le_refl _⟩
  have isRead : r = b ∨ r = a := by
    cases settles with
    | level => exact .inl rfl
    | behind => exact .inl rfl
    | ahead => exact .inr rfl
  constructor
  · intro mem
    exact bounds old (by simpa using mem)
  · intro unread
    obtain ⟨notB, notA⟩ : old ≠ b ∧ old ≠ a := by simpa using unread
    rcases later with same | same | same | ⟨before, -⟩
    · exact absurd same notA
    · exact absurd same notB
    · rcases isRead with isB | isA
      · exact absurd (same.symm.trans isB) notB
      · exact absurd (same.symm.trans isA) notA
    · exact before

theorem starting_recover {s : Shared} (tracks : Tracks sha s) (fresh : s.displaced = [])
    (unread : s.seen = []) :
    (recover.run.interpret (fileStore sha)).wp (startingAmid sha book) (fun _ _ => True)
      (fun _ => False) s := by
  -- What follows the two reads.
  have rest (ra rb : Except PlatformError AnchorRecord) (s : Shared)
      (ready : ∀ r copy, (decide (orCorrupt ra) (orCorrupt rb)).settled = some (r, some copy) →
        Ready sha s copy r) :
      ((do let settled ← adopted (decide (orCorrupt ra) (orCorrupt rb))
           proceed none (fun _ => true) settled.1 settled.2 :
        ExceptT RecoveryError Restart RecoveryReport).run.interpret (fileStore sha)).wp
        (startingAmid sha book) (fun _ _ => True) (fun _ => False) s := by
    have proceeds (r : AnchorRecord) (stale : Option AnchorCopy)
        (ready : ∀ copy, stale = some copy → Ready sha s copy r) :
        ((proceed none (fun _ => true) r stale).run.interpret (fileStore sha)).wp
          (startingAmid sha book) (fun _ _ => True) (fun _ => False) s := by
      unfold proceed
      rw [wp_interpret_except_bind, interpret_failIf, wp_failIf]
      refine ⟨fun _ => trivial, fun _ => ?_⟩
      rw [wp_interpret_except_bind, interpret_failIf, wp_failIf]
      refine ⟨fun _ => trivial, fun _ => ?_⟩
      rw [wp_interpret_except_bind]
      cases stale with
      | none => trivial
      | some copy =>
          refine wp_mono (starting_repairStale (ready copy rfl)) ?_ fun _ crashed => crashed
          rintro (e | ⟨⟩) _ _ <;> trivial
    rw [wp_interpret_except_bind]
    cases decision : decide (orCorrupt ra) (orCorrupt rb) with
    | consistent r => exact proceeds r none (by rintro _ ⟨⟩)
    | adoptHigher r stale =>
        refine proceeds r (some stale) fun copy same => ?_
        obtain rfl := Option.some.inj same
        exact ready r stale (by rw [decision]; rfl)
    | _ => trivial
  unfold recover recoverWithOptions
  rw [wp_interpret_except_bind, wp_interpret_lift, interpret_readVerified]
  apply starting_readVerified
  swap
  · -- Copy A could not be read: nothing is adopted.
    intro e s'
    dsimp only
    rw [wp_interpret_except_bind, wp_interpret_lift, interpret_readVerified]
    apply starting_readVerified
    · intro b now _ _
      refine rest _ _ _ fun r copy settled => ?_
      obtain ⟨a, _, readsA, -⟩ := settled_decide_iff.mp settled
      cases readsA
    · intro e' now
      refine rest _ _ _ fun r copy settled => ?_
      obtain ⟨a, _, readsA, -⟩ := settled_decide_iff.mp settled
      cases readsA
  intro a first moved readsA
  dsimp only
  rw [wp_interpret_except_bind, wp_interpret_lift, interpret_readVerified]
  apply starting_readVerified
  swap
  · intro e now
    refine rest _ _ _ fun r copy settled => ?_
    obtain ⟨_, b, -, readsB, -⟩ := settled_decide_iff.mp settled
    cases readsB
  intro b second moved' readsB
  refine rest _ _ _ fun r copy settled => ?_
  obtain ⟨_, _, okA, okB, -, settles⟩ := settled_decide_iff.mp settled
  obtain rfl := Except.ok.inj okA
  obtain rfl := Except.ok.inj okB
  have tracksA := moved.tracks tracks
  have tracksB := moved'.tracks ⟨tracksA.order, tracksA.reads⟩
  have isA := tracksA.reads .a a readsA
  have isB := tracksB.reads .b b readsB
  have unseen : second.seen = [a] := by
    rw [moved'.seen]
    show a :: first.seen = [a]
    rw [moved.seen, unread]
  have onward : a.LeadsTo (second.latest .a) := isA ▸ moved'.reach.first
  refine ⟨⟨tracksB.order, tracksB.reads⟩, ?_, ?_, fun latest reach => ?_⟩
  · exact moved'.displaced.trans (moved.displaced.trans fresh)
  · cases settles with
    | behind => exact decodeAndVerify_canonical readsB
    | ahead => exact decodeAndVerify_canonical readsA
  · show Tells (b :: second.seen) r (latest copy)
    rw [unseen]
    refine tells_of_leadsTo settles ?_
    cases settles with
    | behind before le => exact .inr (.inr ((isB ▸ tracksB.order).trans reach.first))
    | ahead before le =>
        rcases reach.second with same | leads
        · exact .inr (.inl (same.trans isB.symm))
        · exact .inr (.inr (onward.trans leads))

/-- The lock is held: the second stage ends before it reads the copies. -/
theorem starting_allocatorOpen {expected : BookId} {s : Shared} :
    (allocatorOpen sha expected).run.wp (startingAmid sha book) (fun _ _ => True)
      (fun _ => False) s := by
  unfold allocatorOpen
  rw [wp_except_bind, wp_mapErr]
  apply starting_quiet rfl
  rintro (e | header) _
  · trivial
  dsimp only
  rw [wp_except_bind, wp_failIf]
  refine ⟨fun _ => trivial, fun _ => ?_⟩
  rw [wp_except_bind, wp_failWith]
  apply starting_quiet rfl
  rintro (e | ⟨⟩) _
  · trivial
  dsimp only
  rw [wp_except_bind, wp_failWith]
  apply starting_quiet rfl
  rintro (e | ⟨⟩) _
  · trivial
  dsimp only
  rw [wp_except_bind, wp_mapErr]
  exact wp_amid_call.mpr fun _ _ _ => ⟨nofun, trivial⟩

/-- **What the start-up replaces is told**, whatever the live process does in between. -/
theorem starting_startUp {expected : BookId} {s : Shared} (tracks : Tracks sha s)
    (fresh : s.displaced = []) (unread : s.seen = []) :
    (startUp sha expected).run.wp (startingAmid sha book) (fun _ _ => True) (fun _ => False) s := by
  have second : ∀ s, (mapErr StartUpError.allocator (allocatorOpen sha expected)).run.wp (startingAmid sha book)
      (fun _ _ => True) (fun _ => False) s := by
    intro s
    rw [wp_mapErr]
    refine wp_mono starting_allocatorOpen ?_ fun _ crashed => crashed
    rintro (e | core) _ _ <;> trivial
  unfold startUp startupRecover
  rw [wp_except_bind, wp_mapErr, wp_except_bind, wp_failWith]
  apply starting_openExisting
  rintro (e | ⟨⟩) openedA moved
  · trivial
  dsimp only
  rw [wp_except_bind, wp_failWith]
  apply starting_openExisting
  rintro (e | ⟨⟩) openedB moved'
  · trivial
  refine wp_mono (starting_recover (moved'.tracks (moved.tracks tracks))
    (moved'.displaced.trans (moved.displaced.trans fresh))
    (moved'.seen.trans (moved.seen.trans unread))) ?_ fun _ crashed => crashed
  rintro (e | report) now _
  · trivial
  · exact second now

end Starting

/-! ## Whole runs -/

section Runs

variable {sha : Bytes → Digest} {book : BookFile}

/-- Where the live process stands. -/
inductive Standing (sha : Bytes → Digest) (book : BookFile) (s : Race) : Prop
  | idle (running : s.running = none) (rest : AtRest book s.core s.shared.latest)
  | busy {p : Transaction (Except IssueError (List Delivery) × TransactionCore)}
      (running : s.running = some p)
      (holds : p.wp (liveAmid sha book) (fun out s' => AtRest book out.2 s'.latest)
        (fun _ => False) s.shared)

/-- What is left of each program keeps to what it owes the other one. -/
structure Paced (sha : Bytes → Digest) (book : BookFile) (s : Race) : Prop where
  standing : Standing sha book s
  starting : s.starting.wp (startingAmid sha book) (fun _ _ => True) (fun _ => False) s.shared

/-- A core that has just been opened on the files. -/
structure Attached (sha : Bytes → Digest) (book : BookFile) (core : TransactionCore) (disk : Disk) :
    Prop where
  size : core.segmentCount = book.segmentCount
  live : core.halted = false
  reads : ∀ copy, decodeAndVerify sha (disk.get copy).cached = .ok core.current

/-- `open` leaves its core attached, on files that were at rest. -/
theorem attached_of_open {before disk : Disk} {core : TransactionCore}
    {fates : List (Allocator.Fate sha)} (atRest : ∀ copy, (before.get copy).unsynced = [])
    (opens : (TransactionCore.open sha book.segmentCount book.bookId).run.exec
      (Allocator.media sha book) fates before = (.returned (.ok core), disk)) :
    Attached sha book core disk := by
  have sound : Allocator.Sound sha (fun _ _ => True) before := by
    refine ⟨fun _ _ _ => trivial, fun copy r reads older holds => ?_⟩
    obtain ⟨bytes, mem, decodes⟩ := holds
    rw [Allocator.CopyState.contents_of_synced (atRest copy), List.mem_singleton] at mem
    rw [mem, reads] at decodes
    exact Except.ok.inj decodes ▸ .refl r
  have holds : (TransactionCore.open sha book.segmentCount book.bookId).run.wp
      (Allocator.media sha book) (Allocator.Opened sha (fun _ _ => True) book before) _ before :=
    Allocator.wp_open sound fun _ _ _ _ _ _ => trivial
  have ends := Program.exec_of_wp holds fates
  rw [opens] at ends
  cases ends with
  | adopted _ reads _ => exact ⟨rfl, rfl, reads⟩

theorem paced_begin {core : TransactionCore} {disk : Disk} (attached : Attached sha book core disk)
    (expected : BookId) : Paced sha book (.begin sha disk core expected) where
  standing := .idle rfl ⟨attached.size, fun _ _ => rfl⟩
  starting := by
    refine starting_startUp ⟨.refl _, fun copy r reads => ?_⟩ rfl rfl
    exact Except.ok.inj (reads.symm.trans (attached.reads copy))

variable (book) in
/-- The starting process does not touch what the live one wrote last. -/
theorem startingSide_latest (op : PlatformOp) (answer : Answer sha) (s : Shared) :
    (startingSide sha book op answer s).2.latest = s.latest := by
  cases op with
  | readToEnd copy => cases answer <;> rfl
  | _ => rfl

theorem Paced.step {s : Race} (paced : Paced sha book s) (turn : Turn sha) :
    Paced sha book (s.step sha book turn) := by
  obtain ⟨standing, starts⟩ := paced
  obtain ⟨shared, core, running, starting⟩ := s
  cases turn with
  | call call =>
      cases standing with
      | idle isNone rest =>
          dsimp only at isNone
          subst isNone
          exact ⟨.busy rfl (live_call rest call), starts⟩
      | busy isSome holds =>
          dsimp only at isSome
          subst isSome
          exact ⟨.busy rfl holds, starts⟩
  | live answer =>
      cases standing with
      | idle isNone rest =>
          dsimp only at isNone
          subst isNone
          exact ⟨.idle rfl rest, starts⟩
      | @busy p isSome holds =>
          dsimp only at isSome
          subst isSome
          cases p with
          | pure out => exact ⟨.idle rfl holds, starts⟩
          | panic => exact holds.elim
          | request op next =>
              obtain ⟨inTurn, later⟩ := wp_amid_step holds answer
              exact ⟨.busy rfl later, wp_amid_moves (fun _ _ => trivial) (inTurn.yields answer) starts⟩
  | start answer =>
      cases starting with
      | pure out => exact ⟨standing, starts⟩
      | panic => exact ⟨standing, starts⟩
      | request op next =>
          have later := (wp_amid_step starts answer).2
          have same := startingSide_latest book op answer shared
          dsimp only at later
          simp only [Race.step]
          generalize startingSide sha book op answer shared = answered at later same ⊢
          rcases answered with ⟨_ | reply, shared'⟩
          · exact ⟨standing, starts⟩
          · refine ⟨?_, later⟩
            dsimp only at same
            cases standing with
            | idle isNone rest => exact .idle isNone (same ▸ rest)
            | busy isSome holds =>
                exact .busy isSome (wp_amid_moves (fun _ rest => same ▸ rest) same holds)

/-- What a paced start-up replaces is told. -/
theorem Paced.tells {s : Race} (paced : Paced sha book s) {turn : Turn sha} {old new : AnchorRecord}
    (replaces : Replaces sha s turn old new) : Tells s.shared.seen new old := by
  obtain ⟨turns, asks, writes, whole, record, held⟩ := replaces
  have starts := paced.starting
  cases left : s.starting with
  | request op next =>
      rw [left] at starts asks
      obtain rfl := Option.some.inj asks
      exact (wp_amid_step starts _).1 _ _ _ _ writes whole record held
  | _ => cases (left ▸ asks : asked _ = _)

/-- **When a second process does not lower a copy.** In every run of a process with an open
allocator beside a start-up on the same files, no write of the start-up lowers a copy, just
where all that its writes replace are records that it has read. -/
theorem second_process_never_lowers_iff (sha : Bytes → Digest) (book : BookFile)
    (core : TransactionCore) (disk : Disk) (expected : BookId)
    (attached : Attached sha book core disk) (turns : List (Turn sha)) :
    Along (Race.step sha book) (NeverLowers sha) turns (.begin sha disk core expected) ↔
      Along (Race.step sha book) (Undisturbed sha) turns (.begin sha disk core expected) := by
  refine along_iff _ (fun turn s paced => paced.step turn) (fun turn s paced => ?_) turns
    (paced_begin attached expected)
  constructor
  · intro lawful old new replaces
    by_contra unread
    exact (lawful old new replaces).1 ((paced.tells replaces).2 unread)
  · intro undisturbed old new replaces
    exact (paced.tells replaces).1 (undisturbed old new replaces)

/-- The start-up reads between the INTENT of one copy and that of the other, and writes the
INTENT over the COMMIT that is there by then. -/
theorem commit_is_lowered_to_intent :
    let sha : Bytes → Digest := fun _ => .replicate 32 0
    let book : BookFile := ⟨⟨.replicate 16 7⟩, 2, fun _ => .replicate 64 5⟩
    let core : TransactionCore := ⟨2, book.bookId, .init book.bookId, false⟩
    let file : Allocator.CopyState := ⟨encodeRecord sha core.current, []⟩
    let turns : List (Turn sha) := .call .issue :: List.replicate 2 (.live .ok) ++
      List.replicate 4 (.start .ok) ++ List.replicate 24 (.live .ok) ++ [.start .ok]
    Attached sha book core ⟨file, file⟩ ∧
      ¬Along (Race.step sha book) (NeverLowers sha) (turns ++ [.start .ok])
        (.begin sha ⟨file, file⟩ core book.bookId) := by
  intro sha book core file turns
  refine ⟨⟨rfl, rfl, ?_⟩, fun along => ?_⟩
  · rintro (_ | _) <;> exact decodeAndVerify_encodeRecord sha _ ⟨rfl, rfl⟩
  let intent : AnchorRecord := ⟨book.bookId, ⟨1⟩, ⟨1⟩, .intent ⟨0⟩⟩
  let commit : AnchorRecord := .commit book.bookId ⟨1⟩ ⟨1⟩ (.replicate 32 0)
  let s := run (Race.step sha book) turns (.begin sha ⟨file, file⟩ core book.bookId)
  have lawful : NeverLowers sha s (.start .ok) := ((Along.append _).mp along).2.1
  have asks : s.starting.asked = some (.writeFull .b (encodeRecord sha intent)) := by decide +kernel
  have displaced : (AnchorCopy.b, commit) ∈ s.shared.displaced := by decide +kernel
  have reads := decodeAndVerify_encodeRecord sha intent rfl
  exact (lawful commit intent (.write rfl asks rfl rfl reads (.inr displaced))).1 (by decide)

theorem undisturbed_of_quiet {s : Race} {turn : Turn sha}
    (quiet : s.starting.asked.bind PlatformOp.writes = none) : Undisturbed sha s turn := by
  rintro old new ⟨-, asks, writes, -, -, -⟩
  rw [asks, Option.bind_some, writes] at quiet
  cases quiet

/-- With nothing of the live process in between, what is replaced has been read. -/
theorem second_process_never_lowers_early :
    let sha : Bytes → Digest := fun _ => .replicate 32 0
    let book : BookFile := ⟨⟨.replicate 16 7⟩, 2, fun _ => .replicate 64 5⟩
    let core : TransactionCore := ⟨2, book.bookId, .init book.bookId, false⟩
    let file : Allocator.CopyState := ⟨encodeRecord sha core.current, []⟩
    let turns : List (Turn sha) := [.call .issue, .live .ok, .live .ok, .start .ok, .start .ok,
      .start .ok, .start .ok, .start .ok]
    Along (Race.step sha book) (NeverLowers sha) (turns ++ [.start .ok])
      (.begin sha ⟨file, file⟩ core book.bookId) := by
  intro sha book core file turns
  have attached : Attached sha book core ⟨file, file⟩ := by
    refine ⟨rfl, rfl, ?_⟩
    rintro (_ | _) <;> exact decodeAndVerify_encodeRecord sha _ ⟨rfl, rfl⟩
  let s := run (Race.step sha book) turns (.begin sha ⟨file, file⟩ core book.bookId)
  have last : Undisturbed sha s (.start .ok) := by
    have place : s.starting.asked.bind PlatformOp.writes |>.map Prod.fst |> (· = some .b) := by
      decide +kernel
    have gone : (s.shared.reads sha .b).toOption = none := by decide +kernel
    have known : ∀ entry ∈ s.shared.displaced, entry.2 ∈ s.shared.seen := by decide +kernel
    rintro old new ⟨-, asks, writes, -, -, reads | displaced⟩
    · dsimp only at place
      rw [asks, Option.bind_some, writes] at place
      obtain rfl := Option.some.inj place
      rw [reads] at gone
      cases gone
    · exact known _ displaced
  refine (second_process_never_lowers_iff sha book core _ book.bookId attached _).mpr
    ((Along.append _).mpr ⟨⟨undisturbed_of_quiet ?_, undisturbed_of_quiet ?_,
      undisturbed_of_quiet ?_, undisturbed_of_quiet ?_, undisturbed_of_quiet ?_,
      undisturbed_of_quiet ?_, undisturbed_of_quiet ?_, undisturbed_of_quiet ?_, trivial⟩, last,
      trivial⟩)
  iterate 8 decide +kernel

end Runs

end Jbuu.Recovery
