/-
# Allocator.Processes — allocators of several processes over one pair of files

Any number of processes open an allocator on the same book and the same two anchor files,
call it and exit. A process names the two files in one order or the other, and takes its
lock on the file that it names A; `System.lock` is who has it, for each file. A turn is
one request of one process, done or failed as the adversary says, so that what the
processes do is interleaved request by request; an exit may leave the pending request
done, half done or not done.

`Held` is the invariant while at most one allocator is open: what is left of the holder's
program keeps the files sound and past all that was delivered. Two processes that name
the files in the same order exclude each other by the lock. Two that name them in
different orders do not, and `allocators_exclude_each_other` is about runs in which no
such two are open together.
-/
import Jbuu.Allocator.Runs
import Mathlib.Data.List.Nodup
import Mathlib.Logic.Function.Basic

namespace Jbuu.Allocator

set_option autoImplicit false

open Jbuu.Library.BigEndian (Bytes)
open Jbuu.Library
open Jbuu.Library.Program (wp_map wp_mono)

namespace Processes

/-- The files as a process sees them that names them in the other order. -/
def swap (d : Disk) : Disk := { a := d.b, b := d.a }

def named (swapped : Bool) (d : Disk) : Disk := if swapped then swap d else d

/-- The file that the process names A, on which `open` takes its lock. -/
def first (swapped : Bool) : AnchorCopy := if swapped then .b else .a

/-- A process with an allocator: in `open`, between calls, or in a call. -/
inductive Stage where
  | opening (left : Transaction (Except IssueError TransactionCore))
  | idle (core : TransactionCore)
  | calling (left : Transaction (Except IssueError (List Delivery) × TransactionCore))

structure Process where
  swapped : Bool
  stage : Stage

structure System where
  disk : Disk
  lock : AnchorCopy → Option Nat
  process : Nat → Option Process
  delivered : List Delivery

section Machine

variable (sha : Bytes → Digest) (book : BookFile)

/-- How a request of a process that goes on ends. -/
inductive Answer where
  | ok
  | fail (error : MediaError) (effect : Effect sha)

inductive Turn where
  | open (pid : Nat) (swapped : Bool)
  | call (pid : Nat) (call : Call)
  /-- The next request of the process, or the return of what it runs. -/
  | request (pid : Nat) (answer : Answer sha)
  | exit (pid : Nat) (effect : Effect sha)

variable {sha}

def Answer.fate : Answer sha → Fate sha
  | .ok => .ok
  | .fail error effect => .fail error effect

/-- The request that a process is about to make. -/
def Stage.pending : Stage → Option MediaOp
  | .opening (.request op _) => some op
  | .calling (.request op _) => some op
  | _ => none

/-- The process is gone, and its lock with it. -/
def System.leave (s : System) (pid : Nat) : System :=
  { s with
    lock := fun file => if s.lock file = some pid then none else s.lock file
    process := Function.update s.process pid none }

/-- The process goes on. -/
def System.put (s : System) (pid : Nat) (p : Process) : System :=
  { s with process := Function.update s.process pid (some p) }

variable (sha)

/-- One step of the process. -/
def System.advance (s : System) (pid : Nat) (p : Process) (answer : Answer sha) : System :=
  match p.stage with
  | .opening (.request op next) =>
      match media sha book op answer.fate (named p.swapped s.disk) with
      | (some reply, files) =>
          { s with disk := named p.swapped files }.put pid ⟨p.swapped, .opening (next reply)⟩
      | (none, _) => s
  | .opening (.pure (.ok core)) => s.put pid ⟨p.swapped, .idle core⟩
  | .calling (.request op next) =>
      match media sha book op answer.fate (named p.swapped s.disk) with
      | (some reply, files) =>
          { s with disk := named p.swapped files }.put pid ⟨p.swapped, .calling (next reply)⟩
      | (none, _) => s
  | .calling (.pure (.ok deliveries, core)) =>
      { s with delivered := s.delivered ++ deliveries }.put pid ⟨p.swapped, .idle core⟩
  | .calling (.pure (.error _, core)) => s.put pid ⟨p.swapped, .idle core⟩
  | .idle _ => s
  -- `open` was refused, or the process panicked.
  | _ => s.leave pid

def System.step : Turn sha → System → System
  | .open pid swapped, s =>
      if s.process pid = none ∧ s.lock (first swapped) = none then
        { s with lock := Function.update s.lock (first swapped) (some pid) }.put pid
          ⟨swapped, .opening (TransactionCore.open sha book.segmentCount book.bookId).run⟩
      else s
  | .call pid call, s =>
      match s.process pid with
      | some ⟨swapped, .idle core⟩ => s.put pid ⟨swapped, .calling (call.on sha core)⟩
      | _ => s
  | .request pid answer, s =>
      match s.process pid with
      | some p => s.advance sha book pid p answer
      | none => s
  | .exit pid effect, s =>
      match s.process pid with
      | some p =>
          match p.stage.pending with
          | some op =>
              { s with disk := named p.swapped ((named p.swapped s.disk).partly op effect) }.leave pid
          | none => s.leave pid
      | none => s

/-- Two files with these bytes, and no process. -/
def System.start (a b : Bytes) : System where
  disk := { a := ⟨a, []⟩, b := ⟨b, []⟩ }
  lock := fun _ => none
  process := fun _ => none
  delivered := []

/-- No allocator is opened while one is open that names the files in the other order. -/
def Aligned (s : System) (turn : Turn sha) : Prop :=
  ∀ pid swapped other p, turn = .open pid swapped → s.process other = some p → p.swapped = swapped

end Machine

/-! ## What is left of the holder's program -/

section Holder

variable {sha : Bytes → Digest} {book : BookFile} {delivered : List Delivery} {d : Disk}

/-- The files hold records past all that was delivered, each copy the newest of its own. -/
abbrev PastSound (sha : Bytes → Digest) (delivered : List Delivery) : Disk → Prop :=
  Sound sha fun _ r => Past delivered r

def Distinct (delivered : List Delivery) : Prop := (delivered.map Delivery.index).Nodup

/-- An open core between calls. -/
structure Resting (sha : Bytes → Digest) (book : BookFile) (delivered : List Delivery)
    (core : TransactionCore) (d : Disk) : Prop where
  size : core.segmentCount = book.segmentCount
  past : Past delivered core.current
  newest : core.halted = false → ∀ copy older, (d.get copy).Holds sha older →
    older.LeadsTo core.current
  sound : PastSound sha delivered d

/-- What `open` returns into. -/
inductive Opens (sha : Bytes → Digest) (book : BookFile) (delivered : List Delivery) :
    Except IssueError TransactionCore → Disk → Prop
  | refused {e : IssueError} {d : Disk} (sound : PastSound sha delivered d) :
      Opens sha book delivered (.error e) d
  | opened {core : TransactionCore} {d : Disk} (rest : Resting sha book delivered core d) :
      Opens sha book delivered (.ok core) d

/-- What a call returns into. -/
inductive Returns (sha : Bytes → Digest) (book : BookFile) (delivered : List Delivery) :
    Except IssueError (List Delivery) × TransactionCore → Disk → Prop
  | failed {e : IssueError} {core : TransactionCore} {d : Disk}
      (rest : Resting sha book delivered core d) : Returns sha book delivered (.error e, core) d
  | delivers {deliveries : List Delivery} {core : TransactionCore} {d : Disk}
      (distinct : Distinct (delivered ++ deliveries))
      (rest : Resting sha book (delivered ++ deliveries) core d) :
      Returns sha book delivered (.ok deliveries, core) d

theorem Opens.sound {out : Except IssueError TransactionCore} (opens : Opens sha book delivered out d) :
    PastSound sha delivered d := by
  cases opens with
  | refused sound => exact sound
  | opened rest => exact rest.sound

theorem Returns.sound {out : Except IssueError (List Delivery) × TransactionCore}
    (returns : Returns sha book delivered out d) : PastSound sha delivered d := by
  cases returns with
  | failed rest => exact rest.sound
  | delivers _ rest =>
      exact rest.sound.mono fun _ _ _ past mem in_ => past mem (List.mem_append_left _ in_)

/-- A program that a crash would leave sound, has the files sound. -/
theorem sound_of_wp {α : Type} {left : Transaction α} {post : α → Disk → Prop}
    {p : AnchorCopy → AnchorRecord → Prop} (ends : ∀ out d, post out d → Sound sha p d)
    (holds : left.wp (media sha book) post (Sound sha p) d) : Sound sha p d := by
  cases left with
  | pure out => exact ends out d holds
  | panic => exact holds.elim
  | request op next =>
      have stopped := holds (.crash .nothing .kill)
      cases op <;> exact stopped

/-- What the holder has in hand keeps the files sound. -/
inductive Stands (sha : Bytes → Digest) (book : BookFile) (delivered : List Delivery) (d : Disk) :
    Stage → Prop
  | opening {left : Transaction (Except IssueError TransactionCore)}
      (holds : left.wp (media sha book) (Opens sha book delivered) (PastSound sha delivered) d) :
      Stands sha book delivered d (.opening left)
  | idle {core : TransactionCore} (rest : Resting sha book delivered core d) :
      Stands sha book delivered d (.idle core)
  | calling {left : Transaction (Except IssueError (List Delivery) × TransactionCore)}
      (holds : left.wp (media sha book) (Returns sha book delivered) (PastSound sha delivered) d) :
      Stands sha book delivered d (.calling left)

theorem Stands.sound {stage : Stage} (stands : Stands sha book delivered d stage) :
    PastSound sha delivered d := by
  cases stands with
  | opening holds => exact sound_of_wp (fun _ _ opens => opens.sound) holds
  | idle rest => exact rest.sound
  | calling holds => exact sound_of_wp (fun _ _ returns => returns.sound) holds

/-- Killed in a request, the holder leaves the files sound. -/
theorem Stands.killed {stage : Stage} (stands : Stands sha book delivered d stage) {op : MediaOp}
    (pending : stage.pending = some op) (effect : Effect sha) :
    PastSound sha delivered (d.partly op effect) := by
  cases stands with
  | idle rest => cases pending
  | @opening left holds =>
      cases left with
      | request op next =>
          obtain rfl := Option.some.inj pending
          exact holds (.crash effect .kill)
      | _ => cases pending
  | @calling left holds =>
      cases left with
      | request op next =>
          obtain rfl := Option.some.inj pending
          exact holds (.crash effect .kill)
      | _ => cases pending

theorem stands_opening (sound : PastSound sha delivered d) : Stands sha book delivered d
    (.opening (TransactionCore.open sha book.segmentCount book.bookId).run) := by
  refine .opening (wp_mono (wp_open sound ?_) ?_ fun _ crashed => crashed)
  · exact fun copy older newer _ past _ => past
  · rintro _ d' (sound | ⟨sound, reads, newest⟩)
    · exact .refused sound
    · exact .opened
        { size := rfl
          past := sound.within .a _ (CopyState.holds_cached (reads .a))
          newest := fun _ copy older holds => sound.newest copy _ (reads copy) older holds
          sound }

/-- The range of a reservation is past all that was delivered. -/
theorem Distinct.append {core : TransactionCore} {n : UInt64} (distinct : Distinct delivered)
    (past : Past delivered core.current) :
    Distinct (delivered ++ book.deliver core.current.next.get.toNat n.toNat) := by
  unfold Distinct at distinct ⊢
  rw [List.map_append]
  refine List.Nodup.append distinct ?_ ?_
  · rw [BookFile.deliver, List.map_map]
    refine List.Nodup.map ?_ List.nodup_range
    intro i j same
    simpa using same
  · intro index old new
    obtain ⟨earlier, mem, rfl⟩ := List.mem_map.mp old
    obtain ⟨later, mem', same⟩ := List.mem_map.mp new
    obtain ⟨j, -, rfl⟩ := List.mem_map.mp mem'
    have := past earlier mem
    simp only at same
    omega

/-- Both copies at one record. -/
theorem resting_of_written {core : TransactionCore} {r : AnchorRecord} (size : core.segmentCount =
    book.segmentCount) (current : core.current = r) (canonical : r.Canonical)
    (past : Past delivered r) (written : Written sha r d) : Resting sha book delivered core d where
  size
  past := current ▸ past
  newest _ copy older holds := by
    rw [((written copy).holds canonical).mp holds, current]
    exact .refl r
  sound := written.sound canonical fun _ => past

theorem stands_calling {core : TransactionCore} (distinct : Distinct delivered)
    (rest : Resting sha book delivered core d) (call : Call) :
    Stands sha book delivered d (.calling (call.on sha core)) := by
  obtain ⟨program, begins, same⟩ := call_begins sha rest.size call
  rw [same]
  refine .calling (wp_map.mpr ?_)
  cases begins with
  | refused refused => exact .failed rest
  | spent live left spent => exact .failed ⟨rest.size, rest.past, nofun, rest.sound⟩
  | reserves live res =>
      have past := rest.past.leadsTo res.leadsTo_intent
      have past' : Past delivered (res.commit sha) := past.leadsTo res.intent_leadsTo_commit
      refine wp_mono (wp_transact res rest.sound (fun _ => past) (fun _ => past')
        (rest.newest live)) ?_ fun _ crashed => crashed
      rintro _ d' (written | written | sound)
      · refine .delivers ?_ ?_ <;> rw [deliveries_flatBodies]
        · exact distinct.append rest.past
        · refine resting_of_written rest.size rfl res.canonical_commit ?_ written
          exact past_deliver past' res.sum.ge
      · exact .failed (resting_of_written rest.size rfl res.canonical_intent past written)
      · exact .failed ⟨rest.size, past, nofun, sound⟩

end Holder

/-! ## Whole runs -/

section Runs

variable {sha : Bytes → Digest} {book : BookFile} {s : System}

@[simp] theorem named_named (swapped : Bool) (d : Disk) : named swapped (named swapped d) = d := by
  cases swapped <;> rfl

theorem get_named (swapped : Bool) (d : Disk) (copy : AnchorCopy) :
    (named swapped d).get copy = d.get (if swapped then copy.other else copy) := by
  cases swapped <;> cases copy <;> rfl

/-- Soundness for records that may be in either file does not depend on the names. -/
theorem sound_named {p : AnchorRecord → Prop} {d : Disk} (sound : Sound sha (fun _ r => p r) d)
    (swapped : Bool) : Sound sha (fun _ r => p r) (named swapped d) where
  within copy r holds := by
    rw [get_named] at holds
    exact sound.within _ r holds
  newest copy r reads older holds := by
    rw [get_named] at reads holds
    exact sound.newest _ r reads older holds

/-- At most one allocator is open, and what its process has in hand keeps the files sound. -/
structure Held (sha : Bytes → Digest) (book : BookFile) (s : System) : Prop where
  distinct : Distinct s.delivered
  sound : PastSound sha s.delivered s.disk
  locked : ∀ pid p, s.process pid = some p → s.lock (first p.swapped) = some pid
  aligned : ∀ pid pid' p p', s.process pid = some p → s.process pid' = some p' →
    p.swapped = p'.swapped
  stands : ∀ pid p, s.process pid = some p →
    Stands sha book s.delivered (named p.swapped s.disk) p.stage

/-- The holder of an allocator is alone. -/
theorem Held.alone (held : Held sha book s) {pid pid' : Nat} {p p' : Process}
    (isHolder : s.process pid = some p) (isHolder' : s.process pid' = some p') : pid' = pid := by
  have locked := held.locked pid p isHolder
  have locked' := held.locked pid' p' isHolder'
  rw [held.aligned pid pid' p p' isHolder isHolder', locked'] at locked
  exact Option.some.inj locked

/-- Where nobody else is, only the process that was put is there. -/
theorem only_of_update {process : Nat → Option Process} {pid pid' : Nat} {p p' : Process}
    (alone : ∀ other p', process other = some p' → other = pid)
    (put : Function.update process pid (some p) pid' = some p') : pid' = pid ∧ p' = p := by
  by_cases same : pid' = pid
  · subst same
    rw [Function.update_self] at put
    exact ⟨rfl, (Option.some.inj put).symm⟩
  · rw [Function.update_of_ne same] at put
    exact absurd (alone pid' p' put) same

/-- After a step of the holder. -/
theorem Held.put (held : Held sha book s) {pid : Nat} {p : Process} (isHolder : s.process pid = some p)
    {files : Disk} {delivered : List Delivery} {stage : Stage} (distinct : Distinct delivered)
    (stands : Stands sha book delivered files stage) :
    Held sha book ({ s with disk := named p.swapped files, delivered }.put pid ⟨p.swapped, stage⟩) := by
  have alone (other : Nat) (p' : Process) (isHolder' : s.process other = some p') : other = pid :=
    held.alone isHolder isHolder'
  constructor
  · exact distinct
  · exact sound_named stands.sound p.swapped
  · intro pid' p' put
    obtain ⟨rfl, rfl⟩ := only_of_update alone put
    exact held.locked pid' p isHolder
  · intro pid' pid'' p' p'' put put'
    obtain ⟨rfl, rfl⟩ := only_of_update alone put
    obtain ⟨rfl, rfl⟩ := only_of_update alone put'
    rfl
  · intro pid' p' put
    obtain ⟨rfl, rfl⟩ := only_of_update alone put
    show Stands sha book delivered (named p.swapped (named p.swapped files)) stage
    rw [named_named]
    exact stands

/-- After a step of the holder that does not touch the files. -/
theorem Held.turn (held : Held sha book s) {pid : Nat} {p : Process} (isHolder : s.process pid = some p)
    {delivered : List Delivery} {stage : Stage} (distinct : Distinct delivered)
    (stands : Stands sha book delivered (named p.swapped s.disk) stage) :
    Held sha book ({ s with delivered }.put pid ⟨p.swapped, stage⟩) := by
  have put := held.put isHolder distinct stands
  rwa [named_named] at put

/-- After the holder has gone. -/
theorem Held.leave (held : Held sha book s) {pid : Nat} {p : Process}
    (isHolder : s.process pid = some p) {disk : Disk} (sound : PastSound sha s.delivered disk) :
    Held sha book ({ s with disk }.leave pid) := by
  have nobody (pid' : Nat) : Function.update s.process pid none pid' = none := by
    by_cases same : pid' = pid
    · rw [same, Function.update_self]
    · rw [Function.update_of_ne same]
      cases other : s.process pid' with
      | none => rfl
      | some p' => exact absurd (held.alone isHolder other) same
  constructor
  · exact held.distinct
  · exact sound
  · intro pid' p' is_
    cases (nobody pid').symm.trans is_
  · intro pid' _ p' _ is_
    cases (nobody pid').symm.trans is_
  · intro pid' p' is_
    cases (nobody pid').symm.trans is_

theorem Held.advance (held : Held sha book s) {pid : Nat} {p : Process}
    (isHolder : s.process pid = some p) (answer : Answer sha) :
    Held sha book (s.advance sha book pid p answer) := by
  have stands := held.stands pid p isHolder
  have leaves := held.leave isHolder held.sound
  obtain ⟨swapped, stage⟩ := p
  cases stands with
  | idle rest => exact held
  | @opening left holds =>
      cases left with
      | panic => exact leaves
      | pure out =>
          cases holds with
          | refused => exact leaves
          | opened rest => exact held.turn isHolder held.distinct (.idle rest)
      | request op next =>
          have later := holds answer.fate
          simp only [System.advance]
          generalize media sha book op answer.fate (named swapped s.disk) = replied at later ⊢
          rcases replied with ⟨_ | reply, files⟩
          · exact held
          · exact held.put isHolder held.distinct (.opening later)
  | @calling left holds =>
      cases left with
      | panic => exact leaves
      | pure out =>
          cases holds with
          | failed rest => exact held.turn isHolder held.distinct (.idle rest)
          | delivers distinct rest => exact held.turn isHolder distinct (.idle rest)
      | request op next =>
          have later := holds answer.fate
          simp only [System.advance]
          generalize media sha book op answer.fate (named swapped s.disk) = replied at later ⊢
          rcases replied with ⟨_ | reply, files⟩
          · exact held
          · exact held.put isHolder held.distinct (.calling later)

/-- An allocator that is let in finds nobody there. -/
theorem Held.admit (held : Held sha book s) {pid : Nat} {swapped : Bool} (absent : s.process pid = none)
    (free : s.lock (first swapped) = none)
    (aligned : ∀ other p, s.process other = some p → p.swapped = swapped) :
    Held sha book ({ s with lock := Function.update s.lock (first swapped) (some pid) }.put pid
      ⟨swapped, .opening (TransactionCore.open sha book.segmentCount book.bookId).run⟩) := by
  have nobody (other : Nat) (p : Process) : s.process other ≠ some p := by
    intro isHolder
    have locked := held.locked other p isHolder
    rw [aligned other p isHolder, free] at locked
    cases locked
  have alone (other : Nat) (p : Process) (isHolder : s.process other = some p) : other = pid :=
    absurd isHolder (nobody other p)
  constructor
  · exact held.distinct
  · exact held.sound
  · intro pid' p' put
    obtain ⟨rfl, rfl⟩ := only_of_update alone put
    exact Function.update_self ..
  · intro pid' pid'' p' p'' put put'
    obtain ⟨rfl, rfl⟩ := only_of_update alone put
    obtain ⟨rfl, rfl⟩ := only_of_update alone put'
    rfl
  · intro pid' p' put
    obtain ⟨rfl, rfl⟩ := only_of_update alone put
    exact stands_opening (sound_named held.sound swapped)

theorem Held.step (held : Held sha book s) {turn : Turn sha} (aligned : Aligned sha s turn) :
    Held sha book (s.step sha book turn) := by
  cases turn with
  | «open» pid swapped =>
      simp only [System.step]
      split
      · rename_i free
        exact held.admit free.1 free.2 fun other p isHolder => aligned pid swapped other p rfl isHolder
      · exact held
  | call pid call =>
      simp only [System.step]
      split
      · rename_i swapped core isHolder
        have stands := held.stands pid _ isHolder
        cases stands with
        | idle rest => exact held.turn isHolder held.distinct (stands_calling held.distinct rest call)
      · exact held
  | request pid answer =>
      simp only [System.step]
      cases isHolder : s.process pid with
      | none => exact held
      | some p => exact held.advance isHolder answer
  | exit pid effect =>
      simp only [System.step]
      cases isHolder : s.process pid with
      | none => exact held
      | some p =>
          dsimp only
          cases pending : p.stage.pending with
          | none => exact held.leave isHolder held.sound
          | some op =>
              have killed := (held.stands pid p isHolder).killed pending effect
              exact held.leave isHolder (sound_named killed p.swapped)

theorem held_start (a b : Bytes) : Held sha book (.start a b) where
  distinct := .nil
  sound := by
    refine ⟨fun _ _ _ => nofun, fun copy r reads older holds => ?_⟩
    have atRest : ((System.start a b).disk.get copy).unsynced = [] := by cases copy <;> rfl
    obtain ⟨bytes, mem, decodes⟩ := holds
    rw [CopyState.contents_of_synced atRest, List.mem_singleton] at mem
    rw [mem, reads] at decodes
    exact Except.ok.inj decodes ▸ .refl r
  locked := nofun
  aligned := nofun
  stands := nofun

end Runs

end Processes

end Jbuu.Allocator
