/-
# Recovery.StartUp — the start-up sequence of the command line

What `serve` and `connect` do before they touch the network: `startup_recover` on the two
anchor files, then `Allocator::open` on the same files and the book. The requests are the
ones the two stages make of the platform; `fileStore` is `FileAnchorStore`, the anchor
store on a file.

`fileStore_refines` says that on files that do not fail the recovery over these stores is
the recovery over the abstract ones, so that `wp_recover` and `wp_open` speak about the
sequence as well. The first stage verifies no COMMIT and knows neither the book nor its
id, and repairs before the second stage makes these checks:
`refused_start_up_untouched_iff` says when that leaves the files of a refused start-up as
they were.
-/
import Jbuu.Recovery.Agreement
import Jbuu.Book.Header

namespace Jbuu.Recovery

set_option autoImplicit false

open Jbuu.Library.BigEndian (Bytes)
open Jbuu.Library
open Jbuu.Library.Program (call attempt failWith failIf mapErr interpret wp_bind wp_except_bind
  wp_except_pure wp_failWith wp_failIf wp_throw wp_mapErr wp_mono wp_interpret wp_of_logged)
open Jbuu.Allocator (MediaOp MediaReply MediaError IssueError BookFile TransactionCore)

/-- What the sequence uses of the header of the book. -/
structure BookHeader where
  bookId : BookId
  segmentCount : UInt64
  deriving DecidableEq, Repr

/-- What the start-up asks of the platform. `writeFull` writes from offset 0. -/
inductive PlatformOp where
  | openExisting (copy : AnchorCopy)
  | readToEnd (copy : AnchorCopy)
  | setLenZero (copy : AnchorCopy)
  | writeFull (copy : AnchorCopy) (bytes : Bytes)
  | fsync (copy : AnchorCopy)
  | openBook
  | openMedia (copy : AnchorCopy)
  /-- `acquire_ofd_lock` on the first anchor file. -/
  | lock
  /-- A request of the transaction core on its open files. -/
  | media (op : MediaOp)
  deriving DecidableEq, Repr

abbrev PlatformReply : PlatformOp → Type
  | .openExisting _ => Except PlatformError Unit
  | .readToEnd _ => Except PlatformError Bytes
  | .setLenZero _ => Except PlatformError Unit
  | .writeFull _ _ => Except PlatformError Unit
  | .fsync _ => Except PlatformError Unit
  | .openBook => Except BookError BookHeader
  | .openMedia _ => Except PlatformError Unit
  | .lock => Except PlatformError Unit
  | .media op => MediaReply op

abbrev Platform := Program PlatformOp PlatformReply

section Requests

def openExisting (copy : AnchorCopy) : ExceptT PlatformError Platform Unit :=
  attempt (call (PlatformOp.openExisting copy))

def readToEnd (copy : AnchorCopy) : ExceptT PlatformError Platform Bytes :=
  attempt (call (PlatformOp.readToEnd copy))

def setLenZero (copy : AnchorCopy) : ExceptT PlatformError Platform Unit :=
  attempt (call (PlatformOp.setLenZero copy))

def writeFull (copy : AnchorCopy) (bytes : Bytes) : ExceptT PlatformError Platform Unit :=
  attempt (call (PlatformOp.writeFull copy bytes))

def fsync (copy : AnchorCopy) : ExceptT PlatformError Platform Unit :=
  attempt (call (PlatformOp.fsync copy))

def openBook : ExceptT BookError Platform BookHeader :=
  attempt (call PlatformOp.openBook)

def openMedia (copy : AnchorCopy) : ExceptT PlatformError Platform Unit :=
  attempt (call (PlatformOp.openMedia copy))

def lock : ExceptT PlatformError Platform Unit :=
  attempt (call PlatformOp.lock)

end Requests

section Sequence

variable (sha : Bytes → Digest)

/-- `FileAnchorStore` on a file that was there when it was opened. -/
def fileStore : (op : StoreOp) → Platform (StoreReply op)
  | .readVerified copy =>
      (do let bytes ← readToEnd copy
          match decodeAndVerify sha bytes with
          | .ok record => pure record
          | .error _ => throw .invalidData : ExceptT PlatformError Platform AnchorRecord).run
  | .writeFullAndSync copy record =>
      (do setLenZero copy
          writeFull copy (encodeRecord sha record)
          fsync copy : ExceptT PlatformError Platform Unit).run
  -- `created` is false: the parent needs no sync.
  | .syncParentIfCreated _ => pure (.ok ())

def startupRecover : ExceptT RecoveryError Platform RecoveryReport := do
  failWith .store (openExisting .a)
  failWith .store (openExisting .b)
  ExceptT.mk (interpret (fileStore sha) recover.run)

def mapBookOpen : BookError → IssueError
  | .invalidHeader _ => .bookMismatch
  | _ => .io

def mapPlatform : PlatformError → IssueError
  | .lockHeld => .lockUnavailable
  | .lockUnsupported => .lockUnavailable
  | _ => .persistenceUncertain

def allocatorOpen (expectedBookId : BookId) : ExceptT IssueError Platform TransactionCore := do
  let header ← mapErr mapBookOpen openBook
  failIf (header.bookId ≠ expectedBookId) .bookMismatch
  -- The media are open before the lock is taken, and read after it.
  failWith .anchorCorrupt (openMedia .a)
  failWith .anchorCorrupt (openMedia .b)
  mapErr mapPlatform lock
  ExceptT.mk (interpret (fun op => call (PlatformOp.media op))
    (TransactionCore.open sha header.segmentCount expectedBookId).run)

inductive StartUpError where
  | recovery (e : RecoveryError)
  | allocator (e : IssueError)
  deriving DecidableEq, Repr

def startUp (expectedBookId : BookId) : ExceptT StartUpError Platform TransactionCore := do
  let _ ← mapErr .recovery (startupRecover sha)
  mapErr .allocator (allocatorOpen sha expectedBookId)

end Sequence

/-! ## On files that do not fail -/

/-- The platform with nothing failing and nobody else there. `unreadable` is what
`Book::open` says of a book that it refuses. -/
def Copies.platform (unreadable : Option BookError) (book : BookFile) :
    Service PlatformOp PlatformReply Copies
  | .openExisting copy, c => (if (c.get copy).isSome then .ok () else .error .invalidData, c)
  | .readToEnd copy, c =>
      (match c.get copy with
        | some bytes => .ok bytes
        | none => .error .io, c)
  | .setLenZero copy, c => (.ok (), c.write copy [])
  | .writeFull copy bytes, c => (.ok (), c.write copy bytes)
  | .fsync _, c => (.ok (), c)
  | .openBook, c =>
      (match unreadable with
        | some e => .error e
        | none => .ok ⟨book.bookId, book.segmentCount⟩, c)
  | .openMedia copy, c => (if (c.get copy).isSome then .ok () else .error .io, c)
  | .lock, c => (.ok (), c)
  | .media op, c => c.media book op

section OnFiles

variable {sha : Bytes → Digest} {unreadable : Option BookError} {book : BookFile} {c : Copies}

/-- Both files are there. -/
def Copies.Present (c : Copies) : Prop := ∀ copy, (c.get copy).isSome = true

theorem Copies.Present.write (present : c.Present) (copy : AnchorCopy) (bytes : Bytes) :
    (c.write copy bytes).Present := by
  intro copy'
  have a := present .a
  have b := present .b
  cases copy <;> cases copy' <;> first | rfl | assumption

/-- Copies that can be read are there. -/
theorem Copies.present_of_settled {settled : AnchorRecord × Option AnchorCopy}
    (some_ : c.settled sha = some settled) : c.Present := by
  obtain ⟨a, b, readsA, readsB, -⟩ := settled_eq_some.mp some_
  obtain ⟨bytesA, contentA, -⟩ := read_eq_ok.mp readsA
  obtain ⟨bytesB, contentB, -⟩ := read_eq_ok.mp readsB
  intro copy
  cases copy
  · simp [contentA]
  · simp [contentB]

section Requests

variable {copy : AnchorCopy} {crash : Copies → Prop}
  {post : Except PlatformError Unit → Copies → Prop}

theorem wp_openExisting (there : (c.get copy).isSome = true → post (.ok ()) c)
    (missing : ¬(c.get copy).isSome = true → post (.error .invalidData) c) :
    (openExisting copy).run.wp (Copies.platform unreadable book).device post crash c := by
  intro _
  simp only [Service.device, Copies.platform]
  by_cases present : (c.get copy).isSome = true
  · rw [if_pos present]
    exact there present
  · rw [if_neg present]
    exact missing present

theorem wp_readToEnd {post : Except PlatformError Bytes → Copies → Prop} {bytes : Bytes}
    (content : c.get copy = some bytes) (done : post (.ok bytes) c) :
    (readToEnd copy).run.wp (Copies.platform unreadable book).device post crash c := by
  intro _
  simp only [Service.device, Copies.platform, content]
  exact done

theorem wp_openBook {post : Except BookError BookHeader → Copies → Prop}
    (fails : ∀ e, unreadable = some e → post (.error e) c)
    (opens : unreadable = none → post (.ok ⟨book.bookId, book.segmentCount⟩) c) :
    openBook.run.wp (Copies.platform unreadable book).device post crash c := by
  intro _
  cases unreadable with
  | none => exact opens rfl
  | some e => exact fails e rfl

theorem wp_openMedia (present : c.Present) (done : post (.ok ()) c) :
    (openMedia copy).run.wp (Copies.platform unreadable book).device post crash c := by
  intro _
  simp only [Service.device, Copies.platform, if_pos (present copy)]
  exact done

end Requests

/-- **`FileAnchorStore` is an anchor store.** -/
theorem fileStore_refines (op : StoreOp) (c : Copies) (present : c.Present) :
    (fileStore sha op).wp (Copies.platform unreadable book).device (fun reply c' => c'.Present ∧
      ∃ fate, (Copies.stores sha).device op fate c = (some reply, c')) (fun _ => False) c := by
  cases op with
  | readVerified copy =>
      obtain ⟨bytes, content⟩ := Option.isSome_iff_exists.mp (present copy)
      rw [fileStore, wp_except_bind]
      apply wp_readToEnd content
      simp only [Service.device, Copies.stores]
      cases decodes : decodeAndVerify sha bytes with
      | ok r =>
          have reads : c.read sha copy = .ok r := by simp [Copies.read, content, decodes]
          exact ⟨present, (), by rw [reads]⟩
      | error e =>
          have reads : c.read sha copy = .error .invalidData := by
            simp [Copies.read, content, decodes]
          exact ⟨present, (), by rw [reads]⟩
  | writeFullAndSync copy record =>
      intro _ _ _
      refine ⟨(present.write copy []).write copy _, (), ?_⟩
      show _ = (_, (c.write copy []).write copy (encodeRecord sha record))
      rw [Copies.write_write]
      rfl
  | syncParentIfCreated copy => exact ⟨present, (), rfl⟩

/-- How `startup_recover` ends: it verifies nothing, so whatever is settled is adopted. -/
inductive Restarted (sha : Bytes → Digest) (c : Copies) :
    Except RecoveryError RecoveryReport → Copies → Prop
  | refused (e : RecoveryError) (unsettled : c.settled sha = none) : Restarted sha c (.error e) c
  | adopted {r : AnchorRecord} {stale : Option AnchorCopy} (settled : c.settled sha = some (r, stale))
      (report : RecoveryReport) : Restarted sha c (.ok report) (c.repaired sha r stale)

theorem Restarted.of_recovered {out : Except RecoveryError RecoveryReport} {c' : Copies}
    {log : List (AnchorCopy × Bytes)} (ends : Recovered sha none (fun _ => true) c out c' log) :
    Restarted sha c out c' := by
  cases ends with
  | refused e why =>
      refine .refused e (Option.eq_none_iff_forall_ne_some.mpr fun settled some_ => ?_)
      exact why settled.1 settled.2 some_ ⟨rfl, fun _ => rfl⟩
  | adopted settled passes => exact .adopted settled _

theorem wp_startupRecover (c : Copies) :
    (startupRecover sha).run.wp (Copies.platform unreadable book).device (Restarted sha c)
      (fun _ => False) c := by
  have missing {copy : AnchorCopy} (gone : ¬(c.get copy).isSome = true) (e : RecoveryError) :
      Restarted sha c (.error e) c := by
    refine .refused e (Option.eq_none_iff_forall_ne_some.mpr fun settled some_ => ?_)
    exact gone (Copies.present_of_settled some_ copy)
  have upper : recover.run.wp (Copies.stores sha).device (Restarted sha c) (fun _ => False) c := by
    refine wp_of_logged (wp_mono (wp_recover c) ?_ fun _ crashed => crashed)
    exact fun _ _ ends => .of_recovered ends
  unfold startupRecover
  rw [wp_except_bind, wp_failWith]
  apply wp_openExisting ?_ fun gone => missing gone _
  intro presentA
  dsimp only
  rw [wp_except_bind, wp_failWith]
  apply wp_openExisting ?_ fun gone => missing gone _
  intro presentB
  have present : c.Present
    | .a => presentA
    | .b => presentB
  exact wp_mono (wp_interpret fileStore_refines present upper)
    (fun _ _ both => both.2) fun _ crashed => crashed

/-- How `Allocator::open` ends on files that were just recovered. -/
inductive AllocatorOpened (unreadable : Option BookError) (book : BookFile) (expected : BookId)
    (sha : Bytes → Digest) (r : AnchorRecord) : Except IssueError TransactionCore → Prop
  | refused (e : IssueError) (why : ¬(unreadable = none ∧ book.bookId = expected ∧
      Acceptable sha book expected r)) : AllocatorOpened unreadable book expected sha r (.error e)
  | opened (core : TransactionCore) (fine : unreadable = none ∧ book.bookId = expected ∧
      Acceptable sha book expected r) : AllocatorOpened unreadable book expected sha r (.ok core)

theorem wp_allocatorOpen {expected : BookId} {r : AnchorRecord}
    (settled : c.settled sha = some (r, none)) :
    (allocatorOpen sha expected).run.wp (Copies.platform unreadable book).device
      (fun out c' => c' = c ∧ AllocatorOpened unreadable book expected sha r out)
      (fun _ => False) c := by
  have present := Copies.present_of_settled settled
  unfold allocatorOpen
  rw [wp_except_bind, wp_mapErr]
  apply wp_openBook
  · intro e fails
    exact ⟨rfl, .refused _ fun fine => by simp [fails] at fine⟩
  intro opens
  dsimp only
  rw [wp_except_bind, wp_failIf]
  refine ⟨fun foreign => ⟨rfl, .refused _ fun fine => foreign fine.2.1⟩, fun own => ?_⟩
  rw [wp_except_bind, wp_failWith]
  apply wp_openMedia present
  dsimp only
  rw [wp_except_bind, wp_failWith]
  apply wp_openMedia present
  dsimp only
  rw [wp_except_bind, wp_mapErr]
  intro _
  show (interpret _ _).wp _ _ _ c
  have upper : (TransactionCore.open sha book.segmentCount expected).run.wp
      (Copies.media book).device (fun out c' => c' = c ∧
        AllocatorOpened unreadable book expected sha r out) (fun _ => False) c := by
    refine wp_of_logged (wp_mono (wp_open c) ?_ fun _ crashed => crashed)
    rintro _ ⟨c', log⟩ (⟨e, why⟩ | ⟨settled', acceptable⟩)
    · exact ⟨rfl, .refused e fun fine => why r none settled fine.2.2⟩
    · obtain ⟨rfl, rfl⟩ := Prod.mk.inj (Option.some.inj (settled'.symm.trans settled))
      exact ⟨rfl, .opened _ ⟨opens, not_not.mp own, acceptable⟩⟩
  have refines : ∀ op (s : Copies), True → (call (PlatformOp.media op)).wp
      (Copies.platform unreadable book).device (fun reply s' => True ∧ ∃ fate,
        (Copies.media book).device op fate s = (some reply, s')) (fun _ => False) s :=
    fun op s _ _ => ⟨trivial, (), rfl⟩
  exact wp_mono (wp_interpret refines trivial upper) (fun _ _ both => both.2) fun _ crashed => crashed

/-- How a start-up of two files ends, and what it leaves. -/
inductive Begun (sha : Bytes → Digest) (unreadable : Option BookError) (book : BookFile)
    (expected : BookId) (c : Copies) : Except StartUpError TransactionCore → Copies → Prop
  | unsettled (e : StartUpError) (unsettled : c.settled sha = none) :
      Begun sha unreadable book expected c (.error e) c
  | refused {r : AnchorRecord} {stale : Option AnchorCopy} (e : StartUpError)
      (settled : c.settled sha = some (r, stale)) (why : ¬(unreadable = none ∧
        book.bookId = expected ∧ Acceptable sha book expected r)) :
      Begun sha unreadable book expected c (.error e) (c.repaired sha r stale)
  | opened {r : AnchorRecord} {stale : Option AnchorCopy} (core : TransactionCore)
      (settled : c.settled sha = some (r, stale)) (fine : unreadable = none ∧
        book.bookId = expected ∧ Acceptable sha book expected r) :
      Begun sha unreadable book expected c (.ok core) (c.repaired sha r stale)

theorem start_up_ends (sha : Bytes → Digest) (unreadable : Option BookError) (book : BookFile)
    (expected : BookId) (c : Copies) :
    ∃ out c', (startUp sha expected).run.exec (Copies.platform unreadable book).device [] c =
      (.returned out, c') ∧ Begun sha unreadable book expected c out c' := by
  apply Program.returns_of_service
  unfold startUp
  rw [wp_except_bind, wp_mapErr]
  refine wp_mono (wp_startupRecover c) ?_ fun _ crashed => crashed
  rintro _ _ (⟨e, unsettled⟩ | ⟨settled, report⟩)
  · exact .unsettled _ unsettled
  · dsimp only
    rw [wp_mapErr]
    refine wp_mono (wp_allocatorOpen (Copies.settled_repaired settled)) ?_ fun _ crashed => crashed
    rintro _ _ ⟨rfl, ⟨e, why⟩ | ⟨core, fine⟩⟩
    · exact .refused _ settled why
    · exact .opened core settled fine

end OnFiles

/-- **When a refused start-up leaves the anchors untouched.** Whatever the two files hold,
the start-up comes to an end; that a refusal leaves both as they were is so exactly when no
pair that the recovery repairs is one that the allocator then refuses. -/
theorem refused_start_up_untouched_iff (sha : Bytes → Digest) (unreadable : Option BookError)
    (book : BookFile) (expected : BookId) (c : Copies) :
    (∃ out c', (startUp sha expected).run.exec (Copies.platform unreadable book).device [] c =
        (.returned out, c') ∧ ((∃ e, out = .error e) → c' = c)) ↔
      ∀ r stale, c.settled sha = some (r, some stale) →
        unreadable = none ∧ book.bookId = expected ∧ Acceptable sha book expected r := by
  obtain ⟨out, c', run, ends⟩ := start_up_ends sha unreadable book expected c
  have only : (∃ out c', (startUp sha expected).run.exec (Copies.platform unreadable book).device []
      c = (.returned out, c') ∧ ((∃ e, out = .error e) → c' = c)) ↔
        ((∃ e, out = .error e) → c' = c) := by
    simp [run]
  rw [only]
  cases ends with
  | unsettled e unsettled =>
      refine iff_of_true (fun _ => rfl) fun r stale settled => ?_
      cases unsettled.symm.trans settled
  | opened core settled fine =>
      refine iff_of_true (fun ⟨_, same⟩ => nomatch same) fun r stale settled' => ?_
      obtain ⟨rfl, rfl⟩ := Prod.mk.inj (Option.some.inj (settled'.symm.trans settled))
      exact fine
  | @refused r stale e settled why =>
      cases stale with
      | none =>
          refine iff_of_true (fun _ => rfl) fun r' stale settled' => ?_
          cases settled'.symm.trans settled
      | some stale =>
          refine iff_of_false (fun untouched => ?_) fun fine => why (fine r stale settled)
          have fresh := (Copies.read_repaired settled).2 stale
          rw [untouched ⟨e, rfl⟩] at fresh
          exact (Copies.settled_stale settled stale).mp fresh rfl

/-- A COMMIT whose hash is not the book's is written over the older copy before the
allocator refuses it. -/
theorem mismatched_commit_is_copied :
    let sha : Bytes → Digest := fun bytes => .replicate 32 (bytes.headD 0)
    let book : BookFile := ⟨⟨.replicate 16 7⟩, 2, fun _ => .replicate 64 5⟩
    let newer : AnchorRecord := ⟨book.bookId, ⟨1⟩, ⟨1⟩, .commit (.replicate 32 0)⟩
    let c : Copies := ⟨some (encodeRecord sha newer), some (encodeRecord sha (.init book.bookId))⟩
    ∃ e c', (startUp sha book.bookId).run.exec (Copies.platform none book).device [] c =
      (.returned (.error e), c') ∧ c' ≠ c := by
  intro sha book newer c
  have readsA : c.read sha .a = .ok newer :=
    Copies.read_eq_ok.mpr ⟨_, rfl, decodeAndVerify_encodeRecord sha newer (show (1 : UInt64) ≠ 0 by decide)⟩
  have readsB : c.read sha .b = .ok (.init book.bookId) :=
    Copies.read_eq_ok.mpr ⟨_, rfl, decodeAndVerify_encodeRecord sha _ ⟨rfl, rfl⟩⟩
  have settled : c.settled sha = some (newer, some .b) :=
    Copies.settled_eq_some.mpr ⟨newer, _, readsA, readsB, rfl, .ahead (by decide) (by decide)⟩
  obtain ⟨out, c', run, ends⟩ := start_up_ends sha none book book.bookId c
  cases ends with
  | unsettled e unsettled => cases unsettled.symm.trans settled
  | opened core settled' fine =>
      obtain ⟨rfl, rfl⟩ := Prod.mk.inj (Option.some.inj (settled'.symm.trans settled))
      have same := congrArg (fun hash : Digest => hash.val.head?) fine.2.2.committed
      exact absurd same (by decide)
  | refused e settled' why =>
      obtain ⟨rfl, rfl⟩ := Prod.mk.inj (Option.some.inj (settled'.symm.trans settled))
      refine ⟨e, _, run, fun same => ?_⟩
      have copied := (Copies.read_repaired settled).2 .b
      rw [same, readsB] at copied
      have pointers := congrArg (fun r : AnchorRecord => r.next.get) (Except.ok.inj copied)
      exact absurd pointers (by decide)

end Jbuu.Recovery
