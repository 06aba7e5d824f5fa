/-
# Recovery.Interrupted — the start-up on anchor files that fail, tear and crash

The start-up sequence of `Recovery.StartUp` on the disk of `Allocator.Disk`: any request may
fail, having had any part of its effect, or be the last one of the process or of the machine.
A repair empties the stale copy before it writes it, so an interruption may leave a copy that
no longer verifies.

`wp_startupRecover` and `wp_allocatorOpen` say what the two stages keep, whatever becomes of
their requests. `interrupted_start_ups_agree` is what that means for two copies that were
synced: after any number of start-ups that failed or crashed anywhere, a start-up adopts the
record the first one would have adopted or none, and with nothing failing it is refused only
where the first one would have been, or where a copy was left torn.
-/
import Jbuu.Allocator.Failures
import Jbuu.Library.Runs
import Jbuu.Recovery.StartUp

namespace Jbuu.Recovery.Interrupted

set_option autoImplicit false

open Jbuu.Library.BigEndian (Bytes)
open Jbuu.Library
open Jbuu.Library.Program (call interpret wp_bind wp_except_bind wp_except_pure wp_failWith wp_failIf
  wp_throw wp_mapErr wp_mono wp_interpret_except_bind wp_interpret_failWith wp_interpret_lift
  wp_interpret_meets interpret_call interpret_failIf wp_pure exec_of_wp)
open Jbuu.Allocator (MediaOp MediaReply MediaError IssueError BookFile TransactionCore Disk CopyState
  Effect Loss Torn Sound Within Newest Allows Advances media)

/-! ## The platform -/

/-- The error of a request, in the terms of its layer. -/
structure Fault where
  platform : PlatformError
  book : BookError
  media : MediaError
  deriving DecidableEq, Repr

/-- The adversary's choice for one request. -/
inductive PlatformFate (sha : Bytes → Digest) where
  | ok
  | fail (fault : Fault) (effect : Effect sha)
  | crash (effect : Effect sha) (loss : Loss sha)

instance (sha : Bytes → Digest) : Inhabited (PlatformFate sha) := ⟨.ok⟩

/-- What the request does to the copies, as a request of the media. -/
def onDisk : PlatformOp → Option MediaOp
  | .setLenZero copy => some (.write copy [])
  | .writeFull copy bytes => some (.write copy bytes)
  | .fsync copy => some (.sync copy)
  | .media op => some op
  | _ => none

section Platform

variable {sha : Bytes → Digest} (book : BookFile)

def after (d : Disk) (op : PlatformOp) (effect : Effect sha) : Disk :=
  match onDisk op with
  | some op => d.partly op effect
  | none => d

/-- Both files are there, and the book is the one that was asked for. -/
def reply (d : Disk) : (op : PlatformOp) → PlatformReply op
  | .openExisting _ => .ok ()
  | .readToEnd copy => .ok (d.get copy).cached
  | .setLenZero _ => .ok ()
  | .writeFull _ _ => .ok ()
  | .fsync _ => .ok ()
  | .openBook => .ok ⟨book.bookId, book.segmentCount⟩
  | .openMedia _ => .ok ()
  | .lock => .ok ()
  | .media op => Allocator.reply book d op

def refusal (fault : Fault) : (op : PlatformOp) → PlatformReply op
  | .openExisting _ => .error fault.platform
  | .readToEnd _ => .error fault.platform
  | .setLenZero _ => .error fault.platform
  | .writeFull _ _ => .error fault.platform
  | .fsync _ => .error fault.platform
  | .openBook => .error fault.book
  | .openMedia _ => .error fault.platform
  | .lock => .error fault.platform
  | .media op => Allocator.failure fault.media op

variable (sha) in
def platform : Device PlatformOp PlatformReply (PlatformFate sha) Disk :=
  fun op fate d =>
    match fate with
    | .ok => (some (reply book d op), after d op (.whole : Effect sha))
    | .fail fault effect => (some (refusal fault op), after d op effect)
    | .crash effect loss => (none, (after d op effect).lose loss)

end Platform

/-! ## What the stages keep -/

section Kept

variable {sha : Bytes → Digest} {book : BookFile} {p : AnchorCopy → AnchorRecord → Prop} {d : Disk}

/-- A request that writes nothing new keeps the disk sound whatever becomes of it. -/
theorem wp_request {op : PlatformOp} {post : PlatformReply op → Disk → Prop} (sound : Sound sha p d)
    (allows : ∀ m, onDisk op = some m → Allows sha p m)
    (advances : ∀ m, onDisk op = some m → Advances sha d m)
    (done : post (reply book d op) (after d op (.whole : Effect sha)))
    (failed : ∀ fault (effect : Effect sha), Sound sha p (after d op effect) →
      post (refusal fault op) (after d op effect)) :
    (call op).wp (platform sha book) post (Sound sha p) d := by
  have kept (effect : Effect sha) : Sound sha p (after d op effect) := by
    unfold after
    cases touches : onDisk op with
    | none => exact sound
    | some m => exact sound.partly (allows m touches) (advances m touches) effect
  intro fate
  cases fate with
  | ok => exact done
  | fail fault effect => exact failed fault effect (kept effect)
  | crash effect loss => exact (kept effect).lose loss

/-- A request that touches neither copy. -/
theorem wp_aside {op : PlatformOp} (aside : onDisk op = none) {post : PlatformReply op → Disk → Prop}
    (sound : Sound sha p d) (done : post (reply book d op) d)
    (failed : ∀ fault, post (refusal fault op) d) :
    (call op).wp (platform sha book) post (Sound sha p) d := by
  have same (effect : Effect sha) : after d op effect = d := by rw [after, aside]
  refine wp_request sound (fun m touches => ?_) (fun m touches => ?_) ?_ fun fault effect _ => ?_
  · cases aside.symm.trans touches
  · cases aside.symm.trans touches
  · rw [same]
    exact done
  · rw [same]
    exact failed fault

/-- A write and a sync leave the other copy alone. -/
theorem get_partly_other {op : MediaOp} {effect : Effect sha} {copy other : AnchorCopy}
    (touches : op = .sync copy ∨ ∃ bytes, op = .write copy bytes) (ne : other ≠ copy) :
    (d.partly op effect).get other = d.get other := by
  rcases touches with rfl | ⟨bytes, rfl⟩
  · cases effect with
    | whole => exact Disk.get_set_ne _ _ ne
    | _ => rfl
  · cases effect with
    | nothing => rfl
    | _ => exact Disk.get_set_ne _ _ ne

theorem unreadable_nil (r : AnchorRecord) : decodeAndVerify sha [] ≠ .ok r := nofun

/-! ### The store on a file -/

/-- Every copy but one is as it was. -/
def Elsewhere (copy : AnchorCopy) (d d' : Disk) : Prop := ∀ other, other ≠ copy → d'.get other = d.get other

theorem Elsewhere.trans {copy : AnchorCopy} {d d' d'' : Disk} (first : Elsewhere copy d d')
    (then_ : Elsewhere copy d' d'') : Elsewhere copy d d'' :=
  fun other ne => (then_ other ne).trans (first other ne)

theorem wp_readVerified {copy : AnchorCopy} {post : Except PlatformError AnchorRecord → Disk → Prop}
    (sound : Sound sha p d)
    (done : ∀ r, decodeAndVerify sha (d.get copy).cached = .ok r → post (.ok r) d)
    (failed : ∀ e, post (.error e) d) :
    (fileStore sha (.readVerified copy)).wp (platform sha book) post (Sound sha p) d := by
  rw [fileStore, wp_except_bind]
  refine wp_aside rfl sound ?_ fun fault => failed _
  simp only [reply]
  cases reads : decodeAndVerify sha (d.get copy).cached with
  | ok r => exact done r reads
  | error e => exact failed _

/-- A request that writes or syncs one copy, as far as it may. -/
theorem wp_on_copy {op : PlatformOp} {m : MediaOp} {copy : AnchorCopy} (touches : onDisk op = some m)
    (here : m = .sync copy ∨ ∃ bytes, m = .write copy bytes)
    {post : PlatformReply op → Disk → Prop} (sound : Sound sha p d) (allows : Allows sha p m)
    (advances : Advances sha d m) (ends : ∀ out d', Sound sha p d' → Elsewhere copy d d' → post out d') :
    (call op).wp (platform sha book) post (Sound sha p) d := by
  have kept (effect : Effect sha) : Sound sha p (after d op effect) ∧ Elsewhere copy d (after d op effect) := by
    rw [after, touches]
    exact ⟨sound.partly allows advances effect, fun _ ne => get_partly_other here ne⟩
  intro fate
  cases fate with
  | ok => exact ends _ _ (kept .whole).1 (kept .whole).2
  | fail fault effect => exact ends _ _ (kept effect).1 (kept effect).2
  | crash effect loss => exact (kept effect).1.lose loss

/-- A record over a copy that holds nothing newer: on return the other copy is untouched. -/
theorem wp_writeFullAndSync {copy : AnchorCopy} {record : AnchorRecord}
    {post : Except PlatformError Unit → Disk → Prop} (sound : Sound sha p d)
    (canonical : record.Canonical) (allowed : p copy record)
    (newer : ∀ older, (d.get copy).Holds sha older → older.LeadsTo record)
    (ends : ∀ out d', Sound sha p d' → Elsewhere copy d d' → post out d') :
    (fileStore sha (.writeFullAndSync copy record)).wp (platform sha book) post (Sound sha p) d := by
  -- Throughout, the copy holds only what the record is newer than.
  let below : AnchorCopy → AnchorRecord → Prop := fun c r => p c r ∧ (c = copy → r.LeadsTo record)
  have weaken {d : Disk} (sound : Sound sha below d) : Sound sha p d := sound.mono fun _ _ _ both => both.1
  have start : Sound sha below d := sound.mono fun c r holds allowed => ⟨allowed, by
    rintro rfl
    exact newer r holds⟩
  suffices all : (fileStore sha (.writeFullAndSync copy record)).wp (platform sha book)
      (fun _ d' => Sound sha below d' ∧ Elsewhere copy d d') (Sound sha below) d by
    exact wp_mono all (fun out d' both => ends out d' (weaken both.1) both.2) fun _ crashed => weaken crashed
  rw [fileStore, wp_except_bind]
  apply wp_on_copy rfl (.inr ⟨_, rfl⟩) start
  · rintro _ _ r ⟨⟩ reads
    exact absurd reads (unreadable_nil r)
  · rintro _ _ r ⟨⟩ reads
    exact absurd reads (unreadable_nil r)
  rintro (e | ⟨⟩) emptied sound elsewhere
  · exact ⟨sound, elsewhere⟩
  have only {r : AnchorRecord} (reads : decodeAndVerify sha (encodeRecord sha record) = .ok r) : r = record := by
    rw [decodeAndVerify_encodeRecord sha record canonical] at reads
    exact (Except.ok.inj reads).symm
  dsimp only
  rw [wp_except_bind]
  apply wp_on_copy rfl (.inr ⟨_, rfl⟩) sound
  · rintro _ _ r ⟨⟩ reads
    obtain rfl := only reads
    exact ⟨allowed, fun _ => .refl _⟩
  · rintro _ _ r ⟨⟩ reads older holds
    obtain rfl := only reads
    exact (sound.within copy older holds).2 rfl
  rintro (e | ⟨⟩) written sound elsewhere'
  · exact ⟨sound, elsewhere.trans elsewhere'⟩
  apply wp_on_copy rfl (.inl rfl) sound (Allocator.allows_of_not_write (by rintro _ _ ⟨⟩))
    (Allocator.advances_of_not_write (by rintro _ _ ⟨⟩))
  intro out synced sound elsewhere''
  exact ⟨sound, (elsewhere.trans elsewhere').trans elsewhere''⟩

/-! ### The recovery -/

/-- How a `startup_recover` that did not crash ends. -/
inductive RecoverLeaves (sha : Bytes → Digest) (p : AnchorCopy → AnchorRecord → Prop) (before : Disk) :
    Except RecoveryError RecoveryReport → Disk → Prop
  | refused {e : RecoveryError} {d : Disk} (sound : Sound sha p d) : RecoverLeaves sha p before (.error e) d
  | adopted {report : RecoveryReport} {d : Disk} (sound : Sound sha p d)
      (reads : ∀ copy, decodeAndVerify sha (d.get copy).cached = .ok report.adopted)
      (newest : ∀ copy, ∃ older, decodeAndVerify sha (before.get copy).cached = .ok older ∧
        older.LeadsTo report.adopted) : RecoverLeaves sha p before (.ok report) d

/-- What `p` has to allow: the newer record of one book, in place of the older one in a copy. -/
def Repairs (p : AnchorCopy → AnchorRecord → Prop) : Prop :=
  ∀ copy older newer, older.bookId = newer.bookId → p copy older → p copy.other newer →
    older.LeadsTo newer → p copy newer

theorem interpret_readVerified (copy : AnchorCopy) :
    (readVerified copy).run.interpret (fileStore sha) = fileStore sha (.readVerified copy) := interpret_call

theorem interpret_writeFullAndSync (copy : AnchorCopy) (record : AnchorRecord) :
    (writeFullAndSync copy record).run.interpret (fileStore sha) =
      fileStore sha (.writeFullAndSync copy record) := interpret_call

theorem interpret_syncParentIfCreated (copy : AnchorCopy) :
    (syncParentIfCreated copy).run.interpret (fileStore sha) = pure (.ok ()) := interpret_call

/-- The repair of the recovery, of a copy that was read before the other. -/
theorem wp_repairStale {current : AnchorRecord} {stale : AnchorCopy} (sound : Sound sha p d)
    (canonical : current.Canonical) (allowed : p stale current)
    (newer : ∀ older, (d.get stale).Holds sha older → older.LeadsTo current)
    (reads : decodeAndVerify sha (d.get stale.other).cached = .ok current) :
    ((repairStale current (some stale)).run.interpret (fileStore sha)).wp (platform sha book)
      (fun out d' => Sound sha p d' ∧
        (out = .ok () → ∀ copy, decodeAndVerify sha (d'.get copy).cached = .ok current))
      (Sound sha p) d := by
  rw [repairStale, wp_interpret_except_bind, wp_interpret_failWith, interpret_writeFullAndSync]
  apply wp_writeFullAndSync sound canonical allowed newer
  rintro (e | ⟨⟩) repaired sound elsewhere
  · exact ⟨sound, by rintro ⟨⟩⟩
  dsimp only
  rw [wp_interpret_except_bind, wp_interpret_failWith, interpret_syncParentIfCreated, wp_pure]
  dsimp only
  rw [wp_interpret_except_bind, wp_interpret_failWith, interpret_readVerified]
  refine wp_readVerified sound (fun r readsBack => ?_) fun e => ⟨sound, by rintro ⟨⟩⟩
  dsimp only
  rw [interpret_failIf]
  refine wp_failIf.mpr ⟨fun _ => ⟨sound, by rintro ⟨⟩⟩, fun equal => ⟨sound, fun _ copy => ?_⟩⟩
  by_cases isStale : copy = stale
  · rw [isStale, readsBack, not_ne_iff.mp equal]
  · have other : copy = stale.other := by
      cases copy <;> cases stale <;> first | rfl | exact absurd rfl isStale
    rw [elsewhere copy isStale, other, reads]

/-- What a read came back with is what the copy reads as. -/
def Read (sha : Bytes → Digest) (d : Disk) (copy : AnchorCopy) (x : Except PlatformError AnchorRecord) :
    Prop :=
  ∀ r, x = .ok r → decodeAndVerify sha (d.get copy).cached = .ok r

theorem wp_read {copy : AnchorCopy} {post : Except PlatformError AnchorRecord → Disk → Prop}
    (sound : Sound sha p d) (done : ∀ x, Read sha d copy x → post x d) :
    (fileStore sha (.readVerified copy)).wp (platform sha book) post (Sound sha p) d := by
  refine wp_readVerified sound (fun r reads => done _ ?_) fun e => done _ nofun
  rintro _ ⟨⟩
  exact reads

/-- The recovery from its decision on. -/
theorem wp_proceed {x y : Except PlatformError AnchorRecord} (sound : Sound sha p d) (repairs : Repairs p)
    (readsA : Read sha d .a x) (readsB : Read sha d .b y) :
    ((adopted (decide (orCorrupt x) (orCorrupt y)) >>= fun pair =>
      proceed none (fun _ => true) pair.1 pair.2).run.interpret (fileStore sha)).wp (platform sha book)
        (RecoverLeaves sha p d) (Sound sha p) d := by
  -- The checks of `recover` never fail.
  have passes (r : AnchorRecord) (stale : Option AnchorCopy)
      (leads : ∀ copy, ∃ older, decodeAndVerify sha (d.get copy).cached = .ok older ∧ older.LeadsTo r)
      (repaired : ((repairStale r stale).run.interpret (fileStore sha)).wp (platform sha book)
        (fun out d' => Sound sha p d' ∧
          (out = .ok () → ∀ copy, decodeAndVerify sha (d'.get copy).cached = .ok r)) (Sound sha p) d) :
      ((proceed none (fun _ => true) r stale).run.interpret (fileStore sha)).wp (platform sha book)
        (RecoverLeaves sha p d) (Sound sha p) d := by
    rw [proceed, wp_interpret_except_bind, interpret_failIf, wp_failIf]
    refine ⟨by rintro ⟨⟩, fun _ => ?_⟩
    rw [wp_interpret_except_bind, interpret_failIf, wp_failIf]
    refine ⟨by rintro ⟨-, ⟨⟩⟩, fun _ => ?_⟩
    rw [wp_interpret_except_bind]
    refine wp_mono repaired ?_ fun _ crashed => crashed
    rintro (e | ⟨⟩) d' ⟨sound, reads⟩
    · exact .refused sound
    · exact .adopted sound (reads rfl) leads
  have decides := @settled_decide_iff (orCorrupt x) (orCorrupt y)
  cases decision : decide (orCorrupt x) (orCorrupt y) with
  | consistent r =>
      obtain ⟨a, b, okA, okB, -, settles⟩ := decides.mp (by rw [decision]; rfl)
      cases settles with
      | level same =>
          subst same
          have both : ∀ copy, decodeAndVerify sha (d.get copy).cached = .ok a
            | .a => readsA a (Copies.orCorrupt_eq_ok.mp okA)
            | .b => readsB a (Copies.orCorrupt_eq_ok.mp okB)
          exact passes a none (fun copy => ⟨a, both copy, .refl a⟩) ⟨sound, fun _ => both⟩
  | adoptHigher r stale =>
      obtain ⟨a, b, okA, okB, book_, settles⟩ := decides.mp (by rw [decision]; rfl)
      have hereA := readsA a (Copies.orCorrupt_eq_ok.mp okA)
      have hereB := readsB b (Copies.orCorrupt_eq_ok.mp okB)
      have allowedA := sound.within .a a (CopyState.holds_cached hereA)
      have allowedB := sound.within .b b (CopyState.holds_cached hereB)
      cases settles with
      | behind before le =>
          have leads : a.LeadsTo r := .inr ⟨before, UInt64.le_iff_toNat_le.mp le⟩
          have newest : ∀ copy, ∃ older, decodeAndVerify sha (d.get copy).cached = .ok older ∧ older.LeadsTo r
            | .a => ⟨a, hereA, leads⟩
            | .b => ⟨r, hereB, .refl r⟩
          exact passes r (some .a) newest (wp_repairStale sound (decodeAndVerify_canonical hereB)
            (repairs .a a r book_ allowedA allowedB leads)
            (fun older holds => (sound.newest .a a hereA older holds).trans leads) hereB)
      | ahead before le =>
          have leads : b.LeadsTo r := .inr ⟨before, UInt64.le_iff_toNat_le.mp le⟩
          have newest : ∀ copy, ∃ older, decodeAndVerify sha (d.get copy).cached = .ok older ∧ older.LeadsTo r
            | .a => ⟨r, hereA, .refl r⟩
            | .b => ⟨b, hereB, leads⟩
          exact passes r (some .b) newest (wp_repairStale sound (decodeAndVerify_canonical hereA)
            (repairs .b b r book_.symm allowedB allowedA leads)
            (fun older holds => (sound.newest .b b hereB older holds).trans leads) hereA)
  | _ => exact .refused sound

/-- **What the recovery leaves**, whatever becomes of its requests. -/
theorem wp_startupRecover (sound : Sound sha p d) (repairs : Repairs p) :
    (startupRecover sha).run.wp (platform sha book) (RecoverLeaves sha p d) (Sound sha p) d := by
  unfold startupRecover
  rw [wp_except_bind, wp_failWith]
  refine wp_aside rfl sound ?_ fun fault => .refused sound
  dsimp only [reply]
  rw [wp_except_bind, wp_failWith]
  refine wp_aside rfl sound ?_ fun fault => .refused sound
  show ((recover.run).interpret (fileStore sha)).wp (platform sha book) _ _ d
  unfold recover recoverWithOptions
  rw [wp_interpret_except_bind, wp_interpret_lift, interpret_readVerified]
  refine wp_read sound fun x readsA => ?_
  dsimp only
  rw [wp_interpret_except_bind, wp_interpret_lift, interpret_readVerified]
  exact wp_read sound fun y readsB => wp_proceed sound repairs readsA readsB

/-! ### The allocator -/

/-- **What the allocator's own start-up leaves**, whatever becomes of its requests. -/
theorem wp_allocatorOpen (sound : Sound sha p d)
    (repairs : ∀ copy older newer, p copy older → p copy.other newer → older.LeadsTo newer → p copy newer) :
    (allocatorOpen sha book.bookId).run.wp (platform sha book) (Allocator.Opened sha p book d)
      (Sound sha p) d := by
  unfold allocatorOpen
  rw [wp_except_bind, wp_mapErr]
  refine wp_aside rfl sound ?_ fun fault => .refused sound
  dsimp only [reply]
  rw [wp_except_bind, wp_failIf]
  refine ⟨fun _ => .refused sound, fun _ => ?_⟩
  rw [wp_except_bind, wp_failWith]
  refine wp_aside rfl sound ?_ fun fault => .refused sound
  dsimp only [reply]
  rw [wp_except_bind, wp_failWith]
  refine wp_aside rfl sound ?_ fun fault => .refused sound
  dsimp only [reply]
  rw [wp_except_bind, wp_mapErr]
  refine wp_aside rfl sound ?_ fun fault => .refused sound
  refine wp_interpret_meets ?_ (Allocator.wp_open sound repairs)
  intro op d post meets fate
  cases fate with
  | ok => exact meets .ok
  | fail fault effect => exact meets (.fail fault.media effect)
  | crash effect loss => exact meets (.crash effect loss)

/-- What a start-up that did not crash leaves. -/
structure StartUpLeaves (sha : Bytes → Digest) (p : AnchorCopy → AnchorRecord → Prop) (book : BookFile)
    (before : Disk) (out : Except StartUpError TransactionCore) (d : Disk) : Prop where
  sound : Sound sha p d
  opened : ∀ core, out = .ok core → core.segmentCount = book.segmentCount ∧
    core.bookId = book.bookId ∧ core.halted = false ∧
    (∀ copy, decodeAndVerify sha (d.get copy).cached = .ok core.current) ∧
    ∀ copy, ∃ older, decodeAndVerify sha (before.get copy).cached = .ok older ∧ older.LeadsTo core.current

/-- **What a start-up leaves**, whatever becomes of its requests. Where both copies may hold
one record, `p` allows only records of its book. -/
theorem wp_startUp (sound : Sound sha p d) (repairs : Repairs p)
    (one : ∀ r, (∀ copy, p copy r) → ∀ copy x, p copy x → x.bookId = r.bookId) :
    (startUp sha book.bookId).run.wp (platform sha book) (StartUpLeaves sha p book d) (Sound sha p) d := by
  unfold startUp
  rw [wp_except_bind, wp_mapErr]
  refine wp_mono (wp_startupRecover sound repairs) ?_ fun _ crashed => crashed
  rintro _ repaired (sound | ⟨sound, reads, newest⟩)
  · exact ⟨sound, nofun⟩
  rename_i report
  have books := one report.adopted fun copy => sound.within copy _ (CopyState.holds_cached (reads copy))
  have all : ∀ copy older newer, p copy older → p copy.other newer → older.LeadsTo newer → p copy newer :=
    fun copy older newer old new => repairs copy older newer
      ((books copy older old).trans (books copy.other newer new).symm) old new
  dsimp only
  rw [wp_mapErr]
  refine wp_mono (wp_allocatorOpen sound all) ?_ fun _ crashed => crashed
  rintro _ opened (sound' | ⟨sound', reads', newest'⟩)
  · exact ⟨sound', nofun⟩
  refine ⟨sound', ?_⟩
  rintro _ ⟨⟩
  refine ⟨rfl, rfl, rfl, reads', fun copy => ?_⟩
  obtain ⟨older, here, leads⟩ := newest copy
  obtain ⟨older', here', leads'⟩ := newest' copy
  obtain rfl := Except.ok.inj ((reads copy).symm.trans here')
  exact ⟨older, here, leads.trans leads'⟩

end Kept

/-! ## Start-ups in a row -/

section Attempts

variable (sha : Bytes → Digest) (book : BookFile)

/-- What becomes of the requests of a start-up, and what is lost when its process ends. -/
structure Attempt where
  fates : List (PlatformFate sha)
  loss : Option (Loss sha)

def begin_ (fates : List (PlatformFate sha)) (d : Disk) :
    Outcome (Except StartUpError TransactionCore) × Disk :=
  (startUp sha book.bookId).run.exec (platform sha book) fates d

def attempt (a : Attempt sha) (d : Disk) : Disk :=
  match a.loss with
  | none => (begin_ sha book a.fates d).2
  | some loss => (begin_ sha book a.fates d).2.lose loss

/-- The two copies as they read. -/
def copies (d : Disk) : Copies := ⟨some d.a.cached, some d.b.cached⟩

/-- What a copy may hold after the start-ups: its own record, or that of the other copy,
where its own is an older one of the same book. -/
def Heir (d : Disk) (copy : AnchorCopy) (r : AnchorRecord) : Prop :=
  (copies d).read sha copy = .ok r ∨
    (copies d).read sha copy.other = .ok r ∧
      ∃ older, (copies d).read sha copy = .ok older ∧ older.bookId = r.bookId ∧ older.LeadsTo r

end Attempts

section Heirs

variable {sha : Bytes → Digest} {book : BookFile} {d : Disk} {r : AnchorRecord}

theorem read_copies {copy : AnchorCopy} :
    (copies d).read sha copy = .ok r ↔ decodeAndVerify sha (d.get copy).cached = .ok r := by
  rw [Copies.read_eq_ok]
  cases copy <;> simp [copies, Copies.get, Disk.get]

theorem repairs_heir : Repairs (Heir sha d) := by
  intro copy older newer book_ old new leads
  have twice : copy.other.other = copy := by cases copy <;> rfl
  rcases new with there | ⟨here, -⟩
  · rcases old with here | ⟨there', older', here, books, leads'⟩
    · exact .inr ⟨there, older, here, book_, leads⟩
    · obtain rfl := Except.ok.inj (there.symm.trans there')
      exact .inr ⟨there, older', here, books, leads'⟩
  · rw [twice] at here
    exact .inl here

/-- Both copies are of the book of any record that both may hold. -/
theorem heirs_of_one (both : ∀ copy, Heir sha d copy r) (copy : AnchorCopy) {x : AnchorRecord}
    (heir : Heir sha d copy x) : x.bookId = r.bookId := by
  have own {copy : AnchorCopy} {x : AnchorRecord} (here : (copies d).read sha copy = .ok x) :
      x.bookId = r.bookId := by
    rcases both copy with same | ⟨-, older, here', books, -⟩
    · exact congrArg _ (Except.ok.inj (here.symm.trans same))
    · rw [Except.ok.inj (here.symm.trans here')]
      exact books
  rcases heir with here | ⟨there, -⟩
  · exact own here
  · exact own there

theorem sound_heir (synced : ∀ copy, (d.get copy).unsynced = []) : Sound sha (Heir sha d) d where
  within copy r holds := by
    obtain ⟨bytes, mem, reads⟩ := holds
    rw [CopyState.contents_of_synced (synced copy), List.mem_singleton] at mem
    exact .inl (read_copies.mpr (mem ▸ reads))
  newest copy r reads older holds := by
    obtain ⟨bytes, mem, reads'⟩ := holds
    rw [CopyState.contents_of_synced (synced copy), List.mem_singleton] at mem
    obtain rfl := Except.ok.inj (reads.symm.trans (mem ▸ reads'))
    exact .refl r

theorem settled_of_leadsTo {a b : AnchorRecord} (books : a.bookId = b.bookId) (leads : a.LeadsTo b) :
    ∃ stale stale', (decide (.ok a) (.ok b)).settled = some (b, stale) ∧
      (decide (.ok b) (.ok a)).settled = some (b, stale') := by
  obtain ⟨first, second⟩ := decide_leadsTo books leads
  rw [first, second]
  by_cases same : a = b
  · simp [same, RecoveryDecision.settled]
  · simp [same, RecoveryDecision.settled]

/-- **The heirs settle as the copies they come from.** -/
theorem settled_heirs {a b : AnchorRecord} (heirA : Heir sha d .a a) (heirB : Heir sha d .b b) :
    (decide (.ok a) (.ok b)).settled.map Prod.fst = ((copies d).settled sha).map Prod.fst := by
  have settles {x y : AnchorRecord} (readsA : (copies d).read sha .a = .ok x)
      (readsB : (copies d).read sha .b = .ok y) :
      (copies d).settled sha = (decide (.ok x) (.ok y)).settled := by
    simp only [Copies.settled, readsA, readsB, orCorrupt]
  have level (x : AnchorRecord) : (decide (.ok x) (.ok x)).settled = some (x, none) :=
    settled_decide_iff.mpr ⟨x, x, rfl, rfl, rfl, .level rfl⟩
  rcases heirA with readsA | ⟨readsB, older, readsA, books, leads⟩
  · rcases heirB with readsB | ⟨readsA', older, readsB, books, leads⟩
    · rw [settles readsA readsB]
    · obtain rfl := Except.ok.inj (readsA.symm.trans readsA')
      obtain ⟨_, stale, -, settled⟩ := settled_of_leadsTo books leads
      rw [settles readsA readsB, level, settled]
      rfl
  · rcases heirB with readsB' | ⟨readsA', older', readsB', books', leads'⟩
    · obtain rfl := Except.ok.inj (readsB.symm.trans readsB')
      obtain ⟨stale, _, settled, -⟩ := settled_of_leadsTo books leads
      rw [settles readsA readsB, level, settled]
      rfl
    · obtain rfl := Except.ok.inj (readsA.symm.trans readsA')
      obtain rfl := Except.ok.inj (readsB.symm.trans readsB')
      obtain rfl := leads.antisymm leads'
      rw [settles readsA readsB]

/-! ### With nothing failing -/

variable (sha book) in
/-- A disk that does not fail answers as two files that do not. -/
theorem platform_alike (op : PlatformOp) (d : Disk) (c : Copies) (same : c = copies d) :
    ∃ answer d' c', platform sha book op default d = (answer, d') ∧
      (Copies.platform none book).device op default c = (answer, c') ∧ c' = copies d' := by
  subst same
  cases op with
  | openExisting copy => cases copy <;> exact ⟨_, _, _, rfl, rfl, rfl⟩
  | readToEnd copy => cases copy <;> exact ⟨_, _, _, rfl, rfl, rfl⟩
  | setLenZero copy => cases copy <;> exact ⟨_, _, _, rfl, rfl, rfl⟩
  | writeFull copy bytes => cases copy <;> exact ⟨_, _, _, rfl, rfl, rfl⟩
  | fsync copy => cases copy <;> exact ⟨_, _, _, rfl, rfl, rfl⟩
  | openBook => exact ⟨_, _, _, rfl, rfl, rfl⟩
  | openMedia copy => cases copy <;> exact ⟨_, _, _, rfl, rfl, rfl⟩
  | lock => exact ⟨_, _, _, rfl, rfl, rfl⟩
  | media op =>
      cases op with
      | read copy => cases copy <;> exact ⟨_, _, _, rfl, rfl, rfl⟩
      | write copy bytes => cases copy <;> exact ⟨_, _, _, rfl, rfl, rfl⟩
      | sync copy => cases copy <;> exact ⟨_, _, _, rfl, rfl, rfl⟩
      | boundary point => exact ⟨_, _, _, rfl, rfl, rfl⟩
      | segment index => exact ⟨_, _, _, rfl, rfl, rfl⟩

/-- With nothing failing, a start-up opens exactly the copies that settle on a record that
the allocator takes. -/
theorem begins_iff : (∃ core d', begin_ sha book [] d = (.returned (.ok core), d')) ↔
    ∃ r stale, (copies d).settled sha = some (r, stale) ∧ Acceptable sha book book.bookId r := by
  obtain ⟨out, c', ran, ends⟩ := start_up_ends sha none book book.bookId (copies d)
  have alike := Program.exec_simulates (R := fun d c => c = copies d)
    (platform_alike sha book)
    (startUp sha book.bookId).run (rfl : copies d = copies d)
  rw [ran] at alike
  have same : (begin_ sha book [] d).1 = .returned out := alike.1
  have only : (∃ core d', begin_ sha book [] d = (.returned (.ok core), d')) ↔ ∃ core, out = .ok core := by
    constructor
    · rintro ⟨core, d', ran'⟩
      rw [ran'] at same
      exact ⟨core, (Outcome.returned.inj same).symm⟩
    · rintro ⟨core, rfl⟩
      exact ⟨core, _, Prod.ext same rfl⟩
  rw [only]
  cases ends with
  | unsettled e unsettled =>
      refine iff_of_false (by rintro ⟨_, ⟨⟩⟩) ?_
      rintro ⟨r, stale, settled, -⟩
      cases unsettled.symm.trans settled
  | refused e settled why =>
      refine iff_of_false (by rintro ⟨_, ⟨⟩⟩) ?_
      rintro ⟨r', stale', settled', acceptable⟩
      obtain ⟨rfl, rfl⟩ := Prod.mk.inj (Option.some.inj (settled'.symm.trans settled))
      exact why ⟨rfl, rfl, acceptable⟩
  | opened core settled fine => exact iff_of_true ⟨core, rfl⟩ ⟨_, _, settled, fine.2.2⟩

variable (book) in
/-- A start-up leaves every copy to its heirs, whatever becomes of its requests. -/
theorem begin_sound {d' : Disk} (sound : Sound sha (Heir sha d) d') (fates : List (PlatformFate sha)) :
    match begin_ sha book fates d' with
    | (.returned out, d'') => StartUpLeaves sha (Heir sha d) book d' out d''
    | (.crashed, d'') => Sound sha (Heir sha d) d''
    | (.panicked, _) => False := by
  have holds : (startUp sha book.bookId).run.wp (platform sha book) (StartUpLeaves sha (Heir sha d) book d')
      (Sound sha (Heir sha d)) d' :=
    wp_startUp sound repairs_heir fun _ both copy _ heir => heirs_of_one both copy heir
  have ends := exec_of_wp holds fates
  revert ends
  unfold begin_
  rcases (startUp sha book.bookId).run.exec (platform sha book) fates d' with ⟨out | _ | _, d''⟩
  · exact id
  · exact id
  · exact id

theorem attempt_sound (a : Attempt sha) (d' : Disk) (sound : Sound sha (Heir sha d) d') :
    Sound sha (Heir sha d) (attempt sha book a d') := by
  have left : Sound sha (Heir sha d) (begin_ sha book a.fates d').2 := by
    have ends := begin_sound book sound a.fates
    revert ends
    rcases begin_ sha book a.fates d' with ⟨out | _ | _, d''⟩
    · exact fun leaves => leaves.sound
    · exact id
    · exact False.elim
  unfold attempt
  cases a.loss with
  | none => exact left
  | some loss => exact left.lose loss

end Heirs

/-- **Start-ups that are interrupted agree.** Two copies that were synced, and any number of
start-ups, each with any request failing or torn and the process or the machine gone at any
of them. A start-up after them adopts the record that the copies settled on at first, or
nothing; with nothing failing it does adopt it wherever the first one would have, as long as
both copies can be read. No start-up panics. -/
theorem interrupted_start_ups_agree (sha : Bytes → Digest) (book : BookFile) (d : Disk)
    (synced : ∀ copy, (d.get copy).unsynced = []) (attempts : List (Attempt sha)) :
    let d' := run (attempt sha book) attempts d
    (∀ fates, match begin_ sha book fates d' with
      | (.returned (.ok core), d'') => (∃ stale, (copies d).settled sha = some (core.current, stale)) ∧
          ∀ copy, decodeAndVerify sha (d''.get copy).cached = .ok core.current
      | (.panicked, _) => False
      | _ => True) ∧
    ((∃ core d'', begin_ sha book [] d' = (.returned (.ok core), d'')) ↔
      (∀ copy, ∃ r, decodeAndVerify sha (d'.get copy).cached = .ok r) ∧
        ∃ r stale, (copies d).settled sha = some (r, stale) ∧ Acceptable sha book book.bookId r) := by
  intro d'
  have sound : Sound sha (Heir sha d) d' :=
    run_invariant (attempt sha book) attempt_sound attempts (sound_heir synced)
  have heir {d : Disk} {p : AnchorCopy → AnchorRecord → Prop} (sound : Sound sha p d) {copy : AnchorCopy}
      {r : AnchorRecord} (reads : decodeAndVerify sha (d.get copy).cached = .ok r) : p copy r :=
    sound.within copy r (CopyState.holds_cached reads)
  refine ⟨fun fates => ?_, ?_⟩
  · have ends := begin_sound book sound fates
    revert ends
    rcases begin_ sha book fates d' with ⟨(e | core) | _ | _, d''⟩
    · exact fun _ => trivial
    · intro leaves
      obtain ⟨-, -, -, reads, -⟩ := leaves.opened core rfl
      have same := settled_heirs (heir leaves.sound (reads .a)) (heir leaves.sound (reads .b))
      rw [settled_decide_iff.mpr ⟨_, _, rfl, rfl, rfl, .level rfl⟩] at same
      obtain ⟨pair, settled, first⟩ := Option.map_eq_some_iff.mp same.symm
      dsimp only at first
      exact ⟨⟨pair.2, by rw [settled, ← first]⟩, reads⟩
    · exact fun _ => trivial
    · exact False.elim
  · rw [begins_iff]
    -- What the two copies settle on now is what they settled on at first.
    have same {a b : AnchorRecord} (readsA : (copies d').read sha .a = .ok a)
        (readsB : (copies d').read sha .b = .ok b) :
        ((copies d').settled sha).map Prod.fst = ((copies d).settled sha).map Prod.fst := by
      rw [← settled_heirs (heir sound (read_copies.mp readsA)) (heir sound (read_copies.mp readsB))]
      simp only [Copies.settled, readsA, readsB, orCorrupt]
    constructor
    · rintro ⟨r, stale, settled, acceptable⟩
      obtain ⟨a, b, readsA, readsB, -⟩ := Copies.settled_eq_some.mp settled
      have first := same readsA readsB
      rw [settled] at first
      obtain ⟨pair, settled', fst⟩ := Option.map_eq_some_iff.mp first.symm
      refine ⟨fun copy => ?_, pair.1, pair.2, settled', by rw [fst]; exact acceptable⟩
      cases copy
      · exact ⟨a, read_copies.mp readsA⟩
      · exact ⟨b, read_copies.mp readsB⟩
    · rintro ⟨readable, r, stale, settled, acceptable⟩
      obtain ⟨a, readsA⟩ := readable .a
      obtain ⟨b, readsB⟩ := readable .b
      have first := same (read_copies.mpr readsA) (read_copies.mpr readsB)
      rw [settled] at first
      obtain ⟨pair, settled', fst⟩ := Option.map_eq_some_iff.mp first
      exact ⟨pair.1, pair.2, settled', by rw [fst]; exact acceptable⟩

/-- A start-up that is killed once it has emptied the stale copy: from then on every start-up
is refused, also where nothing fails. -/
theorem killed_repair_is_refused :
    let sha : Bytes → Digest := fun _ => .replicate 32 0
    let book : BookFile := ⟨⟨.replicate 16 7⟩, 2, fun _ => .replicate 64 5⟩
    let newer : AnchorRecord := ⟨book.bookId, ⟨1⟩, ⟨1⟩, .intent .zero⟩
    let d : Disk := ⟨⟨encodeRecord sha newer, []⟩, ⟨encodeRecord sha (.init book.bookId), []⟩⟩
    let killed : Attempt sha := ⟨[.ok, .ok, .ok, .ok, .crash .whole .kill], none⟩
    (∃ core d', begin_ sha book [] d = (.returned (.ok core), d')) ∧
      ¬∃ core d', begin_ sha book [] (run (attempt sha book) [killed] d) = (.returned (.ok core), d') := by
  intro sha book newer d killed
  have synced : ∀ copy, (d.get copy).unsynced = [] := by
    intro copy
    cases copy <;> rfl
  have emptied : ((run (attempt sha book) [killed] d).get .b).cached = [] := by decide
  refine ⟨?_, ?_⟩
  · have settled : (copies d).settled sha = some (newer, some .b) := by decide
    exact begins_iff.mpr ⟨newer, some .b, settled, rfl, by decide, trivial⟩
  · rw [(interrupted_start_ups_agree sha book d synced [killed]).2]
    rintro ⟨readable, -⟩
    obtain ⟨r, reads⟩ := readable .b
    rw [emptied] at reads
    exact absurd reads (unreadable_nil r)

end Jbuu.Recovery.Interrupted
