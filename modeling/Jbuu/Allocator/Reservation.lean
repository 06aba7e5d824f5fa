/-
# Allocator.Reservation — one call on the transaction core

A `Reservation` is what a call that passed its checks is about to do: the pointer it
moves to and the generation it opens, with the arithmetic that holds of them. Its
INTENT and COMMIT records are newer than the core's record and in turn
(`leadsTo_intent`, `intent_leadsTo_commit`) and tell the truth about the book
(`Genuine`). `Begins` reduces a call to a refusal that asks nothing of the device or to
`transact` on a reservation, and `wp_transact` lists the three ways
that ends on a failing disk; a crash leaves the disk sound.
-/
import Jbuu.Allocator.Persistence

namespace Jbuu.Allocator

set_option autoImplicit false

open Jbuu.Library.BigEndian (Bytes)
open Jbuu.Library
open Jbuu.Library.Program (expect wp_bind wp_mono)

/-- A record that tells the truth about the book: the pointer lies inside it, no
generation passed without a segment, and a COMMIT has the hash of the last segment. -/
structure Genuine (sha : Bytes → Digest) (book : BookFile) (r : AnchorRecord) : Prop where
  canonical : r.Canonical
  bookId : r.bookId = book.bookId
  inside : r.next.get.toNat ≤ book.segmentCount.toNat
  generation : r.generation.get.toNat ≤ r.next.get.toNat
  hash : ∀ h, r.payload = .commit h → sha (book.body ⟨r.next.get - 1⟩).val = h

/-- A core opened on this book. -/
structure TransactionCore.On (sha : Bytes → Digest) (book : BookFile) (core : TransactionCore) :
    Prop where
  bookId : core.bookId = book.bookId
  segmentCount : core.segmentCount = book.segmentCount
  genuine : Genuine sha book core.current

/-- A call that passed its checks. -/
structure Reservation (book : BookFile) (core : TransactionCore) (n : UInt64) where
  newNext : UInt64
  generation : UInt64
  nonempty : 0 < n.toNat
  sum : newNext.toNat = core.current.next.get.toNat + n.toNat
  fits : newNext.toNat ≤ book.segmentCount.toNat
  successor : generation.toNat = core.current.generation.get.toNat + 1

namespace Reservation

variable {sha : Bytes → Digest} {book : BookFile} {core : TransactionCore} {n : UInt64}

def intent (res : Reservation book core n) : AnchorRecord :=
  { bookId := core.bookId, next := ⟨res.newNext⟩, generation := ⟨res.generation⟩,
    payload := .intent ⟨res.newNext - 1⟩ }

def commit (sha : Bytes → Digest) (res : Reservation book core n) : AnchorRecord :=
  .commit core.bookId ⟨res.generation⟩ ⟨res.newNext⟩ (sha (book.body ⟨res.newNext - 1⟩).val)

theorem positive (res : Reservation book core n) : 0 < res.newNext.toNat := by
  have := res.nonempty
  have := res.sum
  omega

theorem last_toNat (res : Reservation book core n) :
    (res.newNext - 1).toNat = res.newNext.toNat - 1 := by
  have := res.positive
  rw [UInt64.toNat_sub_of_le _ _ (by rw [UInt64.le_iff_toNat_le]; simp; omega)]
  rfl

/-- The last segment of the range. -/
theorem last_eq (res : Reservation book core n) :
    core.current.next.get + UInt64.ofNat (n.toNat - 1) = res.newNext - 1 := by
  have := res.nonempty
  have sum := res.sum
  have := res.newNext.toNat_lt
  rw [← UInt64.toNat_inj, res.last_toNat, UInt64.toNat_add, UInt64.toNat_ofNat', sum]
  omega

theorem last_next (res : Reservation book core n) :
    SegmentIndex.next ⟨res.newNext - 1⟩ = some ⟨res.newNext⟩ := by
  have sum : checkedAdd (res.newNext - 1) 1 = some res.newNext := by
    have := res.positive
    have := res.newNext.toNat_lt
    rw [checkedAdd_eq_some, res.last_toNat]
    simp only [UInt64.reduceToNat]
    omega
  simp [SegmentIndex.next, sum]

theorem intent_eq (res : Reservation book core n) :
    AnchorRecord.intent core.bookId ⟨res.generation⟩ ⟨res.newNext - 1⟩ = some res.intent := by
  simp [AnchorRecord.intent, res.last_next, intent]

theorem canonical_intent (res : Reservation book core n) : res.intent.Canonical := res.last_next

theorem canonical_commitWith (res : Reservation book core n) (hash : Digest) :
    (AnchorRecord.commit core.bookId ⟨res.generation⟩ ⟨res.newNext⟩ hash).Canonical := by
  intro zero
  have := res.positive
  simp_all [AnchorRecord.commit]

theorem canonical_commit (res : Reservation book core n) : (res.commit sha).Canonical :=
  res.canonical_commitWith _

theorem genuine_intent (res : Reservation book core n) (on : core.On sha book) :
    Genuine sha book res.intent where
  canonical := res.canonical_intent
  bookId := on.bookId
  inside := res.fits
  generation := by
    have := on.genuine.generation
    have := res.nonempty
    have := res.sum
    have := res.successor
    simp only [intent]
    omega
  hash := nofun

theorem genuine_commit (res : Reservation book core n) (on : core.On sha book) :
    Genuine sha book (res.commit sha) where
  canonical := res.canonical_commit
  bookId := on.bookId
  inside := res.fits
  generation := (res.genuine_intent on).generation
  hash := by
    rintro h ⟨⟩
    rfl

theorem leadsTo_intent (res : Reservation book core n) : core.current.LeadsTo res.intent := by
  have := res.sum
  have := res.successor
  refine .inr ⟨.inl ?_, ?_⟩ <;> simp only [intent] <;> omega

/-- The INTENT comes before a COMMIT at its pointer, whatever the hash. -/
theorem intent_leadsTo (res : Reservation book core n) (hash : Digest) :
    res.intent.LeadsTo (.commit core.bookId ⟨res.generation⟩ ⟨res.newNext⟩ hash) :=
  .inr ⟨.inr ⟨rfl, Nat.one_lt_two⟩, le_rfl⟩

theorem intent_leadsTo_commit (res : Reservation book core n) :
    res.intent.LeadsTo (res.commit sha) := res.intent_leadsTo _

/-- The checks leave no choice. -/
theorem eq_of (res res' : Reservation book core n) : res = res' := by
  obtain ⟨newNext, generation, _, sum, _, successor⟩ := res
  obtain ⟨newNext', generation', _, sum', _, successor'⟩ := res'
  obtain rfl : newNext = newNext' := UInt64.toNat_inj.mp (sum.trans sum'.symm)
  obtain rfl : generation = generation' := UInt64.toNat_inj.mp (successor.trans successor'.symm)
  rfl

end Reservation

/-! ## The checks -/

section Checks

variable {sha : Bytes → Digest} {book : BookFile} {core : TransactionCore}

/-- Why a call is refused before anything is asked of the device. -/
inductive Refused (core : TransactionCore) (n : UInt64) : IssueError → Prop
  | halted (halted : core.halted = true) : Refused core n .persistenceUncertain
  | invalidRange (live : core.halted = false)
      (invalid : n = 0 ∨ 2 ^ 64 ≤ core.current.next.get.toNat + n.toNat) :
      Refused core n .invalidRange
  | exhausted (live : core.halted = false)
      (full : core.segmentCount.toNat < core.current.next.get.toNat + n.toNat) :
      Refused core n (.exhausted core.current.next)

/-- The generation counter is at its end. -/
def Spent (core : TransactionCore) : Prop := core.current.generation.get.toNat + 1 = 2 ^ 64

/-- How a call begins on a core that knows the size of the book. -/
inductive Begins (sha : Bytes → Digest) (book : BookFile) (core : TransactionCore) (n : UInt64) :
    Transaction (Except IssueError ReservedRange × TransactionCore) → Prop
  | refused {e : IssueError} (refused : Refused core n e) :
      Begins sha book core n (pure (.error e, core))
  | spent (live : core.halted = false)
      (left : core.current.next.get.toNat < book.segmentCount.toNat) (spent : Spent core) :
      Begins sha book core n (pure (.error .persistenceUncertain, { core with halted := true }))
  | reserves (live : core.halted = false) (res : Reservation book core n) :
      Begins sha book core n (TransactionCore.transact sha core.current.next n res.newNext
        res.generation { core with current := res.intent })

theorem reserveRange_begins (size : core.segmentCount = book.segmentCount) (n : UInt64) :
    Begins sha book core n (TransactionCore.reserveRange sha n core) := by
  obtain ⟨segmentCount, bookId, current, halted⟩ := core
  unfold TransactionCore.reserveRange
  cases halted with
  | true => exact .refused (.halted rfl)
  | false =>
      simp only [Bool.false_eq_true, if_false]
      split
      · rename_i zero
        exact .refused (.invalidRange rfl (.inl zero))
      rename_i positive
      split
      · rename_i overflow
        exact .refused (.invalidRange rfl (.inr (checkedAdd_eq_none.mp overflow)))
      rename_i newNext sum
      obtain ⟨_, sum⟩ := checkedAdd_eq_some.mp sum
      split
      · rename_i full
        rw [UInt64.lt_iff_toNat_lt, sum] at full
        exact .refused (.exhausted rfl full)
      rename_i fits
      dsimp only at size
      rw [UInt64.lt_iff_toNat_lt, size, not_lt] at fits
      have nonempty : 0 < n.toNat := by
        rw [Nat.pos_iff_ne_zero]
        exact fun zero => positive (UInt64.toNat_inj.mp zero)
      split
      · rename_i overflow
        have overflows := checkedAdd_eq_none.mp overflow
        have := current.generation.get.toNat_lt
        simp only [UInt64.reduceToNat] at overflows
        exact .spent rfl (by dsimp only; omega) (by unfold Spent; dsimp only; omega)
      · rename_i generation successor
        obtain ⟨_, successor⟩ := checkedAdd_eq_some.mp successor
        let res : Reservation book ⟨segmentCount, bookId, current, false⟩ n :=
          { newNext, generation, nonempty, sum, fits, successor := by simpa using successor }
        rw [res.intent_eq]
        exact .reserves rfl res

/-- **A call is refused untouched, or it is the transaction of a reservation**, on a core
that tells the truth about the book. -/
theorem Begins.genuine {program : Transaction (Except IssueError ReservedRange × TransactionCore)}
    {n : UInt64} (on : core.On sha book) (begins : Begins sha book core n program) :
    (∃ e, Refused core n e ∧ program = pure (.error e, core)) ∨
      core.halted = false ∧ ∃ res : Reservation book core n,
        program = TransactionCore.transact sha core.current.next n res.newNext res.generation
          { core with current := res.intent } := by
  cases begins with
  | refused refused => exact .inl ⟨_, refused, rfl⟩
  | spent live left spent =>
      -- A generation per segment cannot run out before the segments do.
      have := on.genuine.generation
      have := book.segmentCount.toNat_lt
      unfold Spent at spent
      omega
  | reserves live res => exact .inr ⟨live, res, rfl⟩

end Checks

/-! ## The bodies of a range -/

section Bodies

variable (book : BookFile)

theorem length_flatBodies (base : SegmentIndex) (remaining : Nat) (i : UInt64) :
    (flatBodies book base remaining i).length = segmentLen * remaining := by
  induction remaining generalizing i with
  | zero => rfl
  | succ remaining ih =>
      simp only [flatBodies, List.length_append, BigEndian.Exactly.length_val, ih, segmentLen]
      omega

/-- The `j`-th slice of the range is the body of segment `base + i + j`. -/
theorem slice_flatBodies (base : SegmentIndex) {remaining j : Nat} (i : UInt64)
    (inside : j < remaining) :
    slice (flatBodies book base remaining i) (segmentLen * j) (segmentLen * j + segmentLen) =
      (book.body ⟨base.get + (i + UInt64.ofNat j)⟩).val := by
  induction remaining generalizing i j with
  | zero => omega
  | succ remaining ih =>
      cases j with
      | zero => simp [slice, flatBodies, segmentLen]
      | succ j =>
          have shift : i + 1 + UInt64.ofNat j = i + UInt64.ofNat (j + 1) := by
            rw [UInt64.ofNat_add]
            simp only [UInt64.ofNat_one, UInt64.add_assoc, UInt64.add_comm 1]
          have later := ih (i + 1) (Nat.lt_of_succ_lt_succ inside)
          rw [shift] at later
          rw [← later]
          have skip : segmentLen * (j + 1) = 64 + segmentLen * j := by simp [segmentLen]; omega
          simp only [slice, flatBodies, skip, Nat.add_sub_cancel_left]
          rw [← List.drop_drop, BigEndian.drop_append (by simp)]

/-- The last body of a range is the one its COMMIT hashes. -/
theorem drop_flatBodies (base : SegmentIndex) {remaining : Nat} (some_ : 0 < remaining) :
    (flatBodies book base remaining 0).drop
        ((flatBodies book base remaining 0).length - segmentLen) =
      (book.body ⟨base.get + UInt64.ofNat (remaining - 1)⟩).val := by
  have last := slice_flatBodies book base 0 (Nat.sub_one_lt_of_lt some_)
  have start : segmentLen * remaining - segmentLen = segmentLen * (remaining - 1) := by
    rw [Nat.mul_sub_one]
  rw [UInt64.zero_add] at last
  rw [length_flatBodies, start, ← last, slice, List.take_of_length_le]
  rw [List.length_drop, length_flatBodies]
  simp only [segmentLen]
  omega

end Bodies

/-! ## The transaction -/

section Transactions

variable {sha : Bytes → Digest} {book : BookFile} {p : AnchorCopy → AnchorRecord → Prop}
  {core : TransactionCore} {n : UInt64}

/-- The three ways a transaction ends short of a crash. -/
inductive Transacted (sha : Bytes → Digest) (p : AnchorCopy → AnchorRecord → Prop)
    (res : Reservation book core n) :
    Except IssueError ReservedRange × TransactionCore → Disk → Prop
  | done {d : Disk} (written : Written sha (res.commit sha) d) :
      Transacted sha p res
        (.ok { base := core.current.next, bytes := flatBodies book core.current.next n.toNat 0 },
          { core with current := res.commit sha }) d
  /-- The segments could not be read: the range is wasted. -/
  | unread {d : Disk} (written : Written sha res.intent d) :
      Transacted sha p res (.error .io, { core with current := res.intent }) d
  | uncertain {d : Disk} (sound : Sound sha p d) :
      Transacted sha p res
        (.error .persistenceUncertain, { core with current := res.intent, halted := true }) d

theorem wp_transact (res : Reservation book core n) {d : Disk} (sound : Sound sha p d)
    (intentAllowed : ∀ copy, p copy res.intent) (commitAllowed : ∀ copy, p copy (res.commit sha))
    (newer : ∀ copy older, (d.get copy).Holds sha older → older.LeadsTo core.current) :
    (TransactionCore.transact sha core.current.next n res.newNext res.generation
      { core with current := res.intent }).wp (media sha book) (Transacted sha p res)
      (Sound sha p) d := by
  have intentCanonical := res.canonical_intent
  have commitCanonical : (res.commit sha).Canonical := res.canonical_commit
  unfold TransactionCore.transact
  rw [wp_bind]
  refine wp_mono (wp_persistPair sound intentCanonical intentAllowed fun copy older holds =>
    (newer copy older holds).trans res.leadsTo_intent) ?_ fun _ crashed => crashed
  rintro (e | ⟨⟩) reserved ⟨sound, done⟩
  · exact .uncertain sound
  have written := done rfl
  rw [wp_bind]
  refine wp_boundary sound ?_ fun _ => .unread written
  rw [wp_bind]
  refine wp_mono (wp_readBodies sound) ?_ fun _ crashed => crashed
  rintro r d' ⟨rfl, rfl | rfl⟩
  · exact .unread written
  have hash : sha ((flatBodies book core.current.next n.toNat 0).drop
      ((flatBodies book core.current.next n.toNat 0).length - segmentLen)) =
      sha (book.body ⟨res.newNext - 1⟩).val := by
    rw [drop_flatBodies book _ res.nonempty, res.last_eq]
  rw [wp_bind]
  simp only [List.nil_append, hash]
  refine wp_mono (wp_persistPair sound commitCanonical commitAllowed fun copy older holds => ?_) ?_
    fun _ crashed => crashed
  · rw [((written copy).holds intentCanonical).mp holds]
    exact res.intent_leadsTo_commit
  · rintro (e | ⟨⟩) d' ⟨sound, done⟩
    · exact .uncertain sound
    · exact .done (done rfl)

end Transactions

/-! ## Both calls -/

inductive Call where
  | issue
  | reserveRange (n : UInt64)
  deriving DecidableEq, Repr

/-- A segment handed to the caller. -/
structure Delivery where
  index : Nat
  body : Bytes
  deriving DecidableEq, Repr

/-- The segments of a returned range: `segment_count` slices of `flat_bytes`. -/
def ReservedRange.deliveries (range : ReservedRange) : List Delivery :=
  (List.range (range.bytes.length / segmentLen)).map fun j =>
    { index := range.base.get.toNat + j
      body := slice range.bytes (segmentLen * j) (segmentLen * j + segmentLen) }

namespace Call

/-- How many segments the call asks for. -/
def width : Call → UInt64
  | .issue => 1
  | .reserveRange n => n

/-- The call on a core, its result as the segments it delivers. -/
def on (sha : Bytes → Digest) (core : TransactionCore) :
    Call → Transaction (Except IssueError (List Delivery) × TransactionCore)
  | .issue =>
      (fun r => (r.1.map fun body => [⟨core.current.next.get.toNat, body.val⟩], r.2)) <$>
        core.issue sha
  | .reserveRange n =>
      (fun r => (r.1.map ReservedRange.deliveries, r.2)) <$> core.reserveRange sha n

end Call

/-- The true bodies of `n` segments from `base` on. -/
def BookFile.deliver (book : BookFile) (base n : Nat) : List Delivery :=
  (List.range n).map fun j =>
    { index := base + j, body := (book.body ⟨UInt64.ofNat (base + j)⟩).val }

section Calls

variable {sha : Bytes → Digest} {book : BookFile} {p : AnchorCopy → AnchorRecord → Prop}
  {core : TransactionCore}

theorem deliveries_ofBody (base : SegmentIndex) (body : Segment) :
    (TransactionCore.ofBody base body).deliveries = [⟨base.get.toNat, body.val⟩] := by
  simp [ReservedRange.deliveries, TransactionCore.ofBody, segmentLen, slice,
    List.take_of_length_le]

theorem deliveries_flatBodies (base : SegmentIndex) (n : Nat) :
    ({ base, bytes := flatBodies book base n 0 } : ReservedRange).deliveries =
      book.deliver base.get.toNat n := by
  have count : segmentLen * n / segmentLen = n := Nat.mul_div_cancel_left n (by decide)
  rw [ReservedRange.deliveries, BookFile.deliver, length_flatBodies, count]
  refine List.map_congr_left fun j inside => ?_
  have index : base.get + (0 + UInt64.ofNat j) = UInt64.ofNat (base.get.toNat + j) := by
    rw [UInt64.zero_add, UInt64.ofNat_add, UInt64.ofNat_toNat]
  rw [slice_flatBodies book base 0 (List.mem_range.mp inside), index]

variable (sha) in
/-- `issue` is `reserve_range(1)` unless it is refused. -/
theorem call_begins (size : core.segmentCount = book.segmentCount) (call : Call) :
    ∃ program, Begins sha book core call.width program ∧
      call.on sha core = (fun r => (r.1.map ReservedRange.deliveries, r.2)) <$> program := by
  cases call with
  | reserveRange n => exact ⟨_, reserveRange_begins size n, rfl⟩
  | issue =>
      rcases Bool.eq_false_or_eq_true core.halted with halted | live
      · refine ⟨_, .refused (.halted halted), ?_⟩
        rw [Call.on, TransactionCore.issue, if_pos halted]
        rfl
      · by_cases left : core.current.next.get.toNat < core.segmentCount.toNat
        · refine ⟨_, reserveRange_begins size 1, ?_⟩
          rw [Call.on, TransactionCore.reserveRange_one sha live left, Functor.map_map]
          refine congrArg (· <$> _) (funext fun r => ?_)
          rcases r with ⟨e | body, core'⟩
          · rfl
          · simp [Except.map, deliveries_ofBody]
        · have full : core.segmentCount ≤ core.current.next.get := by
            rw [UInt64.le_iff_toNat_le]
            omega
          have beyond : core.segmentCount.toNat <
              core.current.next.get.toNat + Call.issue.width.toNat := by
            simp only [Call.width, UInt64.reduceToNat]
            omega
          refine ⟨_, .refused (.exhausted live beyond), ?_⟩
          rw [Call.on, TransactionCore.issue, if_neg (by simp [live]), if_pos full]
          rfl

theorem call_cases (on : core.On sha book) (call : Call) :
    (∃ e, Refused core call.width e ∧ call.on sha core = pure (.error e, core)) ∨
      core.halted = false ∧ ∃ res : Reservation book core call.width,
        call.on sha core = (fun r => (r.1.map ReservedRange.deliveries, r.2)) <$>
          TransactionCore.transact sha core.current.next call.width res.newNext res.generation
            { core with current := res.intent } := by
  obtain ⟨program, begins, same⟩ := call_begins sha on.segmentCount call
  rw [same]
  rcases begins.genuine on with ⟨e, refused, rfl⟩ | ⟨live, res, rfl⟩
  · exact .inl ⟨e, refused, rfl⟩
  · exact .inr ⟨live, res, rfl⟩

/-- All that a call can return, and the disk it leaves. -/
inductive Called (sha : Bytes → Digest) (p : AnchorCopy → AnchorRecord → Prop) (book : BookFile)
    (core : TransactionCore) (call : Call) (before : Disk) :
    Except IssueError (List Delivery) × TransactionCore → Disk → Prop
  | refused {e : IssueError} (refused : Refused core call.width e) :
      Called sha p book core call before (.error e, core) before
  | done {d : Disk} (live : core.halted = false) (res : Reservation book core call.width)
      (written : Written sha (res.commit sha) d) :
      Called sha p book core call before
        (.ok (book.deliver core.current.next.get.toNat call.width.toNat),
          { core with current := res.commit sha }) d
  | unread {d : Disk} (live : core.halted = false) (res : Reservation book core call.width)
      (written : Written sha res.intent d) :
      Called sha p book core call before (.error .io, { core with current := res.intent }) d
  | uncertain {d : Disk} (live : core.halted = false) (res : Reservation book core call.width)
      (sound : Sound sha p d) :
      Called sha p book core call before
        (.error .persistenceUncertain, { core with current := res.intent, halted := true }) d

theorem wp_on (on : core.On sha book) (call : Call) {d : Disk} (sound : Sound sha p d)
    (allowed : ∀ res : Reservation book core call.width, core.halted = false →
      ∀ copy, p copy res.intent ∧ p copy (res.commit sha))
    (newer : core.halted = false →
      ∀ copy older, (d.get copy).Holds sha older → older.LeadsTo core.current) :
    (call.on sha core).wp (media sha book) (Called sha p book core call d) (Sound sha p) d := by
  rcases call_cases on call with ⟨e, refused, same⟩ | ⟨live, res, same⟩
  · rw [same]
    exact .refused refused
  · rw [same, Program.wp_map]
    refine wp_mono (wp_transact res sound (fun copy => (allowed res live copy).1)
      (fun copy => (allowed res live copy).2) (newer live)) ?_ fun _ crashed => crashed
    rintro _ d' (written | written | sound)
    · rw [Except.map, deliveries_flatBodies]
      exact .done live res written
    · exact .unread live res written
    · exact .uncertain live res sound

end Calls

end Jbuu.Allocator
