/-
# Allocator.Transaction — the transaction core of the segment allocator

`TransactionCore` of `otp-book/src/allocator.rs`, as programs over its two traits:
`AnchorMedia` (read, write, sync of either copy, and the named boundaries) and
`SegmentReader`. The order is the code's: INTENT A write/sync, INTENT B write/sync,
segment read, COMMIT A write/sync, COMMIT B write/sync.

A call returns its result together with the core it leaves, since the code moves
`current` and `halted` on its error paths too. `usize` is 64 bits wide, so
`usize::try_from(n)` does not fail. `reserveRange_one` is the one relation
between the two entry points: while there is a segment left, `issue` is
`reserve_range(1)`.
-/
import Jbuu.Anchor.Record
import Jbuu.Library.Program

namespace Jbuu.Allocator

set_option autoImplicit false

open Jbuu.Library.BigEndian (Bytes)
open Jbuu.Library
open Jbuu.Library.Program (call expect attempt failWith failIf)

inductive MediaError where
  | io
  | persistence
  | noSpace
  | shortWrite
  deriving DecidableEq, Repr

inductive Boundary where
  | intentAWriteStart
  | intentAWriteComplete
  | intentAFsyncStart
  | intentAFsyncReturn
  | intentBWriteStart
  | intentBWriteComplete
  | intentBFsyncStart
  | intentBFsyncReturn
  | segmentPread
  | finalAWriteStart
  | finalAWriteComplete
  | finalAFsyncStart
  | finalAFsyncReturn
  | finalBWriteStart
  | finalBWriteComplete
  | finalBFsyncStart
  | finalBFsyncReturn
  deriving DecidableEq, Repr

inductive IssueError where
  | exhausted (next : SegmentIndex)
  | lockUnavailable
  | persistenceUncertain
  | anchorCorrupt
  | bookMismatch
  | io
  /-- Local misuse (`n = 0` or overflow); nothing is persisted. -/
  | invalidRange
  deriving DecidableEq, Repr

/-- What the core asks of its media and of its segment reader. -/
inductive MediaOp where
  | read (copy : AnchorCopy)
  | write (copy : AnchorCopy) (bytes : Bytes)
  | sync (copy : AnchorCopy)
  | boundary (point : Boundary)
  | segment (index : SegmentIndex)
  deriving DecidableEq, Repr

abbrev MediaReply : MediaOp → Type
  | .read _ => Except MediaError Bytes
  | .write _ _ => Except MediaError Unit
  | .sync _ => Except MediaError Unit
  | .boundary _ => Except MediaError Unit
  | .segment _ => Except MediaError Segment

abbrev Transaction := Program MediaOp MediaReply

/-- The core without its media and reader, which are the device it runs on. -/
structure TransactionCore where
  segmentCount : UInt64
  bookId : BookId
  current : AnchorRecord
  halted : Bool
  deriving DecidableEq, Repr

/-- A committed range: `bytes` are the bodies from `base` on, concatenated. -/
structure ReservedRange where
  base : SegmentIndex
  bytes : Bytes
  deriving DecidableEq, Repr

section Requests

def ask (op : MediaOp) : Transaction (MediaReply op) := call op

def read (copy : AnchorCopy) : ExceptT MediaError Transaction Bytes :=
  attempt (ask (.read copy))

def write (copy : AnchorCopy) (bytes : Bytes) : ExceptT MediaError Transaction Unit :=
  attempt (ask (.write copy bytes))

def sync (copy : AnchorCopy) : ExceptT MediaError Transaction Unit :=
  attempt (ask (.sync copy))

def boundary (point : Boundary) : ExceptT MediaError Transaction Unit :=
  attempt (ask (.boundary point))

def segment (index : SegmentIndex) : ExceptT MediaError Transaction Segment :=
  attempt (ask (.segment index))

end Requests

/-- The four boundaries around one copy. -/
structure Points where
  writeStart : Boundary
  writeComplete : Boundary
  fsyncStart : Boundary
  fsyncReturn : Boundary

def points (intent : Bool) : AnchorCopy → Points
  | .a =>
      if intent then
        ⟨.intentAWriteStart, .intentAWriteComplete, .intentAFsyncStart, .intentAFsyncReturn⟩
      else ⟨.finalAWriteStart, .finalAWriteComplete, .finalAFsyncStart, .finalAFsyncReturn⟩
  | .b =>
      if intent then
        ⟨.intentBWriteStart, .intentBWriteComplete, .intentBFsyncStart, .intentBFsyncReturn⟩
      else ⟨.finalBWriteStart, .finalBWriteComplete, .finalBFsyncStart, .finalBFsyncReturn⟩

section Core

variable (sha : Bytes → Digest)

/-- One turn of the loop of `persist_pair`. -/
def persistCopy (record : AnchorRecord) (at_ : Points) (copy : AnchorCopy) :
    ExceptT MediaError Transaction Unit := do
  boundary at_.writeStart
  write copy (encodeRecord sha record)
  boundary at_.writeComplete
  boundary at_.fsyncStart
  sync copy
  boundary at_.fsyncReturn

def persistPair (record : AnchorRecord) (intent : Bool) : ExceptT MediaError Transaction Unit := do
  persistCopy sha record (points intent .a) .a
  persistCopy sha record (points intent .b) .b

def readRecord (copy : AnchorCopy) : ExceptT IssueError Transaction AnchorRecord := do
  let bytes ← failWith .anchorCorrupt (read copy)
  match decodeAndVerify sha bytes with
  | .ok record => pure record
  | .error _ => throw .anchorCorrupt

def persistOne (copy : AnchorCopy) (record : AnchorRecord) :
    ExceptT MediaError Transaction Unit := do
  write copy (encodeRecord sha record)
  sync copy

/-- What `open` makes of the decision: the record adopted and the copy to repair. -/
def adopted : RecoveryDecision →
    ExceptT IssueError Transaction (AnchorRecord × Option AnchorCopy)
  | .consistent record => pure (record, none)
  | .adoptHigher record stale => pure (record, some stale)
  | _ => throw .anchorCorrupt

/-- A COMMIT carries the hash of the last segment it commits. -/
def verifyCommit (current : AnchorRecord) : ExceptT IssueError Transaction Unit :=
  match current.payload with
  | .commit previousSegmentHash =>
      if current.next.get = 0 then throw .anchorCorrupt
      else do
        let body ← failWith .anchorCorrupt (segment ⟨current.next.get - 1⟩)
        failIf (sha body.val ≠ previousSegmentHash) .anchorCorrupt
  | _ => pure ()

def repair (current : AnchorRecord) : Option AnchorCopy → ExceptT IssueError Transaction Unit
  | none => pure ()
  | some copy => do
      failWith .persistenceUncertain (persistOne sha copy current)
      let repaired ← readRecord sha copy
      failIf (repaired ≠ current) .persistenceUncertain

def TransactionCore.open (segmentCount : UInt64) (bookId : BookId) :
    ExceptT IssueError Transaction TransactionCore := do
  let a ← readRecord sha .a
  let b ← readRecord sha .b
  failIf (a.bookId ≠ bookId ∨ b.bookId ≠ bookId) .bookMismatch
  let (current, stale) ← adopted (decide (.ok a) (.ok b))
  failIf (segmentCount < current.next.get) .anchorCorrupt
  verifyCommit sha current
  repair sha current stale
  pure { segmentCount, bookId, current, halted := false }

namespace TransactionCore

def issue (core : TransactionCore) : Transaction (Except IssueError Segment × TransactionCore) :=
  if core.halted then pure (.error .persistenceUncertain, core)
  else if core.segmentCount ≤ core.current.next.get then
    pure (.error (.exhausted core.current.next), core)
  else
    match checkedAdd core.current.generation.get 1 with
    | none => pure (.error .persistenceUncertain, { core with halted := true })
    | some generation => do
        let index := core.current.next
        let intent ← expect (AnchorRecord.intent core.bookId ⟨generation⟩ index)
        -- Memory moves before the first uncertain operation, and never back.
        let core := { core with current := intent }
        match ← (persistPair sha intent true).run with
        | .error _ => pure (.error .persistenceUncertain, { core with halted := true })
        | .ok () =>
            match ← (boundary .segmentPread).run with
            | .error _ => pure (.error .io, core)
            | .ok () =>
                match ← (segment index).run with
                | .error _ => pure (.error .io, core)
                | .ok body => do
                    let next ← expect index.next
                    let commit := AnchorRecord.commit core.bookId ⟨generation⟩ next (sha body.val)
                    match ← (persistPair sha commit false).run with
                    | .error _ => pure (.error .persistenceUncertain, { core with halted := true })
                    | .ok () => pure (.ok body, { core with current := commit })

/-- The loop `for i in 0..n` of `reserve_range`, with `remaining` turns to go. -/
def readBodies (base : SegmentIndex) : (remaining : Nat) → (i : UInt64) → (bytes : Bytes) →
    ExceptT IssueError Transaction Bytes
  | 0, _, bytes => pure bytes
  | remaining + 1, i, bytes => do
      let body ← failWith .io (segment ⟨base.get + i⟩)
      readBodies base remaining (i + 1) (bytes ++ body.val)

/-- `reserve_range` from the INTENT on: `core.current` is the INTENT record. -/
def transact (base : SegmentIndex) (n newNext generation : UInt64) (core : TransactionCore) :
    Transaction (Except IssueError ReservedRange × TransactionCore) := do
  match ← (persistPair sha core.current true).run with
  | .error _ => pure (.error .persistenceUncertain, { core with halted := true })
  | .ok () =>
      match ← (boundary .segmentPread).run with
      | .error _ => pure (.error .io, core)
      | .ok () =>
          match ← (readBodies base n.toNat 0 []).run with
          | .error e => pure (.error e, core)
          | .ok bytes => do
              let hash := sha (bytes.drop (bytes.length - segmentLen))
              let commit := AnchorRecord.commit core.bookId ⟨generation⟩ ⟨newNext⟩ hash
              match ← (persistPair sha commit false).run with
              | .error _ => pure (.error .persistenceUncertain, { core with halted := true })
              | .ok () => pure (.ok { base, bytes }, { core with current := commit })

def reserveRange (n : UInt64) (core : TransactionCore) :
    Transaction (Except IssueError ReservedRange × TransactionCore) :=
  if core.halted then pure (.error .persistenceUncertain, core)
  else if n = 0 then pure (.error .invalidRange, core)
  else
    let base := core.current.next
    match checkedAdd base.get n with
    | none => pure (.error .invalidRange, core)
    | some newNext =>
      if core.segmentCount < newNext then pure (.error (.exhausted base), core)
      else
        match checkedAdd core.current.generation.get 1 with
        | none => pure (.error .persistenceUncertain, { core with halted := true })
        | some generation => do
            let last : SegmentIndex := ⟨newNext - 1⟩
            let intent ← expect (AnchorRecord.intent core.bookId ⟨generation⟩ last)
            -- The whole range counts as spent from here on, whatever fails.
            transact sha base n newNext generation { core with current := intent }

/-! ## `issue` is `reserve_range(1)` -/

/-- The range of one segment. -/
def ofBody (base : SegmentIndex) (body : Segment) : ReservedRange := { base, bytes := body.val }

theorem readBodies_one (base : SegmentIndex) :
    (readBodies base 1 0 []).run =
      (segment base).run >>= fun r => match r with
        | .ok body => pure (.ok body.val)
        | .error _ => pure (.error .io) := by
  have start : base.get + 0 = base.get := by simp
  simp only [readBodies, start, failWith, ExceptT.run_bind, ExceptT.run_mk, bind_assoc]
  refine congrArg _ (funext fun r => ?_)
  rcases r with e | body
  · rfl
  · rfl

/-- **While a segment is left, `issue` does what `reserve_range(1)` does**: the same
requests in the same order, the same core afterwards, and the body of that one-segment
range. -/
theorem reserveRange_one {core : TransactionCore} (live : core.halted = false)
    (left : core.current.next.get.toNat < core.segmentCount.toNat) :
    reserveRange sha 1 core =
      (fun r => (r.1.map (ofBody core.current.next), r.2)) <$> issue sha core := by
  have fits := core.segmentCount.toNat_lt
  obtain ⟨newNext, sum⟩ : ∃ newNext, checkedAdd core.current.next.get 1 = some newNext := by
    unfold checkedAdd
    rw [if_pos (by simp; omega)]
    exact ⟨_, rfl⟩
  have value := (checkedAdd_eq_some.mp sum).2
  have back : newNext - 1 = core.current.next.get := by
    rw [← UInt64.toNat_inj, UInt64.toNat_sub_of_le _ _ (by rw [UInt64.le_iff_toNat_le, value]; simp)]
    simp [value]
  have notFull : ¬core.segmentCount ≤ core.current.next.get := by
    rw [UInt64.le_iff_toNat_le]; omega
  have notOver : ¬core.segmentCount < newNext := by
    rw [UInt64.lt_iff_toNat_lt, value]; simp; omega
  have some_ : (1 : UInt64) ≠ 0 := by decide
  simp only [reserveRange, transact, issue, live, sum, notFull, notOver, back, some_, if_false,
    Bool.false_eq_true, UInt64.reduceToNat]
  cases checkedAdd core.current.generation.get 1 with
  | none => rfl
  | some generation =>
      have whole (body : Segment) : body.val.drop (body.val.length - segmentLen) = body.val := by
        simp [segmentLen]
      simp only [SegmentIndex.next, sum, readBodies_one, map_bind, bind_assoc]
      refine congrArg _ (funext fun intent => congrArg _ (funext fun written => ?_))
      rcases written with e | ⟨⟩
      · rfl
      simp only [map_bind]
      refine congrArg _ (funext fun reached => ?_)
      rcases reached with e | ⟨⟩
      · rfl
      simp only [map_bind]
      refine congrArg _ (funext fun answer => ?_)
      rcases answer with e | body
      · rfl
      simp only [map_bind, pure_bind, whole]
      refine congrArg _ (funext fun written => ?_)
      rcases written with e | ⟨⟩ <;> rfl

end TransactionCore

end Core

end Jbuu.Allocator
