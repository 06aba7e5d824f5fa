/-
# Recovery.Recover — the start-up recovery over two anchor stores

`otp-recovery`: read both copies, decide, verify a COMMIT against the book, write the
adopted record over the stale copy, read it back. The stores are the requests of
`AnchorStore`; the recovery never sees the bytes. `watermark` and `verifyCommit` are the
arguments of `recover_with_options`, and `recover` passes none and a verifier that
accepts everything.

`Copies` are two anchor files that do not fail, one of them possibly missing.
`recover_serves` says what the recovery makes of them, and `open_serves` in
`Recovery.Agreement` says the same of the allocator's own start-up.
-/
import Jbuu.Anchor.Record
import Jbuu.Library.Layers
import Jbuu.Platform.Write

namespace Jbuu.Recovery

set_option autoImplicit false

open Jbuu.Library.BigEndian (Bytes)
open Jbuu.Library
open Jbuu.Library.Program (call attempt failWith failIf traced wp_bind wp_except_bind wp_except_pure
  wp_except_lift wp_failWith wp_failIf wp_throw wp_mono)

inductive RecoveryWarning where
  | staleCopyRepaired (copy : AnchorCopy)
  | corruptCopyQuarantined (copy : AnchorCopy)
  | dualRollbackUndetectable
  deriving DecidableEq, Repr

structure RecoveryReport where
  adopted : AnchorRecord
  repaired : Option AnchorCopy
  quarantined : List AnchorCopy
  warnings : List RecoveryWarning
  deriving DecidableEq, Repr

inductive RecoveryError where
  | bothUnreadable
  | cannotProveSafe (reason : String)
  | store
  | quarantined (copy : Option AnchorCopy) (reason : String)
  | rollbackBlocked
  deriving DecidableEq, Repr

/-- The requests of `AnchorStore`, on either copy. -/
inductive StoreOp where
  | readVerified (copy : AnchorCopy)
  | writeFullAndSync (copy : AnchorCopy) (record : AnchorRecord)
  | syncParentIfCreated (copy : AnchorCopy)
  deriving DecidableEq, Repr

abbrev StoreReply : StoreOp → Type
  | .readVerified _ => Except PlatformError AnchorRecord
  | .writeFullAndSync _ _ => Except PlatformError Unit
  | .syncParentIfCreated _ => Except PlatformError Unit

abbrev Restart := Program StoreOp StoreReply

/-- The record adopted and the stale copy, or why the copies are quarantined. -/
def adopted : RecoveryDecision → ExceptT RecoveryError Restart (AnchorRecord × Option AnchorCopy)
  | .consistent record => pure (record, none)
  | .adoptHigher record stale => pure (record, some stale)
  | .quarantineCorrupt copy reason => throw (.quarantined (some copy) reason)
  | .bothUnreadable => throw (.quarantined none "both-anchors-unreadable")
  | .cannotProveSafe reason => throw (.quarantined none reason)

/-- Every error of a read counts as an invalid copy. -/
def orCorrupt : Except PlatformError AnchorRecord → Except ReadFailure AnchorRecord
  | .ok record => .ok record
  | .error _ => .error .corrupt

def AnchorPayload.isCommit : AnchorPayload → Bool
  | .commit _ => true
  | _ => false

section Requests

def readVerified (copy : AnchorCopy) : ExceptT PlatformError Restart AnchorRecord :=
  attempt (call (StoreOp.readVerified copy))

def writeFullAndSync (copy : AnchorCopy) (record : AnchorRecord) :
    ExceptT PlatformError Restart Unit :=
  attempt (call (StoreOp.writeFullAndSync copy record))

def syncParentIfCreated (copy : AnchorCopy) : ExceptT PlatformError Restart Unit :=
  attempt (call (StoreOp.syncParentIfCreated copy))

end Requests

def repairStale (adopted : AnchorRecord) : Option AnchorCopy → ExceptT RecoveryError Restart Unit
  | none => pure ()
  | some copy => do
      failWith .store (writeFullAndSync copy adopted)
      failWith .store (syncParentIfCreated copy)
      let repaired ← failWith .store (readVerified copy)
      failIf (repaired ≠ adopted) .store

/-- `recover_with_options` once the copies are settled. -/
def proceed (watermark : Option Generation) (verifyCommit : AnchorRecord → Bool)
    (adopted : AnchorRecord) (stale : Option AnchorCopy) :
    ExceptT RecoveryError Restart RecoveryReport := do
  failIf (watermark.any fun floor => adopted.generation.get < floor.get) .rollbackBlocked
  failIf (AnchorPayload.isCommit adopted.payload = true ∧ verifyCommit adopted = false)
    (.quarantined none "book-anchor-mismatch")
  repairStale adopted stale
  pure
    { adopted, repaired := stale, quarantined := []
      warnings := .dualRollbackUndetectable :: (stale.map .staleCopyRepaired).toList }

def recoverWithOptions (watermark : Option Generation) (verifyCommit : AnchorRecord → Bool) :
    ExceptT RecoveryError Restart RecoveryReport := do
  let ra ← (readVerified .a).run
  let rb ← (readVerified .b).run
  let (record, stale) ← adopted (decide (orCorrupt ra) (orCorrupt rb))
  proceed watermark verifyCommit record stale

def recover : ExceptT RecoveryError Restart RecoveryReport :=
  recoverWithOptions none fun _ => true

/-! ## Two files that do not fail -/

/-- The contents of the two anchor files, `none` for a missing one. -/
structure Copies where
  a : Option Bytes
  b : Option Bytes
  deriving DecidableEq, Repr

namespace Copies

def get (c : Copies) : AnchorCopy → Option Bytes
  | .a => c.a
  | .b => c.b

def write (c : Copies) (copy : AnchorCopy) (bytes : Bytes) : Copies :=
  match copy with
  | .a => { c with a := some bytes }
  | .b => { c with b := some bytes }

@[simp] theorem get_write_same (c : Copies) (copy : AnchorCopy) (bytes : Bytes) :
    (c.write copy bytes).get copy = some bytes := by
  cases copy <;> rfl

@[simp] theorem get_write_other (c : Copies) (copy : AnchorCopy) (bytes : Bytes) :
    (c.write copy bytes).get copy.other = c.get copy.other := by
  cases copy <;> rfl

@[simp] theorem write_write (c : Copies) (copy : AnchorCopy) (bytes bytes' : Bytes) :
    (c.write copy bytes).write copy bytes' = c.write copy bytes' := by
  cases copy <;> rfl

variable (sha : Bytes → Digest)

/-- `read_verified` of a copy. -/
def read (c : Copies) (copy : AnchorCopy) : Except PlatformError AnchorRecord :=
  match c.get copy with
  | none => .error .io
  | some bytes =>
      match decodeAndVerify sha bytes with
      | .ok record => .ok record
      | .error _ => .error .invalidData

/-- The stores on these files. -/
def stores : Service StoreOp StoreReply Copies
  | .readVerified copy, c => (c.read sha copy, c)
  | .writeFullAndSync copy record, c => (.ok (), c.write copy (encodeRecord sha record))
  | .syncParentIfCreated _, c => (.ok (), c)

variable {sha} {c : Copies} {copy : AnchorCopy} {r : AnchorRecord}

theorem read_eq_ok : c.read sha copy = .ok r ↔
    ∃ bytes, c.get copy = some bytes ∧ decodeAndVerify sha bytes = .ok r := by
  unfold read
  split
  · rename_i missing
    simp [missing]
  · rename_i bytes found
    simp only [found, Option.some.injEq, exists_eq_left']
    cases decodeAndVerify sha bytes <;> simp

theorem read_canonical (reads : c.read sha copy = .ok r) : r.Canonical := by
  obtain ⟨bytes, _, decodes⟩ := read_eq_ok.mp reads
  exact decodeAndVerify_canonical decodes

theorem read_write_same (canonical : r.Canonical) :
    (c.write copy (encodeRecord sha r)).read sha copy = .ok r :=
  read_eq_ok.mpr ⟨_, get_write_same .., decodeAndVerify_encodeRecord sha r canonical⟩

variable (sha) in
/-- What `decide` makes of the two copies. -/
def settled (c : Copies) : Option (AnchorRecord × Option AnchorCopy) :=
  (decide (orCorrupt (c.read sha .a)) (orCorrupt (c.read sha .b))).settled

theorem orCorrupt_eq_ok {x : Except PlatformError AnchorRecord} : orCorrupt x = .ok r ↔ x = .ok r := by
  cases x <;> simp [orCorrupt]

theorem settled_eq_some {stale : Option AnchorCopy} : c.settled sha = some (r, stale) ↔
    ∃ a b, c.read sha .a = .ok a ∧ c.read sha .b = .ok b ∧ a.bookId = b.bookId ∧
      Settles a b r stale := by
  simp only [settled, settled_decide_iff, orCorrupt_eq_ok]

variable (sha) in
/-- The repair: the adopted record over the stale copy. -/
def repaired (c : Copies) (r : AnchorRecord) : Option AnchorCopy → Copies
  | none => c
  | some copy => c.write copy (encodeRecord sha r)

theorem read_repaired_same (canonical : r.Canonical) :
    (c.repaired sha r (some copy)).read sha copy = .ok r := read_write_same canonical

/-- A repair leaves the record in both copies. -/
theorem read_repaired {stale : Option AnchorCopy} (settled : c.settled sha = some (r, stale)) :
    r.Canonical ∧ ∀ copy, (c.repaired sha r stale).read sha copy = .ok r := by
  obtain ⟨a, b, readsA, readsB, -, settles⟩ := settled_eq_some.mp settled
  cases settles with
  | level same =>
      subst same
      refine ⟨read_canonical readsA, fun copy => ?_⟩
      cases copy
      · exact readsA
      · exact readsB
  | behind before le =>
      have canonical := read_canonical readsB
      refine ⟨canonical, fun copy => ?_⟩
      cases copy
      · exact read_repaired_same canonical
      · exact readsB
  | ahead before le =>
      have canonical := read_canonical readsA
      refine ⟨canonical, fun copy => ?_⟩
      cases copy
      · exact readsA
      · exact read_repaired_same canonical

theorem settled_repaired {stale : Option AnchorCopy} (settled : c.settled sha = some (r, stale)) :
    (c.repaired sha r stale).settled sha = some (r, none) := by
  obtain ⟨-, reads⟩ := read_repaired settled
  exact settled_eq_some.mpr ⟨r, r, reads .a, reads .b, rfl, .level rfl⟩

end Copies

/-! ## What the recovery makes of them -/

/-- What a request writes, and where. -/
def StoreOp.writes (sha : Bytes → Digest) : StoreOp → Option (AnchorCopy × Bytes)
  | .writeFullAndSync copy record => some (copy, encodeRecord sha record)
  | _ => none

section Recovering

variable (sha : Bytes → Digest) (watermark : Option Generation) (verifyCommit : AnchorRecord → Bool)

/-- The checks that follow the decision. -/
def Passes (r : AnchorRecord) : Prop :=
  (watermark.any fun floor => r.generation.get < floor.get) = false ∧
    (AnchorPayload.isCommit r.payload = true → verifyCommit r = true)

/-- How a recovery of two files ends: its result, what it leaves and what it wrote. -/
inductive Recovered (c : Copies) :
    Except RecoveryError RecoveryReport → Copies → List (AnchorCopy × Bytes) → Prop
  | refused (e : RecoveryError)
      (why : ∀ r stale, c.settled sha = some (r, stale) → ¬Passes watermark verifyCommit r) :
      Recovered c (.error e) c []
  | adopted {r : AnchorRecord} {stale : Option AnchorCopy} (settled : c.settled sha = some (r, stale))
      (passes : Passes watermark verifyCommit r) :
      Recovered c
        (.ok { adopted := r, repaired := stale, quarantined := []
               warnings := .dualRollbackUndetectable :: (stale.map .staleCopyRepaired).toList })
        (c.repaired sha r stale) (stale.toList.map fun copy => (copy, encodeRecord sha r))

/-- The stores, with a log of what was written. -/
abbrev recorded : Device StoreOp StoreReply Unit (Copies × List (AnchorCopy × Bytes)) :=
  ((Copies.stores sha).logged (StoreOp.writes sha)).device

variable {sha watermark verifyCommit} {c : Copies} {log : List (AnchorCopy × Bytes)}

section Requests

variable {copy : AnchorCopy} {crash : Copies × List (AnchorCopy × Bytes) → Prop}
  {post : Except PlatformError Unit → Copies × List (AnchorCopy × Bytes) → Prop}

theorem wp_readVerified
    {post : Except PlatformError AnchorRecord → Copies × List (AnchorCopy × Bytes) → Prop}
    (done : post (c.read sha copy) (c, log)) :
    (readVerified copy).run.wp (recorded sha) post crash (c, log) := fun _ => done

theorem wp_writeFullAndSync {r : AnchorRecord}
    (done : post (.ok ()) (c.write copy (encodeRecord sha r), log ++ [(copy, encodeRecord sha r)])) :
    (writeFullAndSync copy r).run.wp (recorded sha) post crash (c, log) := fun _ => done

theorem wp_syncParentIfCreated (done : post (.ok ()) (c, log)) :
    (syncParentIfCreated copy).run.wp (recorded sha) post crash (c, log) := fun _ => done

end Requests

theorem wp_repairStale {r : AnchorRecord} {stale : Option AnchorCopy}
    (settled : c.settled sha = some (r, stale)) :
    (repairStale r stale).run.wp (recorded sha)
      (fun out s => out = .ok () ∧ s = (c.repaired sha r stale,
        log ++ stale.toList.map fun copy => (copy, encodeRecord sha r)))
      (fun _ => False) (c, log) := by
  cases stale with
  | none => exact ⟨rfl, by simp [Copies.repaired]⟩
  | some copy =>
      have back : (c.write copy (encodeRecord sha r)).read sha copy = .ok r :=
        (Copies.read_repaired settled).2 copy
      rw [repairStale, wp_except_bind, wp_failWith]
      apply wp_writeFullAndSync
      dsimp only
      rw [wp_except_bind, wp_failWith]
      apply wp_syncParentIfCreated
      dsimp only
      rw [wp_except_bind, wp_failWith]
      apply wp_readVerified
      rw [back]
      exact wp_failIf.mpr ⟨fun differs => absurd rfl differs, fun _ => ⟨rfl, rfl⟩⟩

theorem wp_proceed {r : AnchorRecord} {stale : Option AnchorCopy}
    (settled : c.settled sha = some (r, stale)) :
    (proceed watermark verifyCommit r stale).run.wp (recorded sha)
      (fun out s => Recovered sha watermark verifyCommit c out s.1 s.2) (fun _ => False) (c, []) := by
  have only {p : AnchorRecord → Prop} (not : ¬p r) : ∀ r' stale', c.settled sha = some (r', stale') →
      ¬p r' := by
    intro r' stale' settled'
    rw [settled, Option.some.injEq, Prod.mk.injEq] at settled'
    exact settled'.1 ▸ not
  unfold proceed
  rw [wp_except_bind, wp_failIf]
  refine ⟨fun blocked => .refused _ (only fun passes => ?_), fun free => ?_⟩
  · rw [passes.1] at blocked
    cases blocked
  rw [wp_except_bind, wp_failIf]
  refine ⟨fun mismatch => .refused _ (only fun passes => ?_), fun agrees => ?_⟩
  · simp [passes.2 mismatch.1] at mismatch
  rw [wp_except_bind]
  refine wp_mono (wp_repairStale settled) ?_ fun _ crashed => crashed
  rintro _ _ ⟨rfl, rfl⟩
  refine .adopted settled ⟨by simpa using free, fun commit => ?_⟩
  by_contra unverified
  exact agrees ⟨commit, by simpa using unverified⟩

/-- **What the recovery does with two files that do not fail.** -/
theorem wp_recover (c : Copies) :
    (recoverWithOptions watermark verifyCommit).run.wp (recorded sha)
      (fun out s => Recovered sha watermark verifyCommit c out s.1 s.2) (fun _ => False) (c, []) := by
  unfold recoverWithOptions
  rw [wp_except_bind, wp_except_lift]
  apply wp_readVerified
  dsimp only
  rw [wp_except_bind, wp_except_lift]
  apply wp_readVerified
  dsimp only
  rw [wp_except_bind]
  have decision : c.settled sha =
    (decide (orCorrupt (c.read sha .a)) (orCorrupt (c.read sha .b))).settled := rfl
  cases decided : decide (orCorrupt (c.read sha .a)) (orCorrupt (c.read sha .b)) with
  | consistent r =>
      rw [decided] at decision
      exact wp_proceed decision
  | adoptHigher r stale =>
      rw [decided] at decision
      exact wp_proceed decision
  | _ =>
      rw [decided] at decision
      exact .refused _ fun r stale settled => nomatch decision.symm.trans settled

end Recovering

end Jbuu.Recovery
