/-
# Recovery.Agreement — the two start-ups adopt the same record

A start-up reads the anchors twice: `recover_with_options` through `AnchorStore` and
`TransactionCore::open` through `AnchorMedia`, written apart, with their checks in another
order. On two files that do not fail each of them is refused with nothing written, or
writes the adopted record over the stale copy and nothing else (`Recovered`, `Started`).
`start_ups_agree`: with a verifier that compares the COMMIT hash with the book, on copies
of the expected book, they are refused together and adopt the same record.
-/
import Jbuu.Recovery.Recover
import Jbuu.Allocator.Disk

namespace Jbuu.Recovery

set_option autoImplicit false

open Jbuu.Library.BigEndian (Bytes)
open Jbuu.Library
open Jbuu.Library.Program (failIf wp_except_bind wp_except_pure wp_failWith wp_failIf wp_throw wp_mono)
open Jbuu.Allocator (MediaOp MediaReply MediaError IssueError BookFile TransactionCore)

/-- The media on two files that do not fail, and the reader on the book. -/
def Copies.media (book : BookFile) : Service MediaOp MediaReply Copies
  | .read copy, c =>
      (match c.get copy with
        | some bytes => .ok bytes
        | none => .error .io, c)
  | .write copy bytes, c => (.ok (), c.write copy bytes)
  | .sync _, c => (.ok (), c)
  | .boundary _, c => (.ok (), c)
  | .segment index, c =>
      (if index.get < book.segmentCount then .ok (book.body index) else .error .io, c)

/-- A COMMIT carries the hash of the last segment it commits. -/
def Committed (sha : Bytes → Digest) (book : BookFile) (r : AnchorRecord) : Prop :=
  match r.payload with
  | .commit hash => sha (book.body ⟨r.next.get - 1⟩).val = hash
  | _ => True

instance (sha : Bytes → Digest) (book : BookFile) (r : AnchorRecord) :
    Decidable (Committed sha book r) := by
  unfold Committed
  cases r.payload <;> infer_instance

/-- What an allocator asks of the record it adopts. -/
structure Acceptable (sha : Bytes → Digest) (book : BookFile) (bookId : BookId) (r : AnchorRecord) :
    Prop where
  bookId : r.bookId = bookId
  inside : r.next.get ≤ book.segmentCount
  committed : Committed sha book r

section Starting

variable (sha : Bytes → Digest) (book : BookFile) (bookId : BookId)

/-- How `open` on two files ends: its result, what it leaves and what it wrote. -/
inductive Started (c : Copies) :
    Except IssueError TransactionCore → Copies → List (AnchorCopy × Bytes) → Prop
  | refused (e : IssueError)
      (why : ∀ r stale, c.settled sha = some (r, stale) → ¬Acceptable sha book bookId r) :
      Started c (.error e) c []
  | adopted {r : AnchorRecord} {stale : Option AnchorCopy} (settled : c.settled sha = some (r, stale))
      (acceptable : Acceptable sha book bookId r) :
      Started c (.ok { segmentCount := book.segmentCount, bookId, current := r, halted := false })
        (c.repaired sha r stale) (stale.toList.map fun copy => (copy, encodeRecord sha r))

/-- What a request writes, and where. -/
def mediaWrites : MediaOp → Option (AnchorCopy × Bytes)
  | .write copy bytes => some (copy, bytes)
  | _ => none

/-- The media, with a log of what was written. -/
abbrev recordedMedia : Device MediaOp MediaReply Unit (Copies × List (AnchorCopy × Bytes)) :=
  ((Copies.media book).logged mediaWrites).device

variable {sha book bookId} {c : Copies} {log : List (AnchorCopy × Bytes)}
  {crash : Copies × List (AnchorCopy × Bytes) → Prop}

section Requests

variable {copy : AnchorCopy} {post : Except MediaError Unit → Copies × List (AnchorCopy × Bytes) → Prop}

theorem wp_read {post : Except MediaError Bytes → Copies × List (AnchorCopy × Bytes) → Prop}
    (missing : c.get copy = none → post (.error .io) (c, log))
    (found : ∀ bytes, c.get copy = some bytes → post (.ok bytes) (c, log)) :
    (Allocator.read copy).run.wp (recordedMedia book) post crash (c, log) := by
  intro _
  simp only [Service.device, Service.logged, mediaWrites, Copies.media]
  cases content : c.get copy with
  | none => exact missing content
  | some bytes => exact found bytes content

theorem wp_write {bytes : Bytes} (done : post (.ok ()) (c.write copy bytes, log ++ [(copy, bytes)])) :
    (Allocator.write copy bytes).run.wp (recordedMedia book) post crash (c, log) := fun _ => done

theorem wp_sync (done : post (.ok ()) (c, log)) :
    (Allocator.sync copy).run.wp (recordedMedia book) post crash (c, log) := fun _ => done

theorem wp_segment {index : SegmentIndex}
    {post : Except MediaError Segment → Copies × List (AnchorCopy × Bytes) → Prop}
    (inside : index.get < book.segmentCount) (done : post (.ok (book.body index)) (c, log)) :
    (Allocator.segment index).run.wp (recordedMedia book) post crash (c, log) := by
  intro _
  simp only [Service.device, Service.logged, mediaWrites, Copies.media, if_pos inside]
  exact done

end Requests

/-- A copy is read as the recovery reads it, or refused. -/
theorem wp_readRecord {copy : AnchorCopy}
    {post : Except IssueError AnchorRecord → Copies × List (AnchorCopy × Bytes) → Prop}
    (done : ∀ r, c.read sha copy = .ok r → post (.ok r) (c, log))
    (failed : (∀ r, c.read sha copy ≠ .ok r) → post (.error .anchorCorrupt) (c, log)) :
    (Allocator.readRecord sha copy).run.wp (recordedMedia book) post crash (c, log) := by
  rw [Allocator.readRecord, wp_except_bind, wp_failWith]
  apply wp_read
  · intro missing
    exact failed fun r reads => by simp [Copies.read, missing] at reads
  · intro bytes found
    dsimp only
    cases decodes : decodeAndVerify sha bytes with
    | error e => exact failed fun r reads => by simp [Copies.read, found, decodes] at reads
    | ok r => exact done r (by simp [Copies.read, found, decodes])

theorem wp_verifyCommit {r : AnchorRecord} (canonical : r.Canonical)
    (inside : r.next.get ≤ book.segmentCount)
    {post : Except IssueError Unit → Copies × List (AnchorCopy × Bytes) → Prop}
    (done : Committed sha book r → post (.ok ()) (c, log))
    (failed : ¬Committed sha book r → post (.error .anchorCorrupt) (c, log)) :
    (Allocator.verifyCommit sha r).run.wp (recordedMedia book) post crash (c, log) := by
  obtain ⟨bookId, ⟨next⟩, generation, payload⟩ := r
  cases payload with
  | init => exact done trivial
  | intent reserved => exact done trivial
  | commit hash =>
      have nonzero : next ≠ 0 := canonical
      have positive : 0 < next.toNat := by
        rw [Nat.pos_iff_ne_zero]
        exact fun zero => nonzero (UInt64.toNat_inj.mp zero)
      have last : next - 1 < book.segmentCount := by
        rw [UInt64.le_iff_toNat_le] at inside
        rw [UInt64.lt_iff_toNat_lt, UInt64.toNat_sub_of_le _ _ (by
          rw [UInt64.le_iff_toNat_le]; exact positive)]
        exact Nat.lt_of_lt_of_le (Nat.sub_lt positive Nat.one_pos) inside
      simp only [Allocator.verifyCommit]
      rw [if_neg nonzero, wp_except_bind, wp_failWith]
      apply wp_segment last
      exact wp_failIf.mpr ⟨fun differs => failed differs, fun same => done (not_not.mp same)⟩

theorem wp_repair {r : AnchorRecord} {stale : Option AnchorCopy}
    (settled : c.settled sha = some (r, stale)) :
    (Allocator.repair sha r stale).run.wp (recordedMedia book)
      (fun out s => out = .ok () ∧ s = (c.repaired sha r stale,
        log ++ stale.toList.map fun copy => (copy, encodeRecord sha r)))
      (fun _ => False) (c, log) := by
  cases stale with
  | none => exact ⟨rfl, by simp [Copies.repaired]⟩
  | some copy =>
      have back : (c.write copy (encodeRecord sha r)).read sha copy = .ok r :=
        (Copies.read_repaired settled).2 copy
      rw [Allocator.repair, wp_except_bind, wp_failWith, Allocator.persistOne, wp_except_bind]
      apply wp_write
      apply wp_sync
      dsimp only
      rw [wp_except_bind]
      apply wp_readRecord
      · intro r' reads
        obtain rfl := Except.ok.inj (back.symm.trans reads)
        exact wp_failIf.mpr ⟨fun differs => absurd rfl differs, fun _ => ⟨rfl, rfl⟩⟩
      · exact fun unreadable => absurd back (unreadable r)

/-- **What `open` does with two files that do not fail.** -/
theorem wp_open (c : Copies) :
    (TransactionCore.open sha book.segmentCount bookId).run.wp (recordedMedia book)
      (fun out s => Started sha book bookId c out s.1 s.2) (fun _ => False) (c, []) := by
  unfold TransactionCore.open
  rw [wp_except_bind]
  refine wp_readRecord (fun a readsA => ?_) fun unreadable => .refused _ fun r stale settled => ?_
  swap
  · obtain ⟨a, b, readsA, -⟩ := Copies.settled_eq_some.mp settled
    exact absurd readsA (unreadable a)
  dsimp only
  rw [wp_except_bind]
  refine wp_readRecord (fun b readsB => ?_) fun unreadable => .refused _ fun r stale settled => ?_
  swap
  · obtain ⟨a, b, -, readsB, -⟩ := Copies.settled_eq_some.mp settled
    exact absurd readsB (unreadable b)
  dsimp only
  have decision : c.settled sha = (decide (.ok a) (.ok b)).settled := by
    simp only [Copies.settled, readsA, readsB, orCorrupt]
  rw [wp_except_bind, wp_failIf]
  refine ⟨fun foreign => .refused _ fun r stale settled acceptable => ?_, fun own => ?_⟩
  · obtain ⟨a', b', readsA', readsB', book_, settles⟩ := Copies.settled_eq_some.mp settled
    obtain rfl := Except.ok.inj (readsA.symm.trans readsA')
    obtain rfl := Except.ok.inj (readsB.symm.trans readsB')
    have mine := acceptable.bookId
    cases settles <;> simp_all
  rw [wp_except_bind]
  -- The rest of `open`, once the copies are settled.
  have rest (r : AnchorRecord) (stale : Option AnchorCopy) (settled : c.settled sha = some (r, stale)) :
      (do failIf (book.segmentCount < r.next.get) .anchorCorrupt
          Allocator.verifyCommit sha r
          Allocator.repair sha r stale
          pure { segmentCount := book.segmentCount, bookId, current := r, halted := false } :
        ExceptT IssueError Allocator.Transaction TransactionCore).run.wp (recordedMedia book)
        (fun out s => Started sha book bookId c out s.1 s.2) (fun _ => False) (c, []) := by
    have only (not : ¬Acceptable sha book bookId r) : ∀ r' stale', c.settled sha = some (r', stale') →
        ¬Acceptable sha book bookId r' := by
      intro r' stale' settled'
      rw [settled, Option.some.injEq, Prod.mk.injEq] at settled'
      exact settled'.1 ▸ not
    have mine : r.bookId = bookId := by
      obtain ⟨a', b', readsA', readsB', -, settles⟩ := Copies.settled_eq_some.mp settled
      obtain rfl := Except.ok.inj (readsA.symm.trans readsA')
      obtain rfl := Except.ok.inj (readsB.symm.trans readsB')
      obtain ⟨ownA, ownB⟩ := by simpa only [not_or, not_not] using own
      cases settles
      · exact ownB
      · exact ownB
      · exact ownA
    rw [wp_except_bind, wp_failIf]
    refine ⟨fun beyond => .refused _ (only fun acceptable => ?_), fun within => ?_⟩
    · exact absurd acceptable.inside (UInt64.not_le.mpr beyond)
    have inside : r.next.get ≤ book.segmentCount := UInt64.not_lt.mp within
    rw [wp_except_bind]
    apply wp_verifyCommit (Copies.read_repaired settled).1 inside
    · intro committed
      dsimp only
      rw [wp_except_bind]
      refine wp_mono (wp_repair settled) ?_ fun _ crashed => crashed
      rintro _ _ ⟨rfl, rfl⟩
      exact .adopted settled ⟨mine, inside, committed⟩
    · exact fun differs => .refused _ (only fun acceptable => differs acceptable.committed)
  cases decided : decide (.ok a) (.ok b) with
  | consistent r =>
      rw [decided] at decision
      exact rest r none decision
  | adoptHigher r stale =>
      rw [decided] at decision
      exact rest r (some stale) decision
  | _ =>
      rw [decided] at decision
      exact .refused _ fun r stale settled => by cases decision.symm.trans settled

end Starting

/-! ## The agreement -/

section Agreeing

variable (sha : Bytes → Digest) (book : BookFile)

/-- The verifier that compares the hash of body `next - 1` with the COMMIT payload. -/
def commitVerifier (r : AnchorRecord) : Bool := Decidable.decide (Committed sha book r)

/-- The recovery with that verifier and no watermark, run on two files. -/
def recovery (c : Copies) :
    Outcome (Except RecoveryError RecoveryReport) × Copies × List (AnchorCopy × Bytes) :=
  (recoverWithOptions none (commitVerifier sha book)).run.exec (recorded sha) [] (c, [])

/-- The allocator's start-up on the same files. -/
def opening (c : Copies) :
    Outcome (Except IssueError TransactionCore) × Copies × List (AnchorCopy × Bytes) :=
  (TransactionCore.open sha book.segmentCount book.bookId).run.exec (recordedMedia book) [] (c, [])

/-- `r` was adopted from `before`: `after` is left, `log` was written. -/
structure Adoption (before : Copies) (r : AnchorRecord) (after : Copies)
    (log : List (AnchorCopy × Bytes)) : Prop where
  held : ∃ copy, before.read sha copy = .ok r
  greatest : ∀ copy, ∃ old, before.read sha copy = .ok old ∧ old.stateCmp r ≠ .gt ∧
    old.next.get ≤ r.next.get
  written : ∀ copy bytes, (copy, bytes) ∈ log →
    bytes = encodeRecord sha r ∧ before.read sha copy ≠ .ok r
  untouched : ∀ copy, before.read sha copy = .ok r → after.get copy = before.get copy
  both : ∀ copy, after.read sha copy = .ok r
  again : ∃ report core, recovery sha book after = (.returned (.ok report), after, []) ∧
    opening sha book after = (.returned (.ok core), after, []) ∧
    report.adopted = r ∧ core.current = r

variable {sha book} {c : Copies} {r : AnchorRecord} {stale : Option AnchorCopy}

theorem Copies.settled_le (settled : c.settled sha = some (r, stale)) (copy : AnchorCopy) :
    ∃ old, c.read sha copy = .ok old ∧ old.stateCmp r ≠ .gt ∧ old.next.get ≤ r.next.get := by
  obtain ⟨a, b, readsA, readsB, -, settles⟩ := settled_eq_some.mp settled
  have self (x : AnchorRecord) : x.stateCmp x ≠ .gt := fun gt =>
    (AnchorRecord.stateCmp_eq_gt.mp gt).asymm (AnchorRecord.stateCmp_eq_gt.mp gt)
  have older {x y : AnchorRecord} (before : x.Before y) : x.stateCmp y ≠ .gt := fun gt =>
    before.asymm (AnchorRecord.stateCmp_eq_gt.mp gt)
  cases settles with
  | level same =>
      subst same
      cases copy
      · exact ⟨a, readsA, self a, UInt64.le_refl _⟩
      · exact ⟨a, readsB, self a, UInt64.le_refl _⟩
  | behind before le =>
      cases copy
      · exact ⟨a, readsA, older before, le⟩
      · exact ⟨r, readsB, self r, UInt64.le_refl _⟩
  | ahead before le =>
      cases copy
      · exact ⟨r, readsA, self r, UInt64.le_refl _⟩
      · exact ⟨b, readsB, older before, le⟩

/-- The stale copy does not hold the adopted record, the other one does. -/
theorem Copies.settled_stale (settled : c.settled sha = some (r, stale)) (copy : AnchorCopy) :
    c.read sha copy = .ok r ↔ stale ≠ some copy := by
  obtain ⟨a, b, readsA, readsB, -, settles⟩ := settled_eq_some.mp settled
  have differ {x y : AnchorRecord} (before : x.Before y) : x ≠ y := by
    rintro rfl
    exact before.asymm before
  cases settles with
  | level same => cases copy <;> simp [readsA, readsB, same]
  | behind before le => cases copy <;> simp [readsA, readsB, differ before]
  | ahead before le => cases copy <;> simp [readsA, readsB, differ before]

variable (sha book) in
theorem recovery_ends (c : Copies) : ∃ out c' log, recovery sha book c = (.returned out, c', log) ∧
    Recovered sha none (commitVerifier sha book) c out c' log := by
  obtain ⟨out, ⟨c', log⟩, run, ends⟩ := Program.returns_of_service (wp_recover c)
  exact ⟨out, c', log, run, ends⟩

variable (sha book) in
theorem opening_ends (c : Copies) : ∃ out c' log, opening sha book c = (.returned out, c', log) ∧
    Started sha book book.bookId c out c' log := by
  obtain ⟨out, ⟨c', log⟩, run, ends⟩ := Program.returns_of_service (wp_open c)
  exact ⟨out, c', log, run, ends⟩

theorem passes_iff : Passes none (commitVerifier sha book) r ↔ Committed sha book r := by
  have verifies : commitVerifier sha book r = true ↔ Committed sha book r := decide_eq_true_iff
  rw [Passes, verifies]
  obtain ⟨bookId, next, generation, payload⟩ := r
  cases payload <;> simp [Committed, AnchorPayload.isCommit]

/-- **On a settled pair that both accept, both adopt.** -/
theorem both_adopt (settled : c.settled sha = some (r, stale))
    (acceptable : Acceptable sha book book.bookId r) :
    (∃ report, recovery sha book c = (.returned (.ok report), c.repaired sha r stale,
        stale.toList.map fun copy => (copy, encodeRecord sha r)) ∧ report.adopted = r) ∧
      ∃ core, opening sha book c = (.returned (.ok core), c.repaired sha r stale,
        stale.toList.map fun copy => (copy, encodeRecord sha r)) ∧ core.current = r := by
  constructor
  · obtain ⟨out, c', log, run, ends⟩ := recovery_ends sha book c
    cases ends with
    | refused e why => exact absurd (passes_iff.mpr acceptable.committed) (why r stale settled)
    | adopted settled' passes =>
        obtain ⟨rfl, rfl⟩ := Prod.mk.inj (Option.some.inj (settled'.symm.trans settled))
        exact ⟨_, run, rfl⟩
  · obtain ⟨out, c', log, run, ends⟩ := opening_ends sha book c
    cases ends with
    | refused e why => exact absurd acceptable (why r stale settled)
    | adopted settled' passes =>
        obtain ⟨rfl, rfl⟩ := Prod.mk.inj (Option.some.inj (settled'.symm.trans settled))
        exact ⟨_, run, rfl⟩

/-- **The two start-ups agree.** On copies of the book with pointers inside it, or missing,
torn or invalid ones, both are refused with nothing written, or both adopt the same record
and leave the same files. -/
theorem start_ups_agree (sha : Bytes → Digest) (book : BookFile) (c : Copies)
    (expected : ∀ copy r, c.read sha copy = .ok r →
      r.bookId = book.bookId ∧ r.next.get ≤ book.segmentCount) :
    (∃ e e', recovery sha book c = (.returned (.error e), c, []) ∧
      opening sha book c = (.returned (.error e'), c, [])) ∨
    ∃ report core after log, recovery sha book c = (.returned (.ok report), after, log) ∧
      opening sha book c = (.returned (.ok core), after, log) ∧
      report.adopted = core.current ∧ Adoption sha book c core.current after log := by
  by_cases fine : ∃ r stale, c.settled sha = some (r, stale) ∧ Committed sha book r
  · obtain ⟨r, stale, settled, committed⟩ := fine
    have held : ∃ copy, c.read sha copy = .ok r := by
      cases stale with
      | none => exact ⟨.a, (Copies.settled_stale settled .a).mpr nofun⟩
      | some copy =>
          refine ⟨copy.other, (Copies.settled_stale settled _).mpr ?_⟩
          cases copy <;> simp [AnchorCopy.other]
    have acceptable : Acceptable sha book book.bookId r := by
      obtain ⟨copy, reads⟩ := held
      obtain ⟨bookId, inside⟩ := expected copy r reads
      exact ⟨bookId, inside, committed⟩
    obtain ⟨⟨report, recovers, adopts⟩, core, opens, current⟩ := both_adopt settled acceptable
    obtain ⟨⟨report', recovers', adopts'⟩, core', opens', current'⟩ :=
      both_adopt (Copies.settled_repaired settled) acceptable
    refine .inr ⟨report, core, _, _, recovers, opens, adopts.trans current.symm, ?_⟩
    rw [current]
    constructor
    · exact held
    · exact Copies.settled_le settled
    · intro copy bytes mem
      obtain ⟨stale', isStale, same⟩ := List.mem_map.mp mem
      obtain ⟨rfl, rfl⟩ := Prod.mk.inj same
      refine ⟨rfl, fun reads => (Copies.settled_stale settled stale').mp reads ?_⟩
      simpa using isStale
    · intro copy reads
      have fresh := (Copies.settled_stale settled copy).mp reads
      cases stale with
      | none => rfl
      | some stale =>
          have other : copy = stale.other := by
            cases copy <;> cases stale <;> first | rfl | exact absurd rfl fresh
          rw [other]
          exact Copies.get_write_other ..
    · exact (Copies.read_repaired settled).2
    · exact ⟨report', core', recovers', opens', adopts', current'⟩
  · left
    have none_ : ∀ r stale, c.settled sha = some (r, stale) → ¬Committed sha book r :=
      fun r stale settled committed => fine ⟨r, stale, settled, committed⟩
    obtain ⟨out, c₁, log₁, recovers, recovered⟩ := recovery_ends sha book c
    obtain ⟨out', c₂, log₂, opens, started⟩ := opening_ends sha book c
    cases recovered with
    | adopted settled passes => exact absurd (passes_iff.mp passes) (none_ _ _ settled)
    | refused e why =>
        cases started with
        | adopted settled acceptable => exact absurd acceptable.committed (none_ _ _ settled)
        | refused e' why' => exact ⟨e, e', recovers, opens⟩

theorem start_ups_agree_stale :
    let sha : Bytes → Digest := fun bytes => .replicate 32 (bytes.foldl (· + ·) 0)
    let book : BookFile := ⟨⟨.replicate 16 7⟩, 2, fun _ => .replicate 64 5⟩
    let newer : AnchorRecord := ⟨book.bookId, ⟨1⟩, ⟨1⟩, .intent ⟨0⟩⟩
    let c : Copies := ⟨some (encodeRecord sha newer), some (encodeRecord sha (.init book.bookId))⟩
    ∃ report core after log, recovery sha book c = (.returned (.ok report), after, log) ∧
      opening sha book c = (.returned (.ok core), after, log) ∧
      report.adopted = core.current ∧ Adoption sha book c core.current after log := by
  intro sha book newer c
  have readsA : c.read sha .a = .ok newer :=
    Copies.read_eq_ok.mpr ⟨_, rfl, decodeAndVerify_encodeRecord sha newer rfl⟩
  have readsB : c.read sha .b = .ok (.init book.bookId) :=
    Copies.read_eq_ok.mpr ⟨_, rfl, decodeAndVerify_encodeRecord sha _ ⟨rfl, rfl⟩⟩
  have settled : c.settled sha = some (newer, some .b) :=
    Copies.settled_eq_some.mpr ⟨newer, _, readsA, readsB, rfl, .ahead (by decide) (by decide)⟩
  rcases start_ups_agree sha book c (by
    rintro (_ | _) r reads
    · obtain rfl := Except.ok.inj (readsA.symm.trans reads)
      decide
    · obtain rfl := Except.ok.inj (readsB.symm.trans reads)
      decide) with ⟨e, e', recovers, -⟩ | adopts
  · have fine : Acceptable sha book book.bookId newer := ⟨rfl, by decide, trivial⟩
    obtain ⟨⟨report, recovers', -⟩, -⟩ := both_adopt settled fine
    cases recovers.symm.trans recovers'
  · exact adopts

end Agreeing

end Jbuu.Recovery
