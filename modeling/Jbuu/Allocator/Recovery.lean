/-
# Allocator.Recovery — what a start-up adopts, and when it succeeds

`TransactionCore::open` over the failing disk. `wp_open`: whatever fails in it, it
ends in an error on a sound disk or with both copies reading as the record it adopts,
which is the newer of the two it read. `open_succeeds`: on two readable copies of one
pointer, with nothing failing, it does adopt.
-/
import Jbuu.Allocator.Reservation

namespace Jbuu.Allocator

set_option autoImplicit false

open Jbuu.Library.BigEndian (Bytes)
open Jbuu.Library
open Jbuu.Library.Program (calm failIf wp_mono wp_except_bind wp_failWith wp_failIf wp_throw
  wp_except_pure returns_of_wp)

section Opening

variable {sha : Bytes → Digest} {book : BookFile} {p : AnchorCopy → AnchorRecord → Prop}

theorem wp_persistOne {record : AnchorRecord} {copy : AnchorCopy} {d : Disk}
    (sound : Sound sha p d) (canonical : record.Canonical) (allowed : p copy record)
    (newer : ∀ older, (d.get copy).Holds sha older → older.LeadsTo record) :
    (persistOne sha copy record).run.wp (media sha book)
      (fun r d' => Sound sha p d' ∧ (r = .ok () → ∀ other, other ≠ copy →
        d'.get other = d.get other)) (Sound sha p) d := by
  unfold persistOne
  rw [wp_except_bind]
  refine wp_write sound canonical allowed newer ?_ fun _ _ sound => ⟨sound, nofun⟩
  intro written writes sound
  refine wp_sync sound ?_ fun _ _ sound => ⟨sound, nofun⟩
  intro synced syncs sound
  refine ⟨sound, fun _ other ne => ?_⟩
  rw [syncs, Disk.get_set_ne _ _ ne, writes, Disk.get_set_ne _ _ ne]

theorem wp_verifyCommit {current : AnchorRecord} {d : Disk} (sound : Sound sha p d) :
    (verifyCommit sha current).run.wp (media sha book) (fun _ d' => d' = d) (Sound sha p) d := by
  unfold verifyCommit
  split
  · split
    · exact rfl
    · rw [wp_except_bind, wp_failWith]
      refine wp_segment sound (fun _ => ?_) fun _ => rfl
      exact wp_failIf.mpr ⟨fun _ => rfl, fun _ => rfl⟩
  · exact rfl

/-- After a repair both copies read as the adopted record. -/
theorem wp_repair {current : AnchorRecord} {stale : AnchorCopy} {d : Disk}
    (sound : Sound sha p d) (canonical : current.Canonical) (allowed : p stale current)
    (newer : ∀ older, (d.get stale).Holds sha older → older.LeadsTo current)
    (reads : decodeAndVerify sha (d.get stale.other).cached = .ok current) :
    (repair sha current (some stale)).run.wp (media sha book)
      (fun r d' => Sound sha p d' ∧
        (r = .ok () → ∀ copy, decodeAndVerify sha (d'.get copy).cached = .ok current))
      (Sound sha p) d := by
  rw [repair, wp_except_bind, wp_failWith]
  refine wp_mono (wp_persistOne sound canonical allowed newer) ?_ fun _ crashed => crashed
  rintro (e | ⟨⟩) repaired ⟨sound, done⟩
  · exact ⟨sound, nofun⟩
  have same := done rfl
  rw [wp_except_bind]
  refine wp_readRecord sound (fun r readsBack => ?_) ⟨sound, nofun⟩
  refine wp_failIf.mpr ⟨fun _ => ⟨sound, nofun⟩, fun equal => ⟨sound, fun _ copy => ?_⟩⟩
  by_cases isStale : copy = stale
  · rw [isStale, readsBack, not_ne_iff.mp equal]
  · have other : copy = stale.other := by
      cases copy <;> cases stale <;> first | rfl | exact absurd rfl isStale
    rw [same copy isStale, other, reads]

/-- How an `open` that did not crash ends. -/
inductive Opened (sha : Bytes → Digest) (p : AnchorCopy → AnchorRecord → Prop) (book : BookFile)
    (before : Disk) : Except IssueError TransactionCore → Disk → Prop
  | refused {e : IssueError} {d : Disk} (sound : Sound sha p d) : Opened sha p book before (.error e) d
  | adopted {r : AnchorRecord} {d : Disk} (sound : Sound sha p d)
      (reads : ∀ copy, decodeAndVerify sha (d.get copy).cached = .ok r)
      (newest : ∀ copy, ∃ older, decodeAndVerify sha (before.get copy).cached = .ok older ∧
        older.LeadsTo r) :
      Opened sha p book before
        (.ok { segmentCount := book.segmentCount, bookId := book.bookId, current := r,
               halted := false }) d

/-- **What a start-up adopts.** `repairs` is what `p` has to allow: the newer record, in
place of the older one it finds in a copy. -/
theorem wp_open {d : Disk} (sound : Sound sha p d)
    (repairs : ∀ copy older newer, p copy older → p copy.other newer → older.LeadsTo newer →
      p copy newer) :
    (TransactionCore.open sha book.segmentCount book.bookId).run.wp (media sha book)
      (Opened sha p book d) (Sound sha p) d := by
  unfold TransactionCore.open
  rw [wp_except_bind]
  refine wp_readRecord sound (fun a readsA => ?_) (.refused sound)
  dsimp only
  rw [wp_except_bind]
  refine wp_readRecord sound (fun b readsB => ?_) (.refused sound)
  dsimp only
  rw [wp_except_bind, wp_failIf]
  refine ⟨fun _ => .refused sound, fun _ => ?_⟩
  have allowedA : p .a a := sound.within .a a (CopyState.holds_cached readsA)
  have allowedB : p .b b := sound.within .b b (CopyState.holds_cached readsB)
  -- The rest of `open`, once the decision is made.
  have rest (current : AnchorRecord) (stale : Option AnchorCopy)
      (leads : ∀ copy, ∃ older, decodeAndVerify sha (d.get copy).cached = .ok older ∧
        older.LeadsTo current)
      (repaired : (repair sha current stale).run.wp (media sha book)
        (fun r d' => Sound sha p d' ∧
          (r = .ok () → ∀ copy, decodeAndVerify sha (d'.get copy).cached = .ok current))
        (Sound sha p) d) :
      (do failIf (book.segmentCount < current.next.get) .anchorCorrupt
          verifyCommit sha current
          repair sha current stale
          pure { segmentCount := book.segmentCount, bookId := book.bookId, current,
                 halted := false } :
        ExceptT IssueError Transaction TransactionCore).run.wp (media sha book)
        (Opened sha p book d) (Sound sha p) d := by
    rw [wp_except_bind, wp_failIf]
    refine ⟨fun _ => .refused sound, fun _ => ?_⟩
    rw [wp_except_bind]
    refine wp_mono (wp_verifyCommit sound) ?_ fun _ crashed => crashed
    rintro (e | ⟨⟩) d' rfl
    · exact .refused sound
    rw [wp_except_bind]
    refine wp_mono repaired ?_ fun _ crashed => crashed
    rintro (e | ⟨⟩) d' ⟨sound, reads⟩
    · exact .refused sound
    · exact .adopted sound (reads rfl) leads
  have adopts := decide_adopts a b
  rw [wp_except_bind]
  cases decision : decide (.ok a) (.ok b) with
  | consistent r =>
      rw [decision] at adopts
      obtain ⟨rfl, rfl⟩ := adopts
      have reads : ∀ copy, decodeAndVerify sha (d.get copy).cached = .ok b
        | .a => readsA
        | .b => readsB
      exact rest b none (fun copy => ⟨b, reads copy, .refl b⟩) ⟨sound, fun _ => reads⟩
  | adoptHigher r stale =>
      rw [decision] at adopts
      cases stale with
      | a =>
          obtain ⟨rfl, leads⟩ := adopts
          refine rest b (some .a) (fun copy => ?_) (wp_repair sound
            (decodeAndVerify_canonical readsB) (repairs .a a b allowedA allowedB leads)
            (fun older holds => (sound.newest .a a readsA older holds).trans leads) readsB)
          cases copy with
          | a => exact ⟨a, readsA, leads⟩
          | b => exact ⟨b, readsB, .refl b⟩
      | b =>
          obtain ⟨rfl, leads⟩ := adopts
          refine rest a (some .b) (fun copy => ?_) (wp_repair sound
            (decodeAndVerify_canonical readsA) (repairs .b b a allowedB allowedA leads)
            (fun older holds => (sound.newest .b b readsB older holds).trans leads) readsA)
          cases copy with
          | a => exact ⟨a, readsA, .refl a⟩
          | b => exact ⟨b, readsB, leads⟩
  | quarantineCorrupt copy reason => exact .refused sound
  | cannotProveSafe reason => exact .refused sound
  | bothUnreadable => exact .refused sound

/-! ## With nothing failing -/

theorem calm_verifyCommit {current : AnchorRecord} {crash : Disk → Prop} {d : Disk}
    (genuine : Genuine sha book current) :
    (verifyCommit sha current).run.wp (calm (media sha book)) (fun r d' => r = .ok () ∧ d' = d)
      crash d := by
  unfold verifyCommit
  split
  · rename_i hash payload
    have canonical := genuine.canonical
    simp only [AnchorRecord.Canonical, payload] at canonical
    have inside : current.next.get - 1 < book.segmentCount := by
      have := genuine.inside
      have positive : 0 < current.next.get.toNat := by
        rw [Nat.pos_iff_ne_zero]
        exact fun zero => canonical (UInt64.toNat_inj.mp zero)
      rw [UInt64.lt_iff_toNat_lt, UInt64.toNat_sub_of_le _ _ (by
        rw [UInt64.le_iff_toNat_le]; simp; omega)]
      simp only [UInt64.reduceToNat]
      omega
    rw [if_neg canonical, wp_except_bind, wp_failWith]
    refine calm_segment inside ?_
    refine wp_failIf.mpr ⟨fun differ => ?_, fun _ => ⟨rfl, rfl⟩⟩
    exact absurd (genuine.hash hash payload) differ
  · exact ⟨rfl, rfl⟩

theorem calm_repair {current : AnchorRecord} {stale : Option AnchorCopy} {crash : Disk → Prop}
    {d : Disk} (canonical : current.Canonical) :
    (repair sha current stale).run.wp (calm (media sha book)) (fun r _ => r = .ok ()) crash d := by
  cases stale with
  | none => exact rfl
  | some copy =>
      rw [repair, wp_except_bind, wp_failWith, persistOne, wp_except_bind]
      refine calm_write (calm_sync ?_)
      dsimp only
      rw [wp_except_bind]
      have readsBack : decodeAndVerify sha
          (((d.set copy ((d.get copy).write (encodeRecord sha current))).set copy
            ((d.set copy ((d.get copy).write (encodeRecord sha current))).get copy).sync).get
              copy).cached = .ok current := by
        simp [decodeAndVerify_encodeRecord sha current canonical]
      refine calm_readRecord readsBack ?_
      exact wp_failIf.mpr ⟨fun differ => absurd rfl differ, fun _ => rfl⟩

/-- **With nothing failing, two readable copies of one pointer are opened.** -/
theorem open_succeeds {a b : AnchorRecord} {d : Disk}
    (readsA : decodeAndVerify sha d.a.cached = .ok a) (genuineA : Genuine sha book a)
    (readsB : decodeAndVerify sha d.b.cached = .ok b) (genuineB : Genuine sha book b)
    (one : a.LeadsTo b ∨ b.LeadsTo a) :
    ∃ core d', (TransactionCore.open sha book.segmentCount book.bookId).run.exec
      (media sha book) [] d = (.returned (.ok core), d') := by
  suffices opens : (TransactionCore.open sha book.segmentCount book.bookId).run.wp
      (calm (media sha book)) (fun r _ => ∃ core, r = .ok core) (fun _ => False) d by
    obtain ⟨r, d', ends, core, rfl⟩ := returns_of_wp opens
    exact ⟨core, d', ends⟩
  have rest (current : AnchorRecord) (stale : Option AnchorCopy) (genuine : Genuine sha book current) :
      (do failIf (book.segmentCount < current.next.get) .anchorCorrupt
          verifyCommit sha current
          repair sha current stale
          pure { segmentCount := book.segmentCount, bookId := book.bookId, current,
                 halted := false } :
        ExceptT IssueError Transaction TransactionCore).run.wp (calm (media sha book))
        (fun r _ => ∃ core, r = .ok core) (fun _ => False) d := by
    rw [wp_except_bind]
    refine wp_failIf.mpr ⟨fun beyond => ?_, fun _ => ?_⟩
    · rw [UInt64.lt_iff_toNat_lt] at beyond
      exact absurd genuine.inside (Nat.not_le.mpr beyond)
    rw [wp_except_bind]
    refine wp_mono (calm_verifyCommit genuine) ?_ fun _ crashed => crashed
    rintro _ d' ⟨rfl, rfl⟩
    rw [wp_except_bind]
    refine wp_mono (calm_repair genuine.canonical) ?_ fun _ crashed => crashed
    rintro _ d' rfl
    exact ⟨_, rfl⟩
  unfold TransactionCore.open
  rw [wp_except_bind]
  refine calm_readRecord readsA ?_
  dsimp only
  rw [wp_except_bind]
  refine calm_readRecord readsB ?_
  dsimp only
  rw [wp_except_bind]
  refine wp_failIf.mpr ⟨fun foreign => ?_, fun _ => ?_⟩
  · exact absurd foreign (by simp [genuineA.bookId, genuineB.bookId])
  have book_ : a.bookId = b.bookId := genuineA.bookId.trans genuineB.bookId.symm
  rw [wp_except_bind]
  rcases one with leads | leads
  · rw [(decide_leadsTo book_ leads).1]
    by_cases same : a = b
    · rw [if_pos same]
      exact rest b none genuineB
    · rw [if_neg same]
      exact rest b (some .a) genuineB
  · rw [(decide_leadsTo book_.symm leads).2]
    by_cases same : b = a
    · rw [if_pos same]
      exact rest a none genuineA
    · rw [if_neg same]
      exact rest a (some .b) genuineA

end Opening

end Jbuu.Allocator
