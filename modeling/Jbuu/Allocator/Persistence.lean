/-
# Allocator.Persistence — what a persist, a read and a repair leave on the disk

Each program of the transaction core gets one specification over the failing disk.
All of them are about one statement, `Sound p`: the disk holds only records `p` allows
and each copy reads as the newest it holds. It survives every failure and every crash
(the crash postcondition throughout); what a program adds is what it says on success,
for a persist that both copies hold the new record and nothing else (`Written`).
-/
import Jbuu.Allocator.Disk

namespace Jbuu.Allocator

set_option autoImplicit false

open Jbuu.Library.BigEndian (Bytes)
open Jbuu.Library
open Jbuu.Library.Program

section Specifications

variable {sha : Bytes → Digest} {book : BookFile} {p : AnchorCopy → AnchorRecord → Prop}

structure Sound (sha : Bytes → Digest) (p : AnchorCopy → AnchorRecord → Prop) (d : Disk) : Prop where
  within : Within sha p d
  newest : Newest sha d

/-- The copy holds `record`, synced. -/
def CopyState.Written (sha : Bytes → Digest) (record : AnchorRecord) (c : CopyState) : Prop :=
  c = { durable := encodeRecord sha record, unsynced := [] }

/-- Both copies hold `record`, synced. -/
def Written (sha : Bytes → Digest) (record : AnchorRecord) (d : Disk) : Prop :=
  ∀ copy, (d.get copy).Written sha record

theorem Sound.lose {d : Disk} (sound : Sound sha p d) (loss : Loss sha) :
    Sound sha p (d.lose loss) :=
  ⟨lose_within sound.within, lose_newest sound.newest⟩

theorem Sound.partly {d : Disk} {op : MediaOp} (sound : Sound sha p d) (allows : Allows sha p op)
    (advances : Advances sha d op) (effect : Effect sha) : Sound sha p (d.partly op effect) :=
  ⟨partly_within sound.within allows, partly_newest sound.newest advances⟩

theorem Sound.mono {p' : AnchorCopy → AnchorRecord → Prop} {d : Disk} (sound : Sound sha p d)
    (weaker : ∀ copy r, (d.get copy).Holds sha r → p copy r → p' copy r) : Sound sha p' d :=
  ⟨fun copy r holds => weaker copy r holds (sound.within copy r holds), sound.newest⟩

theorem CopyState.Written.holds {record r : AnchorRecord} {c : CopyState}
    (written : c.Written sha record) (canonical : record.Canonical) :
    c.Holds sha r ↔ r = record := by
  rw [written]
  simp [Holds, contents, decodeAndVerify_encodeRecord sha record canonical, eq_comm]

theorem CopyState.Written.reads {record : AnchorRecord} {c : CopyState}
    (written : c.Written sha record) (canonical : record.Canonical) :
    decodeAndVerify sha c.cached = .ok record := by
  rw [written]
  exact decodeAndVerify_encodeRecord sha record canonical

/-- A disk that holds one record is sound for whatever allows that record. -/
theorem Written.sound {record : AnchorRecord} {d : Disk} (written : Written sha record d)
    (canonical : record.Canonical) (allowed : ∀ copy, p copy record) : Sound sha p d where
  within copy r holds := by
    rw [((written copy).holds canonical).mp holds]
    exact allowed copy
  newest copy r reads older holds := by
    rw [(written copy).reads canonical] at reads
    cases reads
    rw [((written copy).holds canonical).mp holds]
    exact .refl _

/-! ## One request -/

/-- A request that writes nothing new keeps the disk sound whatever becomes of it. -/
theorem wp_ask {op : MediaOp} {post : MediaReply op → Disk → Prop} {d : Disk}
    (sound : Sound sha p d) (allows : Allows sha p op) (advances : Advances sha d op)
    (done : post (reply book d op) (d.partly op (.whole : Effect sha)))
    (failed : ∀ error effect, Sound sha p (d.partly op effect) →
      post (failure error op) (d.partly op (effect : Effect sha))) :
    (ask op).wp (media sha book) post (Sound sha p) d := by
  intro fate
  cases fate with
  | ok => exact done
  | fail error effect => exact failed error effect (sound.partly allows advances effect)
  | crash effect loss => exact (sound.partly allows advances effect).lose loss

theorem allows_of_not_write {op : MediaOp} (reads : ∀ copy bytes, op ≠ .write copy bytes) :
    Allows sha p op :=
  fun copy bytes _ writes => absurd writes (reads copy bytes)

theorem advances_of_not_write {op : MediaOp} {d : Disk}
    (reads : ∀ copy bytes, op ≠ .write copy bytes) : Advances sha d op :=
  fun copy bytes _ writes => absurd writes (reads copy bytes)

theorem wp_boundary {point : Boundary} {post : Except MediaError Unit → Disk → Prop} {d : Disk}
    (sound : Sound sha p d) (done : post (.ok ()) d) (failed : ∀ error, post (.error error) d) :
    (boundary point).run.wp (media sha book) post (Sound sha p) d :=
  wp_ask sound (allows_of_not_write nofun) (advances_of_not_write nofun) done fun error _ _ => failed error

theorem wp_read {copy : AnchorCopy} {post : Except MediaError Bytes → Disk → Prop} {d : Disk}
    (sound : Sound sha p d) (done : post (.ok (d.get copy).cached) d)
    (failed : ∀ error, post (.error error) d) :
    (read copy).run.wp (media sha book) post (Sound sha p) d :=
  wp_ask sound (allows_of_not_write nofun) (advances_of_not_write nofun) done fun error _ _ => failed error

theorem wp_segment {index : SegmentIndex} {post : Except MediaError Segment → Disk → Prop}
    {d : Disk} (sound : Sound sha p d)
    (done : index.get < book.segmentCount → post (.ok (book.body index)) d)
    (failed : ∀ error, post (.error error) d) :
    (segment index).run.wp (media sha book) post (Sound sha p) d := by
  refine wp_ask sound (allows_of_not_write nofun) (advances_of_not_write nofun) ?_ fun error _ _ => failed error
  change post (reply book d (.segment index)) d
  by_cases inside : index.get < book.segmentCount
  · rw [reply, if_pos inside]
    exact done inside
  · rw [reply, if_neg inside]
    exact failed .io

/-- A write of a record that is allowed in that copy and newer than all it holds. -/
theorem wp_write {copy : AnchorCopy} {record : AnchorRecord}
    {post : Except MediaError Unit → Disk → Prop} {d : Disk} (sound : Sound sha p d)
    (canonical : record.Canonical) (allowed : p copy record)
    (newer : ∀ older, (d.get copy).Holds sha older → older.LeadsTo record)
    (done : ∀ d', d' = d.set copy ((d.get copy).write (encodeRecord sha record)) →
      Sound sha p d' → post (.ok ()) d')
    (failed : ∀ error d', Sound sha p d' → post (.error error) d') :
    (write copy (encodeRecord sha record)).run.wp (media sha book) post (Sound sha p) d := by
  have allows : Allows sha p (.write copy (encodeRecord sha record)) := by
    rintro _ _ r ⟨⟩ reads
    rw [decodeAndVerify_encodeRecord sha record canonical] at reads
    cases reads
    exact allowed
  have advances : Advances sha d (.write copy (encodeRecord sha record)) := by
    rintro _ _ r ⟨⟩ reads
    rw [decodeAndVerify_encodeRecord sha record canonical] at reads
    cases reads
    exact newer
  exact wp_ask sound allows advances (done _ rfl (sound.partly allows advances .whole))
    fun error effect sound => failed error _ sound

theorem wp_sync {copy : AnchorCopy} {post : Except MediaError Unit → Disk → Prop} {d : Disk}
    (sound : Sound sha p d)
    (done : ∀ d', d' = d.set copy (d.get copy).sync → Sound sha p d' → post (.ok ()) d')
    (failed : ∀ error d', Sound sha p d' → post (.error error) d') :
    (sync copy).run.wp (media sha book) post (Sound sha p) d := by
  have allows : Allows sha p (.sync copy) := allows_of_not_write nofun
  have advances : Advances sha d (.sync copy) := advances_of_not_write nofun
  exact wp_ask sound allows advances (done _ rfl (sound.partly allows advances .whole))
    fun error _ sound => failed error _ sound

/-! ## Persisting -/

theorem CopyState.written_sync_write (c : CopyState) (record : AnchorRecord) :
    (c.write (encodeRecord sha record)).sync.Written sha record := rfl

/-- A copy that was persisted holds the record alone; the other copy is untouched. -/
theorem wp_persistCopy {record : AnchorRecord} {at_ : Points} {copy : AnchorCopy} {d : Disk}
    (sound : Sound sha p d) (canonical : record.Canonical) (allowed : p copy record)
    (newer : ∀ older, (d.get copy).Holds sha older → older.LeadsTo record) :
    (persistCopy sha record at_ copy).run.wp (media sha book)
      (fun r d' => Sound sha p d' ∧ (r = .ok () → (d'.get copy).Written sha record ∧
        ∀ other, other ≠ copy → d'.get other = d.get other))
      (Sound sha p) d := by
  unfold persistCopy
  rw [wp_except_bind]
  refine wp_boundary sound ?_ fun _ => ⟨sound, nofun⟩
  rw [wp_except_bind]
  refine wp_write sound canonical allowed newer ?_ fun _ _ sound => ⟨sound, nofun⟩
  intro written writes sound
  rw [wp_except_bind]
  refine wp_boundary sound ?_ fun _ => ⟨sound, nofun⟩
  rw [wp_except_bind]
  refine wp_boundary sound ?_ fun _ => ⟨sound, nofun⟩
  rw [wp_except_bind]
  refine wp_sync sound ?_ fun _ _ sound => ⟨sound, nofun⟩
  intro synced syncs sound
  refine wp_boundary sound ⟨sound, fun _ => ⟨?_, fun other ne => ?_⟩⟩ fun _ => ⟨sound, nofun⟩
  · rw [syncs, writes, Disk.get_set_same, Disk.get_set_same]
    exact CopyState.written_sync_write ..
  · rw [syncs, Disk.get_set_ne _ _ ne, writes, Disk.get_set_ne _ _ ne]

theorem wp_persistPair {record : AnchorRecord} {intent : Bool} {d : Disk}
    (sound : Sound sha p d) (canonical : record.Canonical) (allowed : ∀ copy, p copy record)
    (newer : ∀ copy older, (d.get copy).Holds sha older → older.LeadsTo record) :
    (persistPair sha record intent).run.wp (media sha book)
      (fun r d' => Sound sha p d' ∧ (r = .ok () → Written sha record d')) (Sound sha p) d := by
  unfold persistPair
  rw [wp_except_bind]
  refine wp_mono (wp_persistCopy sound canonical (allowed .a) (newer .a)) ?_ fun _ crashed => crashed
  rintro (e | ⟨⟩) first ⟨sound, done⟩
  · exact ⟨sound, nofun⟩
  obtain ⟨writtenA, same⟩ := done rfl
  have newerB : ∀ older, (first.get .b).Holds sha older → older.LeadsTo record := by
    rw [same .b (by decide)]
    exact newer .b
  refine wp_mono (wp_persistCopy sound canonical (allowed .b) newerB) ?_ fun _ crashed => crashed
  rintro r second ⟨sound, done⟩
  refine ⟨sound, fun ok copy => ?_⟩
  obtain ⟨writtenB, same⟩ := done ok
  cases copy with
  | a =>
      rw [same .a (by decide)]
      exact writtenA
  | b => exact writtenB

/-! ## Reading -/

theorem wp_readRecord {copy : AnchorCopy} {post : Except IssueError AnchorRecord → Disk → Prop}
    {d : Disk} (sound : Sound sha p d)
    (done : ∀ r, decodeAndVerify sha (d.get copy).cached = .ok r → post (.ok r) d)
    (failed : post (.error .anchorCorrupt) d) :
    (readRecord sha copy).run.wp (media sha book) post (Sound sha p) d := by
  unfold readRecord
  rw [wp_except_bind, wp_failWith]
  refine wp_read sound ?_ fun _ => failed
  dsimp only
  cases reads : decodeAndVerify sha (d.get copy).cached with
  | error e => exact failed
  | ok r => exact done r reads

/-- The bodies of `remaining` segments from `base + i` on, concatenated. -/
def flatBodies (book : BookFile) (base : SegmentIndex) : (remaining : Nat) → (i : UInt64) → Bytes
  | 0, _ => []
  | remaining + 1, i => (book.body ⟨base.get + i⟩).val ++ flatBodies book base remaining (i + 1)

theorem wp_readBodies {base : SegmentIndex} {remaining : Nat} {i : UInt64} {bytes : Bytes}
    {d : Disk} (sound : Sound sha p d) :
    (TransactionCore.readBodies base remaining i bytes).run.wp (media sha book)
      (fun r d' => d' = d ∧ (r = .error .io ∨ r = .ok (bytes ++ flatBodies book base remaining i)))
      (Sound sha p) d := by
  induction remaining generalizing i bytes with
  | zero => exact ⟨rfl, .inr (by simp [flatBodies])⟩
  | succ remaining ih =>
      rw [TransactionCore.readBodies, wp_except_bind, wp_failWith]
      refine wp_segment sound (fun _ => ?_) fun _ => ⟨rfl, .inl rfl⟩
      refine wp_mono ih ?_ fun _ crashed => crashed
      rintro r d' ⟨same, result⟩
      refine ⟨same, result.imp_right fun ok => ?_⟩
      rw [ok, flatBodies, List.append_assoc]

/-! ## With nothing failing -/

section Requests

variable {crash : Disk → Prop} {d : Disk}

theorem calm_boundary {point : Boundary} {post : Except MediaError Unit → Disk → Prop}
    (done : post (.ok ()) d) :
    (boundary point).run.wp (calm (media sha book)) post crash d := fun _ => done

theorem calm_read {copy : AnchorCopy} {post : Except MediaError Bytes → Disk → Prop}
    (done : post (.ok (d.get copy).cached) d) :
    (read copy).run.wp (calm (media sha book)) post crash d := fun _ => done

theorem calm_write {copy : AnchorCopy} {bytes : Bytes}
    {post : Except MediaError Unit → Disk → Prop}
    (done : post (.ok ()) (d.set copy ((d.get copy).write bytes))) :
    (write copy bytes).run.wp (calm (media sha book)) post crash d := fun _ => done

theorem calm_sync {copy : AnchorCopy} {post : Except MediaError Unit → Disk → Prop}
    (done : post (.ok ()) (d.set copy (d.get copy).sync)) :
    (sync copy).run.wp (calm (media sha book)) post crash d := fun _ => done

theorem calm_segment {index : SegmentIndex} {post : Except MediaError Segment → Disk → Prop}
    (inside : index.get < book.segmentCount) (done : post (.ok (book.body index)) d) :
    (segment index).run.wp (calm (media sha book)) post crash d := by
  intro fate
  change post (reply book d (.segment index)) d
  rw [reply, if_pos inside]
  exact done

end Requests

theorem calm_persistCopy {record : AnchorRecord} {at_ : Points} {copy : AnchorCopy}
    {crash : Disk → Prop} {d : Disk} :
    (persistCopy sha record at_ copy).run.wp (calm (media sha book)) (fun r _ => r = .ok ())
      crash d := by
  unfold persistCopy
  rw [wp_except_bind]
  refine calm_boundary ?_
  rw [wp_except_bind]
  refine calm_write ?_
  rw [wp_except_bind]
  refine calm_boundary ?_
  rw [wp_except_bind]
  refine calm_boundary ?_
  rw [wp_except_bind]
  refine calm_sync ?_
  exact calm_boundary rfl

theorem calm_persistPair {record : AnchorRecord} {intent : Bool} {crash : Disk → Prop} {d : Disk} :
    (persistPair sha record intent).run.wp (calm (media sha book)) (fun r _ => r = .ok ())
      crash d := by
  unfold persistPair
  rw [wp_except_bind]
  refine wp_mono calm_persistCopy ?_ fun _ crashed => crashed
  rintro _ _ rfl
  exact calm_persistCopy

theorem calm_readRecord {copy : AnchorCopy} {r : AnchorRecord} {crash : Disk → Prop}
    {post : Except IssueError AnchorRecord → Disk → Prop} {d : Disk}
    (reads : decodeAndVerify sha (d.get copy).cached = .ok r) (done : post (.ok r) d) :
    (readRecord sha copy).run.wp (calm (media sha book)) post crash d := by
  unfold readRecord
  rw [wp_except_bind, wp_failWith]
  refine calm_read ?_
  simp only [reads]
  exact done

/-- Every segment of the range lies in the book. -/
theorem calm_readBodies {base : SegmentIndex} {remaining : Nat} {i : UInt64} {bytes : Bytes}
    {crash : Disk → Prop} {d : Disk}
    (inside : base.get.toNat + i.toNat + remaining ≤ book.segmentCount.toNat) :
    (TransactionCore.readBodies base remaining i bytes).run.wp (calm (media sha book))
      (fun r _ => r = .ok (bytes ++ flatBodies book base remaining i)) crash d := by
  induction remaining generalizing i bytes with
  | zero => exact congrArg Except.ok (List.append_nil bytes).symm
  | succ remaining ih =>
      have := book.segmentCount.toNat_lt
      have here : (base.get + i).toNat = base.get.toNat + i.toNat := by
        rw [UInt64.toNat_add, Nat.mod_eq_of_lt (by omega)]
      have after : (i + 1).toNat = i.toNat + 1 := by
        rw [UInt64.toNat_add, Nat.mod_eq_of_lt (by simp only [UInt64.reduceToNat]; omega)]
        rfl
      have inBook : base.get + i < book.segmentCount := by
        rw [UInt64.lt_iff_toNat_lt, here]
        omega
      rw [TransactionCore.readBodies, wp_except_bind, wp_failWith]
      refine calm_segment inBook ?_
      refine wp_mono (ih (by omega)) ?_ fun _ crashed => crashed
      rintro _ _ rfl
      rw [flatBodies, List.append_assoc]

end Specifications

end Jbuu.Allocator
