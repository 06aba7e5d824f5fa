/-
# Anchor.Laws — the record format is canonical and adoption is lawful

The other half of the round trip of `Anchor.Record`: bytes that are read back are the
encoding of what they were read as. And the order in which copies are adopted: `state_cmp`
is a total preorder, `decide` does not care which copy is called A, and what it adopts is
below neither copy.
-/
import Jbuu.Anchor.Record

namespace Jbuu

set_option autoImplicit false

open Jbuu.Library.BigEndian (Bytes)

/-! ## Bytes that are read back -/

/-- Bytes none of which is other than zero. -/
theorem eq_zeros {bytes : Bytes} (clean : ¬bytes.any (· ≠ 0)) :
    bytes = List.replicate bytes.length 0 := by
  refine List.eq_replicate_iff.mpr ⟨rfl, ?_⟩
  intro b mem
  by_contra other
  exact clean (List.any_eq_true.mpr ⟨b, mem, by simpa using other⟩)

/-- The type and the payload field are those of the payload read. -/
theorem decodePayload_reads {buf : Bytes} {generation next : UInt64} {payload : AnchorPayload}
    (len : buf.length = 104) (reads : decodePayload buf generation next = .ok payload) :
    byteAt buf 6 = payload.tag ∧ slice buf 40 72 = payload.bytes := by
  unfold decodePayload at reads
  by_cases init : byteAt buf 6 = 0
  · rw [if_pos init] at reads
    split at reads
    · cases reads
    · rename_i clean
      obtain rfl := Except.ok.inj reads
      have zeros := eq_zeros (fun some => clean (.inr (.inr some)))
      rw [length_slice (by omega)] at zeros
      exact ⟨init, zeros⟩
  rw [if_neg init] at reads
  by_cases intent : byteAt buf 6 = 1
  · rw [if_pos intent] at reads
    split at reads
    · cases reads
    · rename_i clean
      split at reads
      · cases reads
      · obtain rfl := Except.ok.inj reads
        have zeros := eq_zeros (fun some => clean (.inr some))
        rw [length_slice (by omega)] at zeros
        refine ⟨intent, ?_⟩
        rw [AnchorPayload.bytes, u64Bytes_u64Of (length_slice (by omega)), ← zeros,
          slice_append_slice (by omega) (by omega)]
  rw [if_neg intent] at reads
  split at reads
  · rename_i commit
    split at reads
    · cases reads
    · obtain rfl := Except.ok.inj reads
      refine ⟨commit, ?_⟩
      have field : (slice buf 40 72).length = 32 := length_slice (by omega)
      rw [AnchorPayload.bytes, sliceExactly_eq ⟨slice buf 40 72, field⟩ rfl]
  · cases reads

/-- **Bytes that are read back are the encoding of what they were read as.** -/
theorem encodeRecord_decodeAndVerify {sha : Bytes → Digest} {buf : Bytes} {r : AnchorRecord}
    (reads : decodeAndVerify sha buf = .ok r) : encodeRecord sha r = buf := by
  unfold decodeAndVerify at reads
  split at reads
  · cases reads
  rename_i length
  split at reads
  · cases reads
  rename_i magic_
  split at reads
  · cases reads
  rename_i version_
  split at reads
  · cases reads
  rename_i flags
  split at reads
  · cases reads
  rename_i integrity
  simp only [not_not, anchorRecordLen, prefixLen] at length magic_ version_ flags integrity
  dsimp only at reads
  split at reads
  · cases reads
  rename_i payload read
  obtain rfl := Except.ok.inj reads
  obtain ⟨tag, bytes⟩ := decodePayload_reads length read
  have id : (sliceExactly 16 buf 8).val = slice buf 8 24 := by
    have field : (slice buf 8 24).length = 16 := length_slice (by omega)
    rw [sliceExactly_eq ⟨slice buf 8 24, field⟩ rfl]
  have type : slice buf 6 7 = [payload.tag] := by rw [slice_one (by omega), tag]
  have flag : slice buf 7 8 = [0] := by rw [slice_one (by omega), flags]
  have kind : slice buf 6 72 = payload.tag :: 0 :: slice buf 8 72 := by
    rw [← slice_append_slice (show 6 ≤ 7 by omega) (show 7 ≤ 72 by omega),
      ← slice_append_slice (show 7 ≤ 8 by omega) (show 8 ≤ 72 by omega), type, flag]
    rfl
  -- field by field, from the back to the front
  have fields : recordPrefix ⟨⟨sliceExactly 16 buf 8⟩, ⟨u64Of (slice buf 32 40)⟩,
      ⟨u64Of (slice buf 24 32)⟩, payload⟩ = slice buf 0 72 := by
    simp only [recordPrefix]
    rw [← bytes, u64Bytes_u64Of (length_slice (by omega)), u64Bytes_u64Of (length_slice (by omega)),
      id, slice_append_slice (by omega) (by omega), slice_append_slice (by omega) (by omega),
      slice_append_slice (by omega) (by omega), ← kind, ← version_,
      u16Bytes_u16Of (length_slice (by omega)), slice_append_slice (by omega) (by omega), ← magic_,
      slice_append_slice (by omega) (by omega)]
  rw [encodeRecord, fields, integrity, slice_append_slice (by omega) (by omega), slice,
    List.drop_zero, List.take_of_length_le (by omega)]

/-! ## The order of adoption -/

namespace AnchorRecord

theorem stateCmp_swap (a b : AnchorRecord) : (a.stateCmp b).swap = b.stateCmp a := by
  cases order : a.stateCmp b with
  | lt => exact (stateCmp_eq_gt.mpr (stateCmp_eq_lt.mp order)).symm
  | gt => exact (stateCmp_eq_lt.mpr (stateCmp_eq_gt.mp order)).symm
  | eq =>
      obtain ⟨generation, tag⟩ := stateCmp_eq_eq.mp order
      exact (stateCmp_eq_eq.mpr ⟨generation.symm, tag.symm⟩).symm

theorem stateCmp_isLE {a b : AnchorRecord} :
    (a.stateCmp b).isLE = true ↔ a.Before b ∨ a.Level b := by
  rw [Ordering.isLE_iff_eq_lt_or_eq_eq, stateCmp_eq_lt, stateCmp_eq_eq]

theorem stateCmp_trans {a b c : AnchorRecord} (ab : (a.stateCmp b).isLE = true)
    (bc : (b.stateCmp c).isLE = true) : (a.stateCmp c).isLE = true := by
  rw [stateCmp_isLE] at ab bc ⊢
  simp only [Before, Level, generation_eq_iff, ← UInt8.toNat_inj] at ab bc ⊢
  omega

theorem stateCmp_total (a b : AnchorRecord) :
    (a.stateCmp b).isLE = true ∨ (b.stateCmp a).isLE = true := by
  rw [stateCmp_isLE, stateCmp_isLE]
  simp only [Before, Level, generation_eq_iff, ← UInt8.toNat_inj]
  omega

end AnchorRecord

/-- The reason `decide` gives for a copy it could not read. -/
def invalidReason : AnchorCopy → String
  | .a => "anchor-a-invalid"
  | .b => "anchor-b-invalid"

/-- The same decision with the names of the copies exchanged. -/
def RecoveryDecision.exchange : RecoveryDecision → RecoveryDecision
  | .adoptHigher adopted stale => .adoptHigher adopted stale.other
  | .quarantineCorrupt copy _ => .quarantineCorrupt copy.other (invalidReason copy.other)
  | decision => decision

theorem decideReadable_exchange (a b : AnchorRecord) :
    decideReadable b a = (decideReadable a b).exchange := by
  unfold decideReadable
  by_cases book : a.bookId = b.bookId
  · rw [if_neg (not_not.mpr book), if_neg (not_not.mpr book.symm), ← a.stateCmp_swap b]
    cases order : a.stateCmp b with
    | eq =>
        by_cases same : a = b
        · simp [same, RecoveryDecision.exchange]
        · simp [same, eq_comm, RecoveryDecision.exchange]
    | gt => by_cases le : b.next.get ≤ a.next.get <;> simp [le, RecoveryDecision.exchange, AnchorCopy.other]
    | lt => by_cases le : a.next.get ≤ b.next.get <;> simp [le, RecoveryDecision.exchange, AnchorCopy.other]
  · rw [if_pos book, if_pos (Ne.symm book)]
    rfl

/-- **Which copy is called A does not matter.** -/
theorem decide_exchange (x y : Except ReadFailure AnchorRecord) :
    decide y x = (decide x y).exchange := by
  rcases x with e | a
  · rcases y with e' | b
    · cases e <;> cases e' <;> rfl
    · cases e <;> rfl
  · rcases y with e' | b
    · cases e' <;> rfl
    · exact decideReadable_exchange a b

/-- What is settled on is below neither copy. -/
theorem Settles.highest {a b r : AnchorRecord} {stale : Option AnchorCopy}
    (settles : Settles a b r stale) : (r = a ∨ r = b) ∧ ∀ c, c = a ∨ c = b →
      c.next.get ≤ r.next.get ∧ (c.stateCmp r).isLE = true := by
  cases settles with
  | level same =>
      refine ⟨.inr rfl, ?_⟩
      rintro c (rfl | rfl)
      · subst same
        exact ⟨UInt64.le_refl _, AnchorRecord.stateCmp_isLE.mpr (.inr ⟨rfl, rfl⟩)⟩
      · exact ⟨UInt64.le_refl _, AnchorRecord.stateCmp_isLE.mpr (.inr ⟨rfl, rfl⟩)⟩
  | behind before le =>
      refine ⟨.inr rfl, ?_⟩
      rintro c (rfl | rfl)
      · exact ⟨le, AnchorRecord.stateCmp_isLE.mpr (.inl before)⟩
      · exact ⟨UInt64.le_refl _, AnchorRecord.stateCmp_isLE.mpr (.inr ⟨rfl, rfl⟩)⟩
  | ahead before le =>
      refine ⟨.inl rfl, ?_⟩
      rintro c (rfl | rfl)
      · exact ⟨UInt64.le_refl _, AnchorRecord.stateCmp_isLE.mpr (.inr ⟨rfl, rfl⟩)⟩
      · exact ⟨le, AnchorRecord.stateCmp_isLE.mpr (.inl before)⟩

/-- **The record codec is canonical and the order of adoption lawful.** Canonical records
and the byte strings that verify correspond; `state_cmp` is a total preorder, the same seen
from either side; `decide` on exchanged copies is the decision with the copies exchanged;
and a record is adopted only from two readable copies of one book, is one of the two, and
has neither a pointer nor a place in the order below the other. -/
theorem anchor_records_are_lawful (sha : Bytes → Digest) :
    (∀ r : AnchorRecord, r.Canonical → decodeAndVerify sha (encodeRecord sha r) = .ok r) ∧
    (∀ buf r, decodeAndVerify sha buf = .ok r → encodeRecord sha r = buf) ∧
    (∀ a b : AnchorRecord, (a.stateCmp b).swap = b.stateCmp a) ∧
    (∀ a b : AnchorRecord, (a.stateCmp b).isLE = true ∨ (b.stateCmp a).isLE = true) ∧
    (∀ a b c : AnchorRecord, (a.stateCmp b).isLE = true → (b.stateCmp c).isLE = true →
      (a.stateCmp c).isLE = true) ∧
    (∀ x y, decide y x = (decide x y).exchange) ∧
    ∀ x y r stale, (decide x y).settled = some (r, stale) →
      ∃ a b, x = .ok a ∧ y = .ok b ∧ a.bookId = b.bookId ∧ (r = a ∨ r = b) ∧
        ∀ c, c = a ∨ c = b → c.next.get ≤ r.next.get ∧ (c.stateCmp r).isLE = true := by
  refine ⟨?_, ?_, AnchorRecord.stateCmp_swap, AnchorRecord.stateCmp_total, ?_, decide_exchange, ?_⟩
  · intro r canonical
    exact decodeAndVerify_encodeRecord sha r canonical
  · intro buf r reads
    exact encodeRecord_decodeAndVerify reads
  · intro a b c ab bc
    exact AnchorRecord.stateCmp_trans ab bc
  · intro x y r stale settled
    obtain ⟨a, b, readA, readB, book, settles⟩ := settled_decide_iff.mp settled
    exact ⟨a, b, readA, readB, book, settles.highest⟩

end Jbuu
