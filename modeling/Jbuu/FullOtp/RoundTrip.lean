/-
# FullOtp.RoundTrip — opening a record follows sealing it

A receiver whose stream equals the sender's opens what the sender sealed and is left with
the sender's stream, cursor and bytes (`sealed_opens`). A refused frame moves no cursor, and
of the pad it costs at most the key: with a failed tag the 32 bytes at the cursor read zero
and no other byte has changed (`refused_cases`, `byteAt_burn`).
-/
import Jbuu.FullOtp.Exchange

namespace Jbuu.FullOtp

set_option autoImplicit false

open Jbuu.Library.BigEndian (Bytes Exactly)
open Jbuu.Library

/-! ## The bytes of a burned buffer -/

/-- What is burned reads zero, and every other byte as before. -/
theorem byteAt_burn {buf : Exactly 4096} {start n i : Nat} (fits : start + n ≤ 4096) :
    byteAt (burn buf start n).val i =
      if start ≤ i ∧ i < start + n then 0 else byteAt buf.val i := by
  have long_ : buf.val.length = 4096 := buf.length_val
  have all : min n (4096 - start) = n := by omega
  have front : (buf.val.take start).length = start := by
    rw [List.length_take]
    omega
  simp only [byteAt, burn, all, List.getD_eq_getElem?_getD]
  rcases Nat.lt_or_ge i start with before | from_
  · rw [List.getElem?_append_left (by omega), List.getElem?_take_of_lt before, if_neg (by omega)]
  rw [List.getElem?_append_right (by omega), front]
  rcases Nat.lt_or_ge i (start + n) with within | after
  · rw [List.getElem?_append_left (by simp; omega), List.getElem?_replicate, if_pos (by omega),
      if_pos ⟨from_, within⟩]
    rfl
  · rw [List.getElem?_append_right (by simp; omega), List.length_replicate, List.getElem?_drop,
      if_neg (by omega)]
    congr 2
    omega

/-! ## Sealed, encoded and opened -/

section Mac

variable {mac : MacKey → Bytes → Tag} {s : PadStream}

/-- A stream like the sender's opens a sealed record and ends where the sender's did. -/
theorem sealed_opens {direction : Direction} {recordSeq : UInt64} {plaintext : Bytes}
    {record : OtpDataRecord}
    (seals : (sealRecord mac s direction recordSeq plaintext).1 = .ok record) :
    openRecord mac s ⟨direction, s.bundleId, s.baseSegment, recordSeq⟩ record.encode =
      (.ok plaintext, (sealRecord mac s direction recordSeq plaintext).2) := by
  rcases sealRecord_cases mac direction recordSeq plaintext with
    ⟨-, refused⟩ | ⟨room, record', some_, -, made, sealed⟩
  · rw [refused] at seals
    nomatch seals
  · have filled : plaintext ≠ [] := by
      intro empty
      exact some_ (by rw [empty]; rfl)
    rw [sealed] at seals ⊢
    obtain rfl := Except.ok.inj seals
    rw [made, openRecord_sealWith mac direction recordSeq room filled]

/-- A frame is refused before its key is taken, or for its tag. -/
theorem refused_cases {expect : OpenExpectation} {frame : Bytes} {e : OtpError}
    (refused : (openRecord mac s expect frame).1 = .error e) :
    (e ≠ .tag ∧ (openRecord mac s expect frame).2.1 = s) ∨
    (e = .tag ∧ s.Fits 0 ∧ (openRecord mac s expect frame).2.1 =
      { s with buf := burn s.buf s.cursor macKeyLen }) := by
  have before : ∀ {e' : OtpError}, e' ≠ .tag →
      ((.error e', s, []) : Except OtpError Bytes × PadStream × List Use).1 = .error e →
      e ≠ .tag ∧ s = s := by
    intro e' other same
    obtain rfl := Except.error.inj same
    exact ⟨other, rfl⟩
  revert refused
  unfold openRecord
  split
  · exact fun same => .inl (before (by rintro ⟨⟩) same)
  split
  · exact fun same => .inl (before (by rintro ⟨⟩) same)
  split
  · exact fun same => .inl (before (by rintro ⟨⟩) same)
  split
  · exact fun same => .inl (before (by rintro ⟨⟩) same)
  split
  · exact fun same => .inl (before (by rintro ⟨⟩) same)
  split
  · exact fun same => .inl (before (by rintro ⟨⟩) same)
  split
  · rename_i room
    unfold openWith
    dsimp only
    split
    · intro same
      exact .inr ⟨(Except.error.inj same).symm, room.zero, rfl⟩
    · rintro ⟨⟩
  · exact fun same => .inl (before (by rintro ⟨⟩) same)

end Mac

/-- **Opening a record simulates sealing it.** Where a plaintext was sealed, a stream that
equals the sender's opens the encoded record to that plaintext and ends equal to the
sender's; and a frame that is refused leaves the cursor, and every pad byte too, but that a
failed tag has zeroed the 32 bytes of the key. -/
theorem open_simulates_seal (mac : MacKey → Bytes → Tag) (s : PadStream) :
    (∀ direction recordSeq plaintext record,
      (sealRecord mac s direction recordSeq plaintext).1 = .ok record →
        (openRecord mac s ⟨direction, s.bundleId, s.baseSegment, recordSeq⟩ record.encode).1 =
          .ok plaintext ∧
        (openRecord mac s ⟨direction, s.bundleId, s.baseSegment, recordSeq⟩ record.encode).2.1 =
          (sealRecord mac s direction recordSeq plaintext).2.1) ∧
    ∀ expect frame e, (openRecord mac s expect frame).1 = .error e →
      (openRecord mac s expect frame).2.1.cursor = s.cursor ∧
      (e ≠ .tag → (openRecord mac s expect frame).2.1.buf = s.buf) ∧
      (e = .tag → s.cursor + 32 ≤ 4096 ∧
        ∀ i, i < 4096 → byteAt (openRecord mac s expect frame).2.1.buf.val i =
          if s.cursor ≤ i ∧ i < s.cursor + 32 then 0 else byteAt s.buf.val i) := by
  constructor
  · intro direction recordSeq plaintext record seals
    rw [sealed_opens seals]
    exact ⟨rfl, rfl⟩
  · intro expect frame e refused
    rcases refused_cases refused with ⟨other, same⟩ | ⟨rfl, room, burned⟩
    · rw [same]
      exact ⟨rfl, fun _ => rfl, fun tag => absurd tag other⟩
    · have bound : s.cursor + 32 ≤ 4096 := room.bound
      rw [burned]
      refine ⟨rfl, fun other => absurd rfl other, fun _ => ⟨bound, ?_⟩⟩
      intro i inside
      exact byteAt_burn bound

end Jbuu.FullOtp
