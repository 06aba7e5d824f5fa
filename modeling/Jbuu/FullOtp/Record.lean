/-
# FullOtp.Record — sealing and opening one OTP_DATA record

`otp-fullotp/src/record.rs`. A record is sealed with a one-time key and an XOR pad cut
from the front of the stream; the receiver repeats the checks in the order of the design
(format, direction, bundle, sequence, offset, tag) and hands out the plaintext only once
the tag is right. Poly1305 with a one-time key is the parameter `mac`.

`took_sealRecord` and `took_openRecord` say what either does to its stream, whatever comes
in; `openWith_sealWith` says that a stream that equals the sender's opens what was sealed
and ends where the sender did.
-/
import Jbuu.FullOtp.Pad

namespace Jbuu.FullOtp

set_option autoImplicit false

open Jbuu.Library.BigEndian (Bytes Exactly)
open Jbuu.Library

/-- `DOMAIN_SEPARATOR`. -/
def domainSeparator : Bytes := ascii "otp-term/full-otp/data/v1"

/-- `mac_input`. -/
def macInput (header ciphertext : Bytes) : Bytes :=
  domainSeparator ++ (u16Bytes (.ofNat domainSeparator.length) ++ (header ++ ciphertext))

/-- `ct_eq_16`: no difference in any byte. -/
def ctEq16 (a b : Tag) : Bool := (List.zipWith (· ^^^ ·) a.val b.val).foldl (· ||| ·) 0 = 0

/-- What one record took from the pads: its one-time key, and its XOR pad, empty where the
tag failed. -/
structure Use where
  direction : Direction
  key : Span
  pad : Span
  deriving DecidableEq, Repr

/-- What the receiver expects of a record. -/
structure OpenExpectation where
  direction : Direction
  bundleId : UInt64
  baseSegment : UInt64
  recordSeq : UInt64
  deriving DecidableEq, Repr

section Mac

variable (mac : MacKey → Bytes → Tag)

/-- `seal_record` for a plaintext that fits. -/
def sealWith (s : PadStream) (direction : Direction) (recordSeq : UInt64) (plaintext : Bytes)
    (room : s.Fits plaintext.length) : OtpDataRecord × PadStream × Use :=
  let padOffset : UInt16 := .ofNat (min s.consumed 65535)
  let key := s.takeMacKey room.zero
  let pad := key.rest.xorBurnPad plaintext room
  let header := canonicalHeader direction s.bundleId s.baseSegment recordSeq padOffset plaintext.length
  ({ direction, bundleId := s.bundleId, baseSegment := s.baseSegment, recordSeq, padOffset
     ciphertext := pad.value, tag := mac key.value (macInput header pad.value) },
    pad.rest.advance plaintext.length room, { direction, key := key.span, pad := pad.span })

def sealRecord (s : PadStream) (direction : Direction) (recordSeq : UInt64) (plaintext : Bytes) :
    Except OtpError OtpDataRecord × PadStream × List Use :=
  if plaintext.length = 0 then (.error .doesNotFit, s, [])
  else if room : s.Fits plaintext.length then
    let sealed := sealWith mac s direction recordSeq plaintext room
    (.ok sealed.1, sealed.2.1, [sealed.2.2])
  else (.error .doesNotFit, s, [])

/-- `open_record` once the fields are as expected and the record fits. -/
def openWith (s : PadStream) (r : OtpDataRecord) (room : s.Fits r.ciphertext.length) :
    Except OtpError Bytes × PadStream × Use :=
  let key := s.takeMacKey room.zero
  let computed := mac key.value (macInput r.header r.ciphertext)
  if ctEq16 computed r.tag = false then
    (.error .tag, key.rest, { direction := r.direction, key := key.span, pad := .empty })
  else
    let pad := key.rest.xorBurnPad r.ciphertext room
    (.ok pad.value, pad.rest.advance r.ciphertext.length room,
      { direction := r.direction, key := key.span, pad := pad.span })

def openRecord (s : PadStream) (expect : OpenExpectation) (frame : Bytes) :
    Except OtpError Bytes × PadStream × List Use :=
  match decode frame with
  | .error e => (.error (.wire e), s, [])
  | .ok r =>
      if r.direction ≠ expect.direction then (.error .direction, s, [])
      else if r.bundleId ≠ expect.bundleId ∨ r.baseSegment ≠ expect.baseSegment then
        (.error .bundle, s, [])
      else if r.recordSeq < expect.recordSeq then (.error .replay, s, [])
      else if expect.recordSeq < r.recordSeq then (.error .gap, s, [])
      else if r.padOffset.toNat ≠ s.consumed then (.error .offset, s, [])
      else if room : s.Fits r.ciphertext.length then
        let opened := openWith mac s r room
        (opened.1, opened.2.1, [opened.2.2])
      else (.error .offset, s, [])

end Mac

/-! ## What a record does to its stream -/

/-- The bytes that were taken, by address. -/
def Use.spent (u : Use) : Multiset Nat := u.key.addresses + u.pad.addresses

def spent (uses : List Use) : Multiset Nat := (uses.map Use.spent).sum

/-- What one record took from the stream of a direction, at most. -/
structure Takes (d : Direction) (s : PadStream) (uses : List Use) : Prop where
  moved : spent uses ≤ s.held
  within : ∀ u ∈ uses, u.direction = d ∧ u.key.Within (s.span 0 4096) ∧ u.pad.Within (s.span 0 4096)

/-- The stream that a record leaves, where the pump goes on with it. -/
structure Leaves (s s' : PadStream) (uses : List Use) : Prop where
  bundleId : s'.bundleId = s.bundleId
  baseSegment : s'.baseSegment = s.baseSegment
  moved : spent uses + s'.held ≤ s.held
  burned : s.Burned → s'.Burned

theorem spent_single (u : Use) : spent [u] = u.spent := by
  simp [spent]

theorem Takes.none (d : Direction) (s : PadStream) : Takes d s [] where
  moved := Multiset.zero_le _
  within := nofun

theorem Leaves.none (s : PadStream) : Leaves s s [] where
  bundleId := rfl
  baseSegment := rfl
  moved := by simp [spent]
  burned := id

section Streams

variable {s : PadStream} {l : Nat}

theorem PadStream.Fits.bound (room : s.Fits l) : s.cursor + (macKeyLen + l) ≤ 4096 := by
  have inside := s.inside
  simp only [PadStream.Fits, PadStream.remaining, padHalf] at room inside
  omega

/-- What a stream holds is the key, the pad, and the rest. -/
theorem PadStream.held_split (room : s.Fits l) :
    s.held = (s.span s.cursor macKeyLen).addresses +
      ((s.span (s.cursor + macKeyLen) l).addresses +
        (s.span (s.cursor + (macKeyLen + l)) (s.remaining - (macKeyLen + l))).addresses) := by
  have cut : s.remaining = macKeyLen + (l + (s.remaining - (macKeyLen + l))) := by
    unfold Fits at room
    omega
  unfold held span
  rw [cut, Span.addresses_add, Span.addresses_add, ← cut]
  simp only [Nat.add_assoc]

theorem PadStream.span_within {offset length : Nat} (fits : offset + length ≤ 4096) :
    (s.span offset length).Within (s.span 0 4096) := by
  right
  simp only [span]
  omega

/-- The stream after a record of `l` bytes. -/
def PadStream.after (s : PadStream) (l : Nat) (room : s.Fits l) : PadStream :=
  ({ s with buf := burn (burn s.buf s.cursor macKeyLen) (s.cursor + macKeyLen) l } :
    PadStream).advance l room

/-- A record that was sealed or verified took its key and its pad. -/
theorem takes_record (d : Direction) (room : s.Fits l) :
    Takes d s [⟨d, s.span s.cursor macKeyLen, s.span (s.cursor + macKeyLen) l⟩] := by
  have bound := room.bound
  constructor
  · rw [PadStream.held_split room, ← add_assoc, spent_single]
    exact Multiset.le_add_right _ _
  · intro u mem
    rw [List.mem_singleton.mp mem]
    exact ⟨rfl, PadStream.span_within (by omega), PadStream.span_within (by omega)⟩

/-- A record whose tag failed took its key. -/
theorem takes_key (d : Direction) (room : s.Fits l) :
    Takes d s [⟨d, s.span s.cursor macKeyLen, .empty⟩] := by
  have bound := room.bound
  constructor
  · rw [PadStream.held_split room, spent_single, Use.spent, Span.addresses_empty, add_zero]
    exact Multiset.le_add_right _ _
  · intro u mem
    rw [List.mem_singleton.mp mem]
    exact ⟨rfl, PadStream.span_within (by omega), .inl rfl⟩

theorem leaves_record (d : Direction) (room : s.Fits l) :
    Leaves s (s.after l room) [⟨d, s.span s.cursor macKeyLen, s.span (s.cursor + macKeyLen) l⟩] := by
  have bound := room.bound
  constructor
  · rfl
  · rfl
  · have left : (s.after l room).held =
        (s.span (s.cursor + (macKeyLen + l)) (s.remaining - (macKeyLen + l))).addresses := by
      simp only [PadStream.held, PadStream.span, PadStream.after, PadStream.advance,
        PadStream.remaining, Nat.sub_sub]
    rw [PadStream.held_split room, left, spent_single, Use.spent, add_assoc]
  · intro zero
    unfold PadStream.Burned at *
    simp only [PadStream.after, PadStream.advance, ← Nat.add_assoc]
    apply PadStream.take_burn (by omega)
    exact PadStream.take_burn (by omega) zero

end Streams

section Mac

variable {s : PadStream}

/-- What a record of `l` bytes takes from a stream. -/
def PadStream.use (s : PadStream) (d : Direction) (l : Nat) : Use :=
  ⟨d, s.span s.cursor macKeyLen, s.span (s.cursor + macKeyLen) l⟩

theorem length_xorBurnPad {dst : Bytes} (room : s.Fits dst.length) :
    (s.xorBurnPad dst room).value.length = dst.length := by
  have bound := room.bound
  simp [PadStream.xorBurnPad]
  omega

/-- A record is sealed where it is not empty and fits, and then the stream moves past it. -/
theorem sealRecord_cases (mac : MacKey → Bytes → Tag) (direction : Direction) (recordSeq : UInt64) (plaintext : Bytes) :
    ((plaintext.length = 0 ∨ ¬s.Fits plaintext.length) ∧
      sealRecord mac s direction recordSeq plaintext = (.error .doesNotFit, s, [])) ∨
    ∃ room record, plaintext.length ≠ 0 ∧ record.ciphertext.length = plaintext.length ∧
      record = (sealWith mac s direction recordSeq plaintext room).1 ∧
      sealRecord mac s direction recordSeq plaintext =
        (.ok record, s.after plaintext.length room, [s.use direction plaintext.length]) := by
  unfold sealRecord
  split
  · rename_i empty
    exact .inl ⟨.inl empty, rfl⟩
  rename_i some_
  split
  · rename_i room
    refine .inr ⟨room, _, some_, ?_, rfl, rfl⟩
    exact length_xorBurnPad (s := (s.takeMacKey room.zero).rest) room
  · rename_i small
    exact .inl ⟨.inr small, rfl⟩

/-- A frame is opened where it decodes to a record that is as expected, and then the stream
moves past it; where it is refused, at most its key is gone. -/
theorem openRecord_cases (mac : MacKey → Bytes → Tag) (expect : OpenExpectation) (frame : Bytes) :
    (∃ e, (openRecord mac s expect frame).1 = .error e ∧
      ∀ u ∈ (openRecord mac s expect frame).2.2, u.pad = .empty) ∨
    ∃ r room plaintext, decode frame = .ok r ∧ plaintext.length = r.ciphertext.length ∧
      openRecord mac s expect frame =
        (.ok plaintext, s.after r.ciphertext.length room, [s.use expect.direction r.ciphertext.length]) := by
  have idle : ∀ {e : OtpError}, ∃ e', ((.error e, s, []) : Except OtpError Bytes × PadStream × List Use).1 =
      .error e' ∧ ∀ u ∈ ([] : List Use), u.pad = .empty := fun {e} => ⟨e, rfl, nofun⟩
  unfold openRecord
  split
  · exact .inl idle
  rename_i r decoded
  split
  · exact .inl idle
  rename_i direction
  rw [not_not] at direction
  split
  · exact .inl idle
  split
  · exact .inl idle
  split
  · exact .inl idle
  split
  · exact .inl idle
  split
  · rename_i room
    unfold openWith
    dsimp only
    split
    · refine .inl ⟨.tag, rfl, ?_⟩
      intro u mem
      rw [List.mem_singleton.mp mem]
    · refine .inr ⟨r, room, _, decoded, ?_, by rw [← direction]; rfl⟩
      exact length_xorBurnPad (s := (s.takeMacKey room.zero).rest) room
  · exact .inl idle

theorem took_sealRecord (mac : MacKey → Bytes → Tag) (direction : Direction) (recordSeq : UInt64)
    (plaintext : Bytes) :
    let sealed := sealRecord mac s direction recordSeq plaintext
    Takes direction s sealed.2.2 ∧ Leaves s sealed.2.1 sealed.2.2 := by
  unfold sealRecord
  split
  · exact ⟨.none direction s, .none s⟩
  split
  · rename_i room
    exact ⟨takes_record direction room, leaves_record direction room⟩
  · exact ⟨.none direction s, .none s⟩

/-- Where a record is refused, its key may be gone; the pump does not go on. -/
theorem took_openRecord (mac : MacKey → Bytes → Tag) (expect : OpenExpectation) (frame : Bytes) :
    let opened := openRecord mac s expect frame
    Takes expect.direction s opened.2.2 ∧
      ∀ plaintext, opened.1 = .ok plaintext → Leaves s opened.2.1 opened.2.2 := by
  have idle : ∀ e : OtpError, Takes expect.direction s [] ∧ ∀ plaintext : Bytes,
      (.error e : Except OtpError Bytes) = .ok plaintext → Leaves s s [] :=
    fun e => ⟨.none expect.direction s, nofun⟩
  unfold openRecord
  split
  · exact idle _
  rename_i r _
  split
  · exact idle _
  rename_i direction
  rw [not_not] at direction
  split
  · exact idle _
  split
  · exact idle _
  split
  · exact idle _
  split
  · exact idle _
  split
  · rename_i room
    rw [← direction]
    unfold openWith
    dsimp only
    split
    · exact ⟨takes_key r.direction room, nofun⟩
    · exact ⟨takes_record r.direction room, fun _ _ => leaves_record r.direction room⟩
  · exact idle _

end Mac

end Jbuu.FullOtp
