/-
# FullOtp.Masked — a pump on other pads

What a pump does when the pads under it change by a mask and the plaintexts it is given
change with them. A stream over other pads is the stream with the mask on what it has not
consumed (`PadStream.masked`), and a pump's calls commute with that (`on_masked`): where the
mask is zero under the one-time keys the call takes, and is the difference of the two
plaintexts under the pad of the record it returns, the records, the refusals and all that is
left are the same, and only the plaintexts it hands out may differ.
-/
import Jbuu.Library.OneTimePad
import Jbuu.FullOtp.RoundTrip

namespace Jbuu.FullOtp

set_option autoImplicit false

open Jbuu.Library.BigEndian (Bytes Exactly)
open Jbuu.Library

/-! ## Buffers -/

theorem byteAt_eq {bytes : Bytes} {i : Nat} (inside : i < bytes.length) : byteAt bytes i = bytes[i] := by
  simp [byteAt, inside]

theorem bytes_ext {a b : Bytes} (long_ : a.length = b.length)
    (same : ∀ i, i < a.length → byteAt a i = byteAt b i) : a = b := by
  apply List.ext_getElem long_
  intro i inA inB
  rw [← byteAt_eq inA, ← byteAt_eq inB]
  exact same i inA

theorem byteAt_drop (bytes : Bytes) (n i : Nat) : byteAt (bytes.drop n) i = byteAt bytes (n + i) := by
  simp [byteAt, List.getElem?_drop]

theorem byteAt_take {bytes : Bytes} {n i : Nat} (inside : i < n) : byteAt (bytes.take n) i = byteAt bytes i := by
  simp [byteAt, inside]

theorem exactly_ext {n : Nat} {a b : Exactly n} (same : ∀ i, i < n → byteAt a.val i = byteAt b.val i) :
    a = b := by
  apply Subtype.ext
  apply bytes_ext
  · simp
  · intro i inside
    exact same i (by simpa using inside)

/-- A buffer that begins at `first`, with the mask on the bytes from `cursor` on. -/
def maskBuf (delta : Nat → UInt8) (first cursor : Nat) (buf : Exactly 4096) : Exactly 4096 :=
  ⟨buf.val.mapIdx fun i b => if cursor ≤ i then b ^^^ delta (first + i) else b, by simp⟩

theorem byteAt_maskBuf {delta : Nat → UInt8} {first cursor : Nat} {buf : Exactly 4096} {i : Nat}
    (inside : i < 4096) : byteAt (maskBuf delta first cursor buf).val i =
      if cursor ≤ i then byteAt buf.val i ^^^ delta (first + i) else byteAt buf.val i := by
  rw [byteAt_eq (by simpa using inside), @byteAt_eq buf.val i (by simpa using inside)]
  simp only [maskBuf, List.getElem_mapIdx]

/-- What is zeroed, with the mask on it where the mask is zero, is zero still. -/
theorem burn_maskBuf {delta : Nat → UInt8} {first cursor start n : Nat} {buf : Exactly 4096}
    (fits : start + n ≤ 4096) {cursor' : Nat}
    (zero : ∀ i, start ≤ i → i < start + n → cursor' ≤ i → delta (first + i) = 0)
    (later : ∀ i, i < start ∨ start + n ≤ i → (cursor ≤ i ↔ cursor' ≤ i)) :
    burn (maskBuf delta first cursor buf) start n = maskBuf delta first cursor' (burn buf start n) := by
  apply exactly_ext
  intro i inside
  rw [byteAt_maskBuf inside, byteAt_burn fits, byteAt_burn fits, byteAt_maskBuf inside]
  by_cases within : start ≤ i ∧ i < start + n
  · rw [if_pos within, if_pos within]
    split
    · rename_i reached
      rw [zero i within.1 within.2 reached]
      rfl
    · rfl
  · rw [if_neg within, if_neg within]
    exact if_congr (later i (by omega)) rfl rfl

/-! ## Streams -/

namespace PadStream

/-- The address in the book of the first byte. -/
def first (s : PadStream) : Nat := s.baseSegment.toNat * 64

/-- The address of the next byte. -/
def here (s : PadStream) : Nat := s.first + s.cursor

/-- The stream over masked pads: the consumed front is zero and stays. -/
def masked (delta : Nat → UInt8) (s : PadStream) : PadStream :=
  { s with buf := maskBuf delta s.first s.cursor s.buf }

variable {delta : Nat → UInt8} {s : PadStream}

@[simp] theorem masked_cursor : (s.masked delta).cursor = s.cursor := rfl

@[simp] theorem masked_remaining : (s.masked delta).remaining = s.remaining := rfl

@[simp] theorem masked_maxRecordLen : (s.masked delta).maxRecordLen = s.maxRecordLen := rfl

theorem masked_waste : s.waste.masked delta = s.waste := by
  have buf : maskBuf delta s.waste.first padHalf s.waste.buf = s.waste.buf := by
    apply exactly_ext
    intro i inside
    rw [byteAt_maskBuf inside, if_neg (by unfold padHalf; omega)]
  show ({ s.waste with buf := maskBuf delta s.waste.first padHalf s.waste.buf } : PadStream) = s.waste
  rw [buf]

theorem masked_after {l : Nat} (room : s.Fits l) :
    (s.masked delta).after l room = (s.after l room).masked delta := by
  have bound := room.bound
  have key : burn (s.masked delta).buf s.cursor macKeyLen =
      maskBuf delta s.first (s.cursor + macKeyLen) (burn s.buf s.cursor macKeyLen) := by
    apply burn_maskBuf (by omega)
    · omega
    · omega
  have pad : burn (maskBuf delta s.first (s.cursor + macKeyLen) (burn s.buf s.cursor macKeyLen))
        (s.cursor + macKeyLen) l =
      maskBuf delta s.first (s.cursor + (macKeyLen + l))
        (burn (burn s.buf s.cursor macKeyLen) (s.cursor + macKeyLen) l) := by
    apply burn_maskBuf (by omega)
    · omega
    · omega
  have both := (congrArg (burn · (s.cursor + macKeyLen) l) key).trans pad
  show ({ s.after l room with
    buf := burn (burn (s.masked delta).buf s.cursor macKeyLen) (s.cursor + macKeyLen) l } : PadStream) = _
  exact congrArg (fun buf => ({ s.after l room with buf } : PadStream)) both

/-- There is no mask on the bytes the next one-time key is made of. -/
def Keyed (delta : Nat → UInt8) (s : PadStream) : Prop :=
  ∀ a ∈ (s.span s.cursor macKeyLen).addresses, delta a = 0

theorem Keyed.zero (keyed : s.Keyed delta) {i : Nat} (low : s.cursor ≤ i) (high : i < s.cursor + macKeyLen) :
    delta (s.first + i) = 0 := by
  apply keyed
  rw [Span.mem_addresses]
  simp only [span, first]
  omega

theorem key_masked (room : s.Fits 0) (keyed : s.Keyed delta) :
    ((s.masked delta).takeMacKey room).value = (s.takeMacKey room).value := by
  have bound := room.bound
  have same : slice (s.masked delta).buf.val s.cursor (s.cursor + 32) =
      slice s.buf.val s.cursor (s.cursor + 32) := by
    apply bytes_ext
    · simp [slice]
    · intro i inside
      simp only [slice, List.length_take, List.length_drop, Exactly.length_val] at inside
      unfold slice
      rw [byteAt_take (by omega), byteAt_take (by omega), byteAt_drop, byteAt_drop]
      show byteAt (maskBuf delta s.first s.cursor s.buf).val _ = _
      rw [byteAt_maskBuf (by omega), if_pos (by omega),
        keyed.zero (Nat.le_add_right _ _) (by unfold macKeyLen; omega), UInt8.xor_zero]
  show sliceExactly 32 (s.masked delta).buf.val s.cursor = sliceExactly 32 s.buf.val s.cursor
  unfold sliceExactly
  simp only [same]

/-- The stream after its key was taken, where the record is refused then. -/
theorem keyed_rest (room : s.Fits 0) (keyed : s.Keyed delta) :
    ((s.masked delta).takeMacKey room).rest = (s.takeMacKey room).rest.masked delta := by
  have bound := room.bound
  have key : burn (s.masked delta).buf s.cursor macKeyLen =
      maskBuf delta s.first s.cursor (burn s.buf s.cursor macKeyLen) := by
    apply burn_maskBuf (by omega)
    · intro i low high _
      exact keyed.zero low high
    · omega
  show ({ s.masked delta with buf := burn (s.masked delta).buf s.cursor macKeyLen } : PadStream) = _
  rw [key]
  rfl

/-- **The mask under a pad is taken up by what the pad is XORed to.** -/
theorem xor_masked {dst dst' : Bytes} (room : s.Fits dst.length) (room' : s.Fits dst'.length)
    (long_ : dst'.length = dst.length)
    (differ : ∀ i, i < dst.length → delta (s.here + macKeyLen + i) = byteAt dst i ^^^ byteAt dst' i) :
    (((s.masked delta).takeMacKey room'.zero).rest.xorBurnPad dst' room').value =
      ((s.takeMacKey room.zero).rest.xorBurnPad dst room).value := by
  have bound := room.bound
  have xored : ∀ (buf : Exactly 4096) (dst : Bytes) (i : Nat), i < dst.length →
      s.cursor + macKeyLen + i < 4096 →
      byteAt (List.zipWith (· ^^^ ·) dst (buf.val.drop (s.cursor + macKeyLen))) i =
        byteAt dst i ^^^ byteAt buf.val (s.cursor + macKeyLen + i) := by
    intro buf dst i inside room
    rw [← byteAt_drop, byteAt_eq inside, byteAt_eq (by simp; omega), byteAt_eq (by simp; omega),
      List.getElem_zipWith]
  have left := length_xorBurnPad (s := ((s.masked delta).takeMacKey room'.zero).rest) room'
  have right := length_xorBurnPad (s := (s.takeMacKey room.zero).rest) room
  apply bytes_ext
  · rw [left, right, long_]
  · intro i inside
    rw [left, long_] at inside
    have there : s.cursor + macKeyLen + i < 4096 := by omega
    have address : s.first + (s.cursor + macKeyLen + i) = s.here + macKeyLen + i := by
      unfold here
      omega
    show byteAt (List.zipWith (· ^^^ ·) dst'
        ((burn (s.masked delta).buf s.cursor macKeyLen).val.drop (s.cursor + macKeyLen))) i =
      byteAt (List.zipWith (· ^^^ ·) dst
        ((burn s.buf s.cursor macKeyLen).val.drop (s.cursor + macKeyLen))) i
    rw [xored _ dst' i (long_ ▸ inside) there, xored _ dst i inside there,
      byteAt_burn (by omega), byteAt_burn (by omega), if_neg (by omega), if_neg (by omega)]
    show byteAt dst' i ^^^ byteAt (maskBuf delta s.first s.cursor s.buf).val _ = _
    rw [byteAt_maskBuf there, if_pos (by omega), address, differ i inside]
    exact xor_difference _ _ _

end PadStream

/-! ## Records -/

section Records

variable (mac : MacKey → Bytes → Tag) {delta : Nat → UInt8} {s : PadStream}

/-- The mask under a pad is the difference of two plaintexts. -/
def Differ (delta : Nat → UInt8) (pad : Nat) (plaintext plaintext' : Bytes) : Prop :=
  ∀ i, i < plaintext.length → delta (pad + i) = byteAt plaintext i ^^^ byteAt plaintext' i

theorem sealWith_masked (d : Direction) (seq : UInt64) {part part' : Bytes} (room : s.Fits part.length)
    (room' : (s.masked delta).Fits part'.length) (long_ : part'.length = part.length)
    (keyed : s.Keyed delta) (differ : Differ delta (s.here + macKeyLen) part part') :
    (sealWith mac (s.masked delta) d seq part' room').1 = (sealWith mac s d seq part room).1 := by
  have key := PadStream.key_masked room.zero keyed
  have ciphertext := PadStream.xor_masked room room' long_ differ
  unfold sealWith
  dsimp only
  rw [ciphertext, key, long_]
  rfl

theorem openWith_masked {r : OtpDataRecord} (room : s.Fits r.ciphertext.length)
    (room' : (s.masked delta).Fits r.ciphertext.length) (keyed : s.Keyed delta) :
    (openWith mac (s.masked delta) r room').1.map List.length = (openWith mac s r room).1.map List.length ∧
      (openWith mac (s.masked delta) r room').2.1 = (openWith mac s r room).2.1.masked delta ∧
      (openWith mac (s.masked delta) r room').2.2 = (openWith mac s r room).2.2 := by
  have key := PadStream.key_masked room.zero keyed
  unfold openWith
  dsimp only
  rw [key]
  split
  · exact ⟨rfl, PadStream.keyed_rest room.zero keyed, rfl⟩
  · refine ⟨?_, PadStream.masked_after room, rfl⟩
    have left := length_xorBurnPad (s := ((s.masked delta).takeMacKey room'.zero).rest) room'
    have right := length_xorBurnPad (s := (s.takeMacKey room.zero).rest) room
    exact congrArg Except.ok (left.trans right.symm)

/-- A frame is accepted or refused alike, where there is no mask on the key it takes. -/
theorem openRecord_masked (expect : OpenExpectation) (frame : Bytes)
    (keys : ∀ u ∈ (openRecord mac s expect frame).2.2, ∀ a ∈ u.key.addresses, delta a = 0) :
    (openRecord mac (s.masked delta) expect frame).1.map List.length =
        (openRecord mac s expect frame).1.map List.length ∧
      (openRecord mac (s.masked delta) expect frame).2.2 = (openRecord mac s expect frame).2.2 ∧
      (openRecord mac (s.masked delta) expect frame).2.1 = (openRecord mac s expect frame).2.1.masked delta := by
  have consumed : (s.masked delta).consumed = s.consumed := rfl
  revert keys
  unfold openRecord
  rw [consumed]
  split
  · exact fun _ => ⟨rfl, rfl, rfl⟩
  rename_i r _
  split
  · exact fun _ => ⟨rfl, rfl, rfl⟩
  split
  · exact fun _ => ⟨rfl, rfl, rfl⟩
  split
  · exact fun _ => ⟨rfl, rfl, rfl⟩
  split
  · exact fun _ => ⟨rfl, rfl, rfl⟩
  split
  · exact fun _ => ⟨rfl, rfl, rfl⟩
  by_cases room : s.Fits r.ciphertext.length
  · have room' : (s.masked delta).Fits r.ciphertext.length := room
    rw [dif_pos room, dif_pos room']
    intro keys
    have key : (openWith mac s r room).2.2.key = s.span s.cursor macKeyLen := by
      unfold openWith
      dsimp only
      split <;> rfl
    have keyed : s.Keyed delta := by
      intro a mem
      apply keys _ (List.mem_singleton.mpr rfl)
      rwa [key]
    obtain ⟨result, rest, use⟩ := openWith_masked mac room room' keyed
    exact ⟨result, congrArg (fun u => [u]) use, rest⟩
  · have room' : ¬(s.masked delta).Fits r.ciphertext.length := room
    rw [dif_neg room, dif_neg room']
    exact fun _ => ⟨rfl, rfl, rfl⟩

end Records

/-! ## Pumps -/

def DirPlane.masked (delta : Nat → UInt8) (plane : DirPlane) : DirPlane where
  current := plane.current.masked delta
  next := plane.next.map (·.masked delta)

def FullOtpPump.masked (delta : Nat → UInt8) (p : FullOtpPump) : FullOtpPump :=
  { p with planes := ⟨p.planes.c2s.masked delta, p.planes.s2c.masked delta⟩ }

def Turn.masked {α : Type} (delta : Nat → UInt8) (turn : Turn α) : Turn α :=
  { turn with pump := turn.pump.masked delta }

namespace FullOtpPump

variable {delta : Nat → UInt8} {p : FullOtpPump}

theorem masked_current (d : Direction) : (p.masked delta).current d = (p.current d).masked delta := by
  cases d <;> rfl

theorem masked_next (d : Direction) : (p.masked delta).next d = (p.next d).map (·.masked delta) := by
  cases d <;> rfl

theorem masked_putCurrent (d : Direction) (stream : PadStream) :
    (p.masked delta).putCurrent d (stream.masked delta) = (p.putCurrent d stream).masked delta := by
  cases d <;> rfl

theorem masked_fail : (p.masked delta).fail = p.fail ∧ p.fail.masked delta = p.fail := by
  refine ⟨rfl, ?_⟩
  unfold fail failWasteAll masked DirPlane.wasteAll DirPlane.masked
  simp only [PadStream.masked_waste, Option.map_none]

theorem masked_wasted : (p.masked delta).wasted = p.wasted := by
  unfold wasted
  simp only [masked_next]
  cases p.next .clientToServer <;> cases p.next .serverToClient <;> rfl

theorem masked_failed {α : Type} (result : α) (trail : Trail) :
    (p.masked delta).failed result trail = (p.failed result trail).masked delta := by
  have pump : (p.masked delta).fail = p.fail.masked delta := masked_fail.1.trans masked_fail.2.symm
  unfold failed Turn.masked
  rw [masked_wasted, pump]

theorem masked_refresh : (p.masked delta).refreshAckStateAfterSwitch =
    p.refreshAckStateAfterSwitch.masked delta := by
  unfold refreshAckStateAfterSwitch
  simp only [masked_next, Option.isNone_map]
  split <;> rfl

theorem masked_switchTo (d : Direction) (n : PadStream) :
    (p.masked delta).switchTo d (n.masked delta) = (p.switchTo d n).masked delta := by
  unfold switchTo
  dsimp only
  rw [← masked_refresh]
  cases d <;> rfl

theorem masked_retired (d : Direction) (n : PadStream) :
    (p.masked delta).retired d (n.masked delta) = p.retired d n := by
  cases d <;> rfl

theorem masked_nextReadyForSend (d : Direction) :
    (p.masked delta).nextReadyForSend d = p.nextReadyForSend d := by
  unfold nextReadyForSend
  rw [masked_next, Option.isSome_map]
  rfl

theorem masked_switchForSend (d : Direction) : (p.masked delta).switchForSend d =
    (p.switchForSend d).map fun found => (found.1.masked delta, found.2) := by
  unfold switchForSend
  rw [masked_current, PadStream.masked_maxRecordLen, masked_nextReadyForSend, masked_next]
  split
  · cases p.nextReadyForSend d with
    | false => rfl
    | true =>
        cases p.next d with
        | none => rfl
        | some n =>
            show some ((p.masked delta).switchTo d (n.masked delta), _) = _
            rw [masked_switchTo, masked_retired]
            rfl
  · rfl

theorem masked_switchForReceive (d : Direction) (bundleId : UInt64) :
    (p.masked delta).switchForReceive d bundleId =
      (p.switchForReceive d bundleId).map fun found => (found.1.masked delta, found.2) := by
  unfold switchForReceive
  rw [masked_current, masked_next]
  show (if bundleId = (p.current d).bundleId + 1 then _ else _) = _
  split
  · cases p.next d with
    | none => rfl
    | some n =>
        show (if n.bundleId = bundleId then
          some ((p.masked delta).switchTo d (n.masked delta), [(p.masked delta).retired d (n.masked delta)])
          else none) = Option.map _ (if n.bundleId = bundleId then _ else none)
        rw [masked_switchTo, masked_retired]
        split <;> rfl
  · rfl

end FullOtpPump

/-! ### `send` -/

/-- What a record took from the pads, as its header says. -/
def OtpDataRecord.use (r : OtpDataRecord) : Use where
  direction := r.direction
  key := ⟨r.baseSegment.toNat * 64 + r.padOffset.toNat, macKeyLen⟩
  pad := ⟨r.baseSegment.toNat * 64 + (r.padOffset.toNat + macKeyLen), r.ciphertext.length⟩

theorem use_sealWith (mac : MacKey → Bytes → Tag) {s : PadStream} (d : Direction) (seq : UInt64) {part : Bytes}
    (room : s.Fits part.length) : (sealWith mac s d seq part room).1.use = s.use d part.length := by
  unfold OtpDataRecord.use
  rw [padOffset_sealWith, length_sealWith]
  rfl

/-- The mask fits a record: it leaves the key alone, and under the pad it is the difference of
the two plaintexts. -/
structure Covers (delta : Nat → UInt8) (record : OtpDataRecord) (plaintext plaintext' : Bytes) : Prop where
  key : ∀ a ∈ record.use.key.addresses, delta a = 0
  pad : ∀ i, i < record.ciphertext.length →
    delta (record.use.pad.first + i) = byteAt plaintext i ^^^ byteAt plaintext' i

section Send

variable {mac : MacKey → Bytes → Tag} {delta : Nat → UInt8} {p : FullOtpPump}

variable (mac delta) in
/-- A plaintext of one length is sealed or refused alike, and leaves the same; where the mask
fits, so is the record. -/
theorem sealRecord_masked {s : PadStream} (d : Direction) (seq : UInt64) {part part' : Bytes}
    (long_ : part'.length = part.length) :
    (∃ e st uses, sealRecord mac s d seq part = (.error e, st, uses) ∧
      sealRecord mac (s.masked delta) d seq part' = (.error e, st.masked delta, uses)) ∨
    ∃ r r' st uses, sealRecord mac s d seq part = (.ok r, st, uses) ∧
      sealRecord mac (s.masked delta) d seq part' = (.ok r', st.masked delta, uses) ∧
      (Covers delta r part part' → r' = r) := by
  have after : ∀ {l : Nat} (same : l = part.length) (room : s.Fits part.length) (room' : (s.masked delta).Fits l),
      (s.masked delta).after l room' = (s.after part.length room).masked delta := by
    intro l same room room'
    subst same
    exact PadStream.masked_after room
  rcases sealRecord_cases mac (s := s) d seq part with ⟨why, refused⟩ | ⟨room, r, some_, -, shape, sealed⟩
  · left
    refine ⟨_, _, _, refused, ?_⟩
    rcases sealRecord_cases mac (s := s.masked delta) d seq part' with ⟨-, refused'⟩ | ⟨room', -, some_, -⟩
    · exact refused'
    · rw [long_] at room' some_
      exact absurd why (not_or.mpr ⟨some_, not_not.mpr room'⟩)
  · right
    rcases sealRecord_cases mac (s := s.masked delta) d seq part' with
      ⟨why, -⟩ | ⟨room', r', -, -, shape', sealed'⟩
    · rw [long_] at why
      exact absurd why (not_or.mpr ⟨some_, not_not.mpr room⟩)
    · refine ⟨r, r', _, _, sealed, ?_, ?_⟩
      · rw [sealed', after long_ room room', long_]
        rfl
      · intro covers
        have use : r.use = s.use d part.length := by
          rw [shape]
          exact use_sealWith mac d seq room
        have whole : r.ciphertext.length = part.length := congrArg (fun u => u.pad.length) use
        obtain ⟨key, pad⟩ := covers
        rw [use, whole] at pad
        rw [use] at key
        rw [shape, shape']
        exact sealWith_masked mac d seq room room' long_ key pad

theorem sendRecord_masked {part part' : Bytes} (long_ : part'.length = part.length) (dropped : List PadStream)
    (covers : ∀ record n need, (p.sendRecord mac part dropped).result = .ok (.record record n need) →
      Covers delta record part part') :
    (p.masked delta).sendRecord mac part' dropped = (p.sendRecord mac part dropped).masked delta := by
  have current : (p.masked delta).current p.sendDir = (p.current p.sendDir).masked delta :=
    FullOtpPump.masked_current p.sendDir
  have dir : (p.masked delta).sendDir = p.sendDir := rfl
  have seq : (p.masked delta).sendSeq = p.sendSeq := rfl
  revert covers
  unfold FullOtpPump.sendRecord
  dsimp only
  rw [dir, current, seq]
  rcases sealRecord_masked mac delta (s := p.current p.sendDir) p.sendDir p.sendSeq long_ with
    ⟨e, st, uses, refused, refused'⟩ | ⟨r, r', st, uses, sealed, sealed', same⟩
  · rw [refused, refused', FullOtpPump.masked_putCurrent]
    intro _
    exact FullOtpPump.masked_failed _ _
  · rw [sealed, sealed', FullOtpPump.masked_putCurrent]
    cases next : checkedAdd p.sendSeq 1 with
    | none =>
        intro _
        exact FullOtpPump.masked_failed _ _
    | some number =>
        intro covers
        obtain rfl : r' = r := same (covers r _ _ rfl)
        have low : (((p.putCurrent p.sendDir st).masked delta).current p.sendDir).belowLowWater =
            ((p.putCurrent p.sendDir st).current p.sendDir).belowLowWater := by
          rw [FullOtpPump.masked_current]
          rfl
        rw [long_, low]
        rfl

/-- The record that `send` returns is made of the front of the plaintext. -/
theorem covers_part {record : OtpDataRecord} {plaintext plaintext' : Bytes} {n : Nat}
    (covers : Covers delta record plaintext plaintext') (within : record.ciphertext.length ≤ n) :
    Covers delta record (plaintext.take n) (plaintext'.take n) where
  key := covers.key
  pad i inside := by
    rw [byteAt_take (by omega), byteAt_take (by omega)]
    exact covers.pad i inside

theorem sendRecord_length {part : Bytes} {dropped : List PadStream} {record : OtpDataRecord} {n : Nat}
    {need : Bool} (result : (p.sendRecord mac part dropped).result = .ok (.record record n need)) :
    record.ciphertext.length = part.length ∧ n = part.length := by
  rcases p.sendRecord_cases mac part dropped with
    ⟨-, refused⟩ | ⟨room, r, -, long_, -, ⟨-, full⟩ | ⟨seq, -, sealed⟩⟩
  · rw [refused] at result
    exact absurd result (by rintro ⟨⟩)
  · rw [full] at result
    exact absurd result (by rintro ⟨⟩)
  · rw [sealed] at result
    injection result with outcome
    injection outcome with is count
    exact ⟨is ▸ long_, count.symm⟩

theorem send_masked {plaintext plaintext' : Bytes} (long_ : plaintext'.length = plaintext.length)
    (covers : ∀ record n need, (p.send mac plaintext).result = .ok (.record record n need) →
      Covers delta record plaintext plaintext') :
    (p.masked delta).send mac plaintext' = (p.send mac plaintext).masked delta := by
  have empty : plaintext' = [] ↔ plaintext = [] := by
    rw [← List.length_eq_zero_iff, ← List.length_eq_zero_iff, long_]
  have closed : (p.masked delta).closed = p.closed := rfl
  have dir : (p.masked delta).sendDir = p.sendDir := rfl
  have parts : ∀ q : FullOtpPump, (q.masked delta).part plaintext' =
      plaintext'.take (min plaintext.length (q.current q.sendDir).maxRecordLen) := by
    intro q
    have current : (q.masked delta).current (q.masked delta).sendDir = (q.current q.sendDir).masked delta :=
      FullOtpPump.masked_current q.sendDir
    unfold FullOtpPump.part
    rw [current, long_, PadStream.masked_maxRecordLen]
  have step : ∀ (q : FullOtpPump) (dropped : List PadStream),
      (∀ record n need, (q.sendRecord mac (q.part plaintext) dropped).result = .ok (.record record n need) →
        Covers delta record plaintext plaintext') →
      (q.masked delta).sendRecord mac ((q.masked delta).part plaintext') dropped =
        (q.sendRecord mac (q.part plaintext) dropped).masked delta := by
    intro q dropped covers
    rw [parts]
    apply sendRecord_masked
    · simp [FullOtpPump.part, long_]
    · intro record n need result
      have whole := (sendRecord_length result).1
      refine covers_part (covers record n need result) ?_
      rw [whole, FullOtpPump.part, List.length_take]
      exact Nat.min_le_left _ _
  revert covers
  unfold FullOtpPump.send
  rw [closed, dir, FullOtpPump.masked_switchForSend]
  split
  · exact fun _ => rfl
  by_cases none_ : plaintext = []
  · rw [if_pos none_, if_pos (empty.mpr none_)]
    exact fun _ => rfl
  rw [if_neg none_, if_neg (mt empty.mp none_)]
  cases p.switchForSend p.sendDir with
  | none => exact fun _ => rfl
  | some found => exact step found.1 found.2

end Send

/-! ### `receive` -/

/-- What is left of a reply where the plaintext is blacked out. -/
def Received.blind (r : Received) : Received := { r with plaintext := List.replicate r.plaintext.length 0 }

section Receive

variable {mac : MacKey → Bytes → Tag} {delta : Nat → UInt8} {p : FullOtpPump}

/-- The same turn over masked pads, but for the bytes of a plaintext. -/
structure Shadows (delta : Nat → UInt8) (turn turn' : Turn (Except OtpError Received)) : Prop where
  result : turn'.result.map Received.blind = turn.result.map Received.blind
  pump : turn'.pump = turn.pump.masked delta
  trail : turn'.trail = turn.trail

theorem Shadows.of_eq {turn turn' : Turn (Except OtpError Received)} (same : turn' = turn.masked delta) :
    Shadows delta turn turn' := by
  subst same
  exact ⟨rfl, rfl, rfl⟩

theorem shadows_receiveRecord (frame : Bytes) (l : Nat) (dropped : List PadStream)
    (keys : ∀ u ∈ (p.receiveRecord mac frame l dropped).trail.uses, ∀ a ∈ u.key.addresses, delta a = 0) :
    Shadows delta (p.receiveRecord mac frame l dropped) ((p.masked delta).receiveRecord mac frame l dropped) := by
  have current : (p.masked delta).current p.recvDir = (p.current p.recvDir).masked delta :=
    FullOtpPump.masked_current p.recvDir
  have dir : (p.masked delta).recvDir = p.recvDir := rfl
  have seq : (p.masked delta).recvSeq = p.recvSeq := rfl
  have expect : (p.masked delta).expectation = p.expectation := by
    unfold FullOtpPump.expectation
    rw [dir, current]
    rfl
  have uses : (p.receiveRecord mac frame l dropped).trail.uses =
      (openRecord mac (p.current p.recvDir) p.expectation frame).2.2 := by
    unfold FullOtpPump.receiveRecord
    dsimp only
    split
    · rfl
    · split <;> rfl
  rw [uses] at keys
  obtain ⟨result, same, stream⟩ := openRecord_masked mac p.expectation frame keys
  unfold FullOtpPump.receiveRecord
  dsimp only
  rw [dir, current, expect, seq, same, stream, FullOtpPump.masked_putCurrent]
  generalize (openRecord mac ((p.current p.recvDir).masked delta) p.expectation frame).1 = opened' at result ⊢
  generalize openRecord mac (p.current p.recvDir) p.expectation frame = opened at result ⊢
  obtain ⟨opened, stream, uses⟩ := opened
  dsimp only at result ⊢
  generalize p.putCurrent p.recvDir stream = q
  cases opened with
  | error e =>
      cases opened' with
      | error e' =>
          obtain rfl : e' = e := Except.error.inj result
          exact .of_eq (FullOtpPump.masked_failed _ _)
      | ok plaintext' => exact absurd result (by rintro ⟨⟩)
  | ok plaintext =>
      cases opened' with
      | error e' => exact absurd result (by rintro ⟨⟩)
      | ok plaintext' =>
          have long_ : plaintext'.length = plaintext.length := Except.ok.inj result
          cases checkedAdd p.recvSeq 1 with
          | none =>
              exact .of_eq (FullOtpPump.masked_failed (p := { q with
                sessionConsumed := q.sessionConsumed.set p.recvDir
                  (q.sessionConsumed.get p.recvDir + (macKeyLen + l)) }) _ _)
          | some number =>
              refine ⟨?_, rfl, rfl⟩
              have low : ((q.masked delta).current p.recvDir).belowLowWater = (q.current p.recvDir).belowLowWater := by
                rw [FullOtpPump.masked_current]
                rfl
              show Except.ok (Received.blind ⟨plaintext', ((q.masked delta).current p.recvDir).belowLowWater⟩) =
                Except.ok (Received.blind ⟨plaintext, (q.current p.recvDir).belowLowWater⟩)
              unfold Received.blind
              rw [low, long_]

theorem shadows_receive (frame : Bytes)
    (keys : ∀ u ∈ (p.receive mac frame).trail.uses, ∀ a ∈ u.key.addresses, delta a = 0) :
    Shadows delta (p.receive mac frame) ((p.masked delta).receive mac frame) := by
  have closed : (p.masked delta).closed = p.closed := rfl
  have dir : (p.masked delta).recvDir = p.recvDir := rfl
  revert keys
  unfold FullOtpPump.receive
  rw [closed, dir]
  split
  · exact fun _ => .of_eq rfl
  split
  · exact fun _ => .of_eq rfl
  rename_i peek _
  rw [FullOtpPump.masked_switchForReceive]
  split
  · exact fun _ => .of_eq (FullOtpPump.masked_failed _ _)
  cases p.switchForReceive p.recvDir peek.bundleId with
  | none => exact fun _ => .of_eq (FullOtpPump.masked_failed _ _)
  | some found => exact shadows_receiveRecord frame _ found.2

end Receive

/-! ## Bundles -/

/-- The segments a call to a source may have taken from a book of `segments`, where its
pointer went from `before` to `after`. -/
def Rises (segments : UInt64) (before after : Nat) : Option UInt64 → Prop
  | some base => before ≤ base.toNat ∧ base.toNat + 128 ≤ after ∧ after ≤ segments.toNat
  | none => before ≤ after

/-- A source that says which ranges of the book it reserved, without looking at what is in
them; its pointer never goes back and passes every range it hands out. -/
structure RangeSource (segments : UInt64) (σ : Type) where
  reserveNextRange : σ → Except PadSourceError UInt64 × σ
  reserveRangeAt : UInt64 → σ → Except PadSourceError Unit × σ
  pointer : σ → Nat
  next_rises : ∀ st, Rises segments (pointer st) (pointer (reserveNextRange st).2)
    (reserveNextRange st).1.toOption
  at_rises : ∀ base st, Rises segments (pointer st) (pointer (reserveRangeAt base st).2)
    ((reserveRangeAt base st).1.toOption.map fun _ => base)

/-- The bytes of a book of so many segments. -/
abbrev Body (segments : UInt64) := Pads (segments.toNat * 64)

/-- The 128 segments from `base` on. -/
def bundleAt {segments : UInt64} (body : Body segments) (base : UInt64) : Bundle :=
  ⟨(List.range 8192).map fun i => body.byte (base.toNat * 64 + i), by simp⟩

/-- The source over a book. -/
def RangeSource.over {segments : UInt64} {σ : Type} (ranges : RangeSource segments σ) (body : Body segments) :
    PadSource σ where
  reserveNextBundle st :=
    ((ranges.reserveNextRange st).1.map fun base => (base, bundleAt body base), (ranges.reserveNextRange st).2)
  reserveBundleAt base st :=
    ((ranges.reserveRangeAt base st).1.map fun _ => bundleAt body base, (ranges.reserveRangeAt base st).2)

/-- The ranges of an allocator, whose state is its pointer: the next one, or the one that was
announced where the pointer is there. -/
def pointerRanges (segments : UInt64) : RangeSource segments Nat where
  reserveNextRange next :=
    if next + 128 ≤ segments.toNat then (.ok (.ofNat next), next + 128) else (.error (.reserve "exhausted"), next)
  reserveRangeAt announced next :=
    if announced.toNat ≠ next then (.error (.pointerMismatch (.ofNat next) announced), next)
    else if next + 128 ≤ segments.toNat then (.ok (), next + 128)
    else (.error (.reserve "reserve-failed"), next)
  pointer := id
  next_rises next := by
    have small := segments.toNat_lt
    split
    · rename_i left
      have same : (UInt64.ofNat next).toNat = next := by
        rw [UInt64.toNat_ofNat', Nat.mod_eq_of_lt (by omega)]
      show next ≤ (UInt64.ofNat next).toNat ∧ (UInt64.ofNat next).toNat + 128 ≤ next + 128 ∧
        next + 128 ≤ segments.toNat
      omega
    · exact Nat.le_refl next
  at_rises announced next := by
    split
    · exact Nat.le_refl next
    rename_i there
    rw [ne_eq, not_not] at there
    split
    · show next ≤ announced.toNat ∧ announced.toNat + 128 ≤ next + 128 ∧ next + 128 ≤ segments.toNat
      omega
    · exact Nat.le_refl next

section Bundles

variable {delta : Nat → UInt8} {segments : UInt64} {body : Body segments} {base : UInt64}

theorem Rises.fits {before after : Nat} (rises : Rises segments before after (some base)) :
    base.toNat + 128 ≤ segments.toNat := rises.2.1.trans rises.2.2

theorem rangeFits_of_le (fits : base.toNat + 128 ≤ segments.toNat) : RangeFits base := by
  have small := segments.toNat_lt
  unfold RangeFits
  omega

theorem byteAt_bundleAt {i : Nat} (inside : i < 8192) :
    byteAt (bundleAt body base).val i = body.byte (base.toNat * 64 + i) := by
  rw [byteAt_eq (by simpa using inside)]
  simp [bundleAt]

theorem byteAt_bundleAt_masked (fits : base.toNat + 128 ≤ segments.toNat) {i : Nat} (inside : i < 8192) :
    byteAt (bundleAt (masked delta body) base).val i =
      byteAt (bundleAt body base).val i ^^^ delta (base.toNat * 64 + i) := by
  rw [byteAt_bundleAt inside, byteAt_bundleAt inside]
  exact byte_masked delta body (by omega)

/-- The halves of a bundle that is masked. -/
theorem splitBundle_masked (bundleId : UInt64) (fits : base.toNat + 128 ≤ segments.toNat) {flat flat' : Bundle}
    (differ : ∀ i, i < 8192 → byteAt flat'.val i = byteAt flat.val i ^^^ delta (base.toNat * 64 + i)) :
    (splitBundle bundleId base flat').c2s = (splitBundle bundleId base flat).c2s.masked delta ∧
      (splitBundle bundleId base flat').s2c = (splitBundle bundleId base flat).s2c.masked delta := by
  have stream : ∀ (first : UInt64) (half half' : Exactly 4096),
      (∀ i, i < 4096 → byteAt half'.val i = byteAt half.val i ^^^ delta (first.toNat * 64 + i)) →
      PadStream.fromHalf bundleId first half' = (PadStream.fromHalf bundleId first half).masked delta := by
    intro first half half' differ
    have buf : half' = maskBuf delta (first.toNat * 64) 0 half := by
      apply exactly_ext
      intro i inside
      rw [byteAt_maskBuf inside, if_pos (Nat.zero_le i), differ i inside]
    rw [buf]
    rfl
  constructor
  · apply stream
    intro i inside
    dsimp only
    unfold padHalf
    rw [byteAt_take inside, byteAt_take inside]
    exact differ i (by omega)
  · apply stream
    intro i inside
    have address : base.toNat * 64 + (4096 + i) = (base + 64).toNat * 64 + i := by
      rw [toNat_add_64 (rangeFits_of_le fits)]
      omega
    dsimp only
    unfold padHalf
    rw [byteAt_drop, byteAt_drop, ← address]
    exact differ (4096 + i) (by omega)

theorem new_masked (role : Role) (fits : base.toNat + 128 ≤ segments.toNat) :
    FullOtpPump.new role base (bundleAt (masked delta body) base) =
      (FullOtpPump.new role base (bundleAt body base)).masked delta := by
  have differ : ∀ i, i < 8192 → byteAt (bundleAt (masked delta body) base).val i = _ :=
    fun i => byteAt_bundleAt_masked fits
  obtain ⟨client, server⟩ := splitBundle_masked 0 fits differ
  unfold FullOtpPump.new
  dsimp only
  rw [client, server]
  rfl

theorem install_masked {p : FullOtpPump} (bundleId : UInt64) (fits : base.toNat + 128 ≤ segments.toNat) :
    (p.masked delta).install bundleId base (bundleAt (masked delta body) base) =
      (p.install bundleId base (bundleAt body base)).masked delta := by
  have differ : ∀ i, i < 8192 → byteAt (bundleAt (masked delta body) base).val i = _ :=
    fun i => byteAt_bundleAt_masked fits
  obtain ⟨client, server⟩ := splitBundle_masked bundleId fits differ
  unfold FullOtpPump.install
  dsimp only
  rw [client, server]
  rfl

theorem hasNext_masked {p : FullOtpPump} : (p.masked delta).hasNext = p.hasNext := by
  unfold FullOtpPump.hasNext
  rw [FullOtpPump.masked_next, FullOtpPump.masked_next, Option.isSome_map, Option.isSome_map]

variable {σ : Type} {ranges : RangeSource segments σ} {p : FullOtpPump}

theorem serverPrefetch_masked (st : σ × List UInt64) :
    (p.masked delta).serverPrefetch (ranges.over (masked delta body)).logged st =
      ((p.serverPrefetch (ranges.over body).logged st).1.masked delta,
        (p.serverPrefetch (ranges.over body).logged st).2) := by
  have closed : (p.masked delta).closed = p.closed := rfl
  have role : (p.masked delta).role = p.role := rfl
  have number : (p.masked delta).nextBundleId = p.nextBundleId := rfl
  unfold FullOtpPump.serverPrefetch
  rw [closed, role, hasNext_masked]
  split
  · rfl
  split
  · exact congrArg (·, st) (FullOtpPump.masked_failed _ _)
  split
  · rfl
  have rises := ranges.next_rises st.1
  unfold FullOtpPump.prefetch PadSource.logged RangeSource.over
  dsimp only
  rw [number]
  generalize ranges.reserveNextRange st.1 = out at rises
  obtain ⟨result, rest⟩ := out
  cases result with
  | error e => exact congrArg (·, rest, st.2) (FullOtpPump.masked_failed _ _)
  | ok base =>
      simp only [Except.map]
      rw [install_masked p.nextBundleId (Rises.fits rises)]
      rfl

theorem onPadOffer_masked (bundleId base : UInt64) (st : σ × List UInt64) :
    (p.masked delta).onPadOffer (ranges.over (masked delta body)).logged bundleId base st =
      ((p.onPadOffer (ranges.over body).logged bundleId base st).1.masked delta,
        (p.onPadOffer (ranges.over body).logged bundleId base st).2) := by
  have number : (p.masked delta).nextBundleId = p.nextBundleId := rfl
  unfold FullOtpPump.onPadOffer
  rw [number, hasNext_masked]
  split
  · exact congrArg (·, st) (FullOtpPump.masked_failed _ _)
  split
  · exact congrArg (·, st) (FullOtpPump.masked_failed _ _)
  have rises := ranges.at_rises base st.1
  unfold PadSource.logged RangeSource.over
  dsimp only
  generalize ranges.reserveRangeAt base st.1 = out at rises
  obtain ⟨result, rest⟩ := out
  cases result with
  | error e => exact congrArg (·, rest, st.2) (FullOtpPump.masked_failed _ _)
  | ok _ =>
      simp only [Except.map]
      rw [install_masked bundleId (Rises.fits rises)]
      rfl

theorem close_masked : (p.masked delta).close = p.close.masked delta := by
  have closed : (p.masked delta).closed = p.closed := rfl
  unfold FullOtpPump.close
  rw [closed]
  split
  · rfl
  · exact FullOtpPump.masked_failed _ _

theorem onControl_masked (msg : PadControl) (st : σ × List UInt64) :
    (p.masked delta).onControl (ranges.over (masked delta body)).logged msg st =
      ((p.onControl (ranges.over body).logged msg st).1.masked delta,
        (p.onControl (ranges.over body).logged msg st).2) := by
  have closed : (p.masked delta).closed = p.closed := rfl
  have role : (p.masked delta).role = p.role := rfl
  have pending : (p.masked delta).pendingAck = p.pendingAck := rfl
  unfold FullOtpPump.onControl
  rw [closed]
  split
  · rfl
  cases msg with
  | padNeed =>
      dsimp only
      rw [role, serverPrefetch_masked]
      split
      · exact congrArg (·, st) (FullOtpPump.masked_failed _ _)
      · rfl
  | padOffer bundleId base =>
      dsimp only
      rw [role, onPadOffer_masked]
      split
      · exact congrArg (·, st) (FullOtpPump.masked_failed _ _)
      · rfl
  | padAck bundleId =>
      dsimp only
      rw [role, pending]
      split
      · exact congrArg (·, st) (FullOtpPump.masked_failed _ _)
      split
      · exact congrArg (·, st) (FullOtpPump.masked_failed _ _)
      · rfl
  | close =>
      dsimp only
      rw [close_masked]
      rfl

end Bundles

/-! ## Calls -/

def PumpCall.plaintext : PumpCall → Bytes
  | .send plaintext => plaintext
  | _ => []

/-- A call as seen from outside: how long a plaintext is, and not what it says. -/
def PumpCall.blind : PumpCall → PumpCall
  | .send plaintext => .send (List.replicate plaintext.length 0)
  | call => call

/-- A reply as seen from outside. -/
def PumpReply.blind : PumpReply → PumpReply
  | .received result => .received (result.map Received.blind)
  | reply => reply

/-- The mask fits a call: there is none on the keys it takes, and under the pad of the record
it returns it is the difference of the two plaintexts. -/
structure Fitting (delta : Nat → UInt8) (call call' : PumpCall) (turn : Turn PumpReply) : Prop where
  keys : ∀ u ∈ turn.trail.uses, ∀ a ∈ u.key.addresses, delta a = 0
  covers : ∀ plaintext plaintext' record n need, call = .send plaintext → call' = .send plaintext' →
    turn.result = .sent (.ok (.record record n need)) → Covers delta record plaintext plaintext'

/-- **A call over masked pads**, with a plaintext that differs by the mask: the same reply, but
for the bytes of a plaintext, and the same pump over the masked pads. -/
theorem on_masked (mac : MacKey → Bytes → Tag) {delta : Nat → UInt8} {segments : UInt64} {body : Body segments}
    {σ : Type} {ranges : RangeSource segments σ} {p : FullOtpPump} {st : σ × List UInt64} {call call' : PumpCall}
    (alike : call'.blind = call.blind)
    (fitting : Fitting delta call call' (PumpCall.on mac (ranges.over body).logged p st call).1) :
    let out := PumpCall.on mac (ranges.over body).logged p st call
    let out' := PumpCall.on mac (ranges.over (masked delta body)).logged (p.masked delta) st call'
    out'.1.result.blind = out.1.result.blind ∧ out'.1.pump = out.1.pump.masked delta ∧
      out'.1.trail = out.1.trail ∧ out'.2 = out.2 := by
  cases call with
  | send plaintext =>
      cases call' with
      | send plaintext' =>
          have long_ : plaintext'.length = plaintext.length := by
            have same := congrArg (fun c => c.plaintext.length) alike
            simpa [PumpCall.blind, PumpCall.plaintext] using same
          have covers := fitting.covers plaintext plaintext'
          have sent : (p.masked delta).send mac plaintext' = (p.send mac plaintext).masked delta := by
            apply send_masked long_
            intro record n need result
            exact covers record n need rfl rfl (congrArg PumpReply.sent result)
          dsimp only [PumpCall.on]
          rw [sent]
          exact ⟨rfl, rfl, rfl, rfl⟩
      | _ => exact absurd alike (by rintro ⟨⟩)
  | receive frame =>
      obtain rfl : call' = .receive frame := by
        cases call' with
        | send plaintext' => exact absurd alike (by rintro ⟨⟩)
        | _ => exact alike
      have shadows : Shadows delta (p.receive mac frame) ((p.masked delta).receive mac frame) :=
        shadows_receive frame fitting.keys
      dsimp only [PumpCall.on]
      exact ⟨congrArg PumpReply.received shadows.result, shadows.pump, shadows.trail, rfl⟩
  | onControl msg =>
      obtain rfl : call' = .onControl msg := by
        cases call' with
        | send plaintext' => exact absurd alike (by rintro ⟨⟩)
        | _ => exact alike
      dsimp only [PumpCall.on]
      rw [onControl_masked]
      exact ⟨rfl, rfl, rfl, rfl⟩
  | serverPrefetch =>
      obtain rfl : call' = .serverPrefetch := by
        cases call' with
        | send plaintext' => exact absurd alike (by rintro ⟨⟩)
        | _ => exact alike
      dsimp only [PumpCall.on]
      rw [serverPrefetch_masked]
      exact ⟨rfl, rfl, rfl, rfl⟩
  | close =>
      obtain rfl : call' = .close := by
        cases call' with
        | send plaintext' => exact absurd alike (by rintro ⟨⟩)
        | _ => exact alike
      dsimp only [PumpCall.on]
      rw [close_masked]
      exact ⟨rfl, rfl, rfl, rfl⟩

end Jbuu.FullOtp
