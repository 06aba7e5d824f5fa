/-
# FullOtp.Exchange — a record from a sealing pump to an opening one

The receiver's stream that equals the sender's opens what was sealed and moves on to where
the sender's moved (`openRecord_sealWith`). A `View` is what one end knows of one direction;
`Reads` says which frames an end can take and what it knows then. A `send` that returns a
record and a `receive` of a frame that can be read both move the pump along its view and
touch nothing else (`Advances`).
-/
import Jbuu.Library.Fifo
import Jbuu.FullOtp.Audit

namespace Jbuu.FullOtp

set_option autoImplicit false

open Jbuu.Library.BigEndian (Bytes Exactly)
open Jbuu.Library

/-! ## Sealed and opened -/

theorem ctEq16_self (t : Tag) : ctEq16 t t = true := by
  have zero : ∀ bytes : Bytes, (List.zipWith (· ^^^ ·) bytes bytes).foldl (· ||| ·) 0 = 0 := by
    intro bytes
    induction bytes with
    | nil => rfl
    | cons b rest ih => simpa using ih
  unfold ctEq16
  rw [zero]
  rfl

/-- A pad that is applied twice gives the text back. -/
theorem xor_xor {text pad : Bytes} (enough : text.length ≤ pad.length) :
    List.zipWith (· ^^^ ·) (List.zipWith (· ^^^ ·) text pad) pad = text := by
  induction text generalizing pad with
  | nil => rfl
  | cons b rest ih =>
      cases pad with
      | nil => simp at enough
      | cons k keys =>
          simp only [List.zipWith_cons_cons, UInt8.xor_assoc, UInt8.xor_self, UInt8.xor_zero]
          rw [ih (by simpa using enough)]

section Sealed

variable (mac : MacKey → Bytes → Tag) {s : PadStream} (d : Direction) (seq : UInt64) {plaintext : Bytes}
  (room : s.Fits plaintext.length)

theorem length_sealWith : (sealWith mac s d seq plaintext room).1.ciphertext.length = plaintext.length :=
  length_xorBurnPad (s := (s.takeMacKey room.zero).rest) room

theorem padOffset_sealWith : (sealWith mac s d seq plaintext room).1.padOffset.toNat = s.cursor := by
  have bound := room.bound
  have small : min s.cursor 65535 = s.cursor := by omega
  simp only [sealWith, PadStream.consumed, small]
  rw [UInt16.toNat_ofNat', Nat.mod_eq_of_lt (by omega)]

theorem bounded_sealWith (some_ : plaintext ≠ []) : (sealWith mac s d seq plaintext room).1.Bounded := by
  have bound := room.bound
  have long_ := length_sealWith mac d seq room
  have offset := padOffset_sealWith mac d seq room
  have positive := List.length_pos_iff.mpr some_
  simp only [macKeyLen] at bound
  constructor
  · rw [long_]
    exact positive
  · rw [long_, maxCiphertextLen]
    omega
  · rw [long_, offset, macKeyBound, padHalfWire]
    omega

/-- What was sealed on a stream, opened on the same stream. -/
theorem openWith_sealWith (fits : s.Fits (sealWith mac s d seq plaintext room).1.ciphertext.length) :
    openWith mac s (sealWith mac s d seq plaintext room).1 fits =
      (.ok plaintext, s.after plaintext.length room, s.use d plaintext.length) := by
  have long_ := length_sealWith mac d seq room
  have key : s.takeMacKey fits.zero = s.takeMacKey room.zero := rfl
  generalize sealed : (sealWith mac s d seq plaintext room).1 = r at *
  have check : ctEq16 (mac (s.takeMacKey fits.zero).value (macInput r.header r.ciphertext)) r.tag = true := by
    have tag : mac (s.takeMacKey fits.zero).value (macInput r.header r.ciphertext) = r.tag := by
      unfold OtpDataRecord.header
      rw [key, long_, ← sealed]
      rfl
    rw [tag]
    exact ctEq16_self r.tag
  have back : List.zipWith (· ^^^ ·) r.ciphertext
      ((s.takeMacKey fits.zero).rest.buf.val.drop (s.cursor + macKeyLen)) = plaintext := by
    have bound := room.bound
    rw [key, ← sealed]
    apply xor_xor
    simp only [PadStream.takeMacKey, List.length_drop, Exactly.length_val]
    omega
  have after : ∀ {l : Nat} (fits : s.Fits l), l = plaintext.length →
      s.after l fits = s.after plaintext.length room := by
    intro l fits same
    subst same
    rfl
  have use : (⟨r.direction, s.span s.cursor macKeyLen, s.span (s.cursor + macKeyLen) r.ciphertext.length⟩ : Use) =
      s.use d plaintext.length := by
    rw [long_, ← sealed]
    rfl
  unfold openWith
  dsimp only
  rw [if_neg (by simp [check])]
  exact Prod.ext (congrArg Except.ok back) (Prod.ext (after fits long_) use)

theorem openRecord_sealWith (some_ : plaintext ≠ []) :
    openRecord mac s ⟨d, s.bundleId, s.baseSegment, seq⟩ (sealWith mac s d seq plaintext room).1.encode =
      (.ok plaintext, s.after plaintext.length room, [s.use d plaintext.length]) := by
  have decoded := decode_encode (bounded_sealWith mac d seq room some_)
  have offset := padOffset_sealWith mac d seq room
  have fits : s.Fits (sealWith mac s d seq plaintext room).1.ciphertext.length := by
    rw [length_sealWith]
    exact room
  have direction : (sealWith mac s d seq plaintext room).1.direction = d := rfl
  have bundleId : (sealWith mac s d seq plaintext room).1.bundleId = s.bundleId := rfl
  have baseSegment : (sealWith mac s d seq plaintext room).1.baseSegment = s.baseSegment := rfl
  have recordSeq : (sealWith mac s d seq plaintext room).1.recordSeq = seq := rfl
  unfold openRecord
  rw [decoded]
  simp only [direction, bundleId, baseSegment, recordSeq, offset, PadStream.consumed, ne_eq, not_true_eq_false,
    or_self, if_false, UInt64.lt_irrefl]
  rw [dif_pos fits, openWith_sealWith mac d seq room fits]

end Sealed

/-! ## What one end knows of one direction -/

inductive Frame where
  | data (bytes : Bytes)
  | control (msg : PadControl)
  deriving DecidableEq, Repr

/-- Where an end is in a direction. -/
structure Position where
  bundleId : UInt64
  cursor : Nat
  seq : UInt64
  deriving DecidableEq, Repr

/-- What went through an end in a direction: the plaintexts, and where it was after each record. -/
structure Log where
  text : Bytes := []
  positions : List Position := []

def Log.extend (log : Log) (text : Bytes) (position : Position) : Log where
  text := log.text ++ text
  positions := log.positions ++ [position]

structure View where
  current : PadStream
  next : Option PadStream
  seq : UInt64
  log : Log

def View.holding (v : View) (next : Option PadStream) : View := { v with next }

def View.position (v : View) : Position := ⟨v.current.bundleId, v.current.cursor, v.seq⟩

/-- The end is where the last record left it. -/
def View.Placed (v : View) : Prop := v.position = v.log.positions.getLastD ⟨0, 0, 0⟩

/-- The view after a record that was taken from `s`. -/
def View.record (v : View) (s : PadStream) (next : Option PadStream) (plaintext : Bytes)
    (room : s.Fits plaintext.length) : View :=
  let after := s.after plaintext.length room
  { current := after
    next
    seq := v.seq + 1
    log := v.log.extend plaintext ⟨after.bundleId, after.cursor, v.seq + 1⟩ }

/-- The stream the next record may be taken from, and the next stream that is left then. -/
inductive Taken (current : PadStream) (next : Option PadStream) : PadStream → Option PadStream → Prop where
  | stays : Taken current next current next
  | switches (n : PadStream) (held : next = some n) (used : current.maxRecordLen = 0) : Taken current next n none

/-- The frames an end can take in direction `d`, and its view then. -/
inductive Reads (mac : MacKey → Bytes → Tag) (book : UInt64 → Bundle) (d : Direction) :
    View → Frame → View → Prop where
  | record {v : View} {s : PadStream} {next : Option PadStream} (stream : Taken v.current v.next s next)
      (plaintext : Bytes) (room : s.Fits plaintext.length) (some_ : plaintext ≠ [])
      (few : v.seq.toNat + 1 < 2 ^ 64) :
      Reads mac book d v (.data (sealWith mac s d v.seq plaintext room).1.encode)
        (v.record s next plaintext room)
  | offer (v : View) (bundleId base : UInt64) (server : d = .serverToClient) (free : v.next = none) :
      Reads mac book d v (.control (.padOffer bundleId base))
        (v.holding (some ((splitBundle bundleId base (book base)).get d)))
  | need (v : View) (client : d = .clientToServer) : Reads mac book d v (.control .padNeed) v
  | ack (v : View) (bundleId : UInt64) (client : d = .clientToServer) :
      Reads mac book d v (.control (.padAck bundleId)) v

namespace FullOtpPump

def position (p : FullOtpPump) (d : Direction) : Position :=
  ⟨(p.current d).bundleId, (p.current d).cursor, p.seqOf d⟩

def view (p : FullOtpPump) (d : Direction) (log : Log) : View := ⟨p.current d, p.next d, p.seqOf d, log⟩

/-- The bundles of a pump have consecutive numbers, and a next bundle is untouched. -/
structure Laid (p : FullOtpPump) : Prop where
  next : ∀ d n, p.next d = some n →
    n.bundleId = (p.current d).bundleId + 1 ∧ p.nextBundleId = n.bundleId + 1 ∧ n.cursor = 0
  top : ∀ d, p.next d = none → p.nextBundleId = (p.current d).bundleId + 1

end FullOtpPump

/-- What a data call in direction `d` leaves alone. -/
structure Moves (p q : FullOtpPump) (d : Direction) : Prop where
  role : q.role = p.role
  closed : q.closed = false
  nextBundleId : q.nextBundleId = p.nextBundleId
  pendingAck : q.pendingAck = p.pendingAck
  plane : q.planes.get d.opposite = p.planes.get d.opposite
  seq : q.seqOf d.opposite = p.seqOf d.opposite
  fewer : q.next d = p.next d ∨ q.next d = none
  acked : q.nextAcked = p.nextAcked ∨ q.nextAcked = false ∧ ∀ d, q.next d = none

/-- A data call in direction `d` took a record of `plaintext`. -/
structure Advances (p q : FullOtpPump) (d : Direction) (plaintext : Bytes) (s : PadStream)
    (next : Option PadStream) (room : s.Fits plaintext.length) : Prop where
  moves : Moves p q d
  laid : q.Laid
  stream : Taken (p.current d) (p.next d) s next
  current : q.current d = s.after plaintext.length room
  next : q.next d = next
  seq : q.seqOf d = p.seqOf d + 1

section Advance

variable {mac : MacKey → Bytes → Tag} {p : FullOtpPump}

/-- The pump after a record is counted, on the stream it has. -/
theorem laid_recorded (laid : p.Laid) (d : Direction) {l : Nat} (room : (p.current d).Fits l) :
    (p.recorded d l room).Laid := by
  have same : ∀ d', (p.recorded d l room).next d' = p.next d' ∧
      ((p.recorded d l room).current d').bundleId = (p.current d').bundleId := by
    intro d'
    by_cases here : d' = d
    · subst here
      rw [FullOtpPump.current_recorded]
      exact ⟨by simp [FullOtpPump.next, FullOtpPump.recorded, FullOtpPump.putCurrent], rfl⟩
    · simp [FullOtpPump.next, FullOtpPump.current, FullOtpPump.recorded, FullOtpPump.putCurrent,
        PerDirection.get_set_other _ _ here]
  constructor
  · intro d' n held
    obtain ⟨next, bundleId⟩ := same d'
    rw [next] at held
    rw [bundleId]
    exact laid.next d' n held
  · intro d' none_
    obtain ⟨next, bundleId⟩ := same d'
    rw [next] at none_
    rw [bundleId]
    exact laid.top d' none_

theorem current_switchTo (p : FullOtpPump) (d : Direction) (n : PadStream) : (p.switchTo d n).current d = n := by
  simp [FullOtpPump.current, FullOtpPump.switchTo, PadStream.retireInto]

theorem next_switchTo (p : FullOtpPump) (d : Direction) (n : PadStream) : (p.switchTo d n).next d = none := by
  simp [FullOtpPump.next, FullOtpPump.switchTo]

theorem plane_switchTo (p : FullOtpPump) {d d' : Direction} (other : d' ≠ d) (n : PadStream) :
    (p.switchTo d n).planes.get d' = p.planes.get d' := by
  simp only [FullOtpPump.switchTo, FullOtpPump.refresh_planes, PerDirection.get_set_other _ _ other]

theorem nextBundleId_switchTo (p : FullOtpPump) (d : Direction) (n : PadStream) :
    (p.switchTo d n).nextBundleId = p.nextBundleId ∧ (p.switchTo d n).pendingAck = p.pendingAck := by
  unfold FullOtpPump.switchTo FullOtpPump.refreshAckStateAfterSwitch
  dsimp only
  split <;> exact ⟨rfl, rfl⟩

theorem acked_switchTo (p : FullOtpPump) (d : Direction) (n : PadStream) :
    (p.switchTo d n).nextAcked = p.nextAcked ∨
      (p.switchTo d n).nextAcked = false ∧ ∀ d', (p.switchTo d n).next d' = none := by
  unfold FullOtpPump.switchTo FullOtpPump.refreshAckStateAfterSwitch
  dsimp only
  split
  · rename_i empty
    rw [Bool.and_eq_true, Option.isNone_iff_eq_none, Option.isNone_iff_eq_none] at empty
    refine .inr ⟨rfl, ?_⟩
    intro d'
    cases d'
    · exact empty.1
    · exact empty.2
  · exact .inl rfl

theorem laid_switchTo (laid : p.Laid) {d : Direction} {n : PadStream} (held : p.next d = some n) :
    (p.switchTo d n).Laid := by
  obtain ⟨number, -⟩ := nextBundleId_switchTo p d n
  constructor
  · intro d' n' held'
    by_cases here : d' = d
    · subst here
      rw [next_switchTo] at held'
      exact absurd held' nofun
    · have plane := plane_switchTo p here n
      unfold FullOtpPump.next FullOtpPump.current at *
      rw [plane] at held' ⊢
      rw [number]
      exact laid.next d' n' held'
  · intro d' none_
    rw [number]
    by_cases here : d' = d
    · subst here
      rw [current_switchTo]
      exact (laid.next d' n held).2.1
    · have plane := plane_switchTo p here n
      unfold FullOtpPump.next FullOtpPump.current at *
      rw [plane] at none_ ⊢
      exact laid.top d' none_

/-- A record on the stream the pump has. -/
theorem advances_recorded {q : FullOtpPump} {d : Direction} {plaintext : Bytes} (active : p.closed = false)
    (laid : p.Laid) (room : (p.current d).Fits plaintext.length) (role : q.role = p.role)
    (closed : q.closed = p.closed) (nextBundleId : q.nextBundleId = p.nextBundleId)
    (pendingAck : q.pendingAck = p.pendingAck) (nextAcked : q.nextAcked = p.nextAcked)
    (planes : q.planes = (p.recorded d plaintext.length room).planes)
    (seq : q.seqOf d = p.seqOf d + 1) (other : q.seqOf d.opposite = p.seqOf d.opposite) :
    Advances p q d plaintext (p.current d) (p.next d) room := by
  have next : q.next = (p.recorded d plaintext.length room).next := by
    funext d'
    exact congrArg (fun planes => (PerDirection.get planes d').next) planes
  have current : q.current = (p.recorded d plaintext.length room).current := by
    funext d'
    exact congrArg (fun planes => (PerDirection.get planes d').current) planes
  have same : (p.recorded d plaintext.length room).next d = p.next d := by
    simp [FullOtpPump.next, FullOtpPump.recorded, FullOtpPump.putCurrent]
  have kept := laid_recorded laid d room
  constructor
  · constructor
    · exact role
    · exact closed.trans active
    · exact nextBundleId
    · exact pendingAck
    · rw [planes]
      exact PerDirection.get_set_opposite _ _ _
    · exact other
    · rw [next]
      exact .inl same
    · exact .inl nextAcked
  · constructor
    · rw [next, current, nextBundleId]
      exact kept.next
    · rw [next, current, nextBundleId]
      exact kept.top
  · exact .stays
  · rw [current, FullOtpPump.current_recorded]
  · rw [next]
    exact same
  · exact seq

theorem Moves.after_switch {q : FullOtpPump} {d : Direction} {n : PadStream}
    (moves : Moves (p.switchTo d n) q d) : Moves p q d := by
  obtain ⟨role, -, send, recv, -⟩ := p.switchTo_numbers d n
  obtain ⟨nextBundleId, pendingAck⟩ := nextBundleId_switchTo p d n
  have plane := plane_switchTo p (Direction.opposite_ne d) n
  have gone : q.next d = none := by
    rcases moves.fewer with same | none_
    · rw [same, next_switchTo]
    · exact none_
  constructor
  · exact moves.role.trans role
  · exact moves.closed
  · exact moves.nextBundleId.trans nextBundleId
  · exact moves.pendingAck.trans pendingAck
  · exact moves.plane.trans plane
  · rw [moves.seq, seqOf_congr role send recv]
  · exact .inr gone
  · rcases moves.acked with same | reset
    · rw [same]
      refine (acked_switchTo p d n).imp_right ?_
      rintro ⟨reset, empty⟩
      refine ⟨reset, ?_⟩
      intro d'
      rcases Direction.eq_or_opposite d d' with rfl | rfl
      · exact gone
      · unfold FullOtpPump.next
        rw [moves.plane]
        exact empty d.opposite
    · exact .inr reset

theorem Advances.after_switch {q : FullOtpPump} {d : Direction} {n : PadStream} {plaintext : Bytes}
    {room : ((p.switchTo d n).current d).Fits plaintext.length} (held : p.next d = some n)
    (used : (p.current d).maxRecordLen = 0)
    (advances : Advances (p.switchTo d n) q d plaintext ((p.switchTo d n).current d)
      ((p.switchTo d n).next d) room) :
    Advances p q d plaintext ((p.switchTo d n).current d) none room := by
  obtain ⟨role, -, send, recv, -⟩ := p.switchTo_numbers d n
  constructor
  · exact advances.moves.after_switch
  · exact advances.laid
  · rw [current_switchTo]
    exact .switches n held used
  · exact advances.current
  · rw [advances.next, next_switchTo]
  · rw [advances.seq, seqOf_congr role send recv]

/-! ### `send` -/

theorem counted_of_few {seq : UInt64} (few : seq.toNat + 1 < 2 ^ 64) : checkedAdd seq 1 = some (seq + 1) :=
  if_pos few

/-- A part of the plaintext on a stream with room: a record. -/
theorem sendRecord_spec (mac : MacKey → Bytes → Tag) (active : p.closed = false) (laid : p.Laid) (few : p.sendSeq.toNat + 1 < 2 ^ 64)
    {part : Bytes} (some_ : part ≠ []) (room : (p.current p.sendDir).Fits part.length)
    (dropped : List PadStream) :
    ∃ need, (p.sendRecord mac part dropped).result =
        .ok (.record (sealWith mac (p.current p.sendDir) p.sendDir p.sendSeq part room).1 part.length need) ∧
      Advances p (p.sendRecord mac part dropped).pump p.sendDir part (p.current p.sendDir)
        (p.next p.sendDir) room := by
  rcases p.sendRecord_cases mac part dropped with
    ⟨empty | small, -⟩ | ⟨room, record, -, -, rfl, ⟨last, -⟩ | ⟨seq, counted, sealed⟩⟩
  · exact absurd (List.length_eq_zero_iff.mp empty) some_
  · exact absurd room small
  · rw [counted_of_few few] at last
    exact absurd last nofun
  · obtain rfl : p.sendSeq + 1 = seq := Option.some.inj ((counted_of_few few).symm.trans counted)
    rw [sealed]
    refine ⟨_, rfl, advances_recorded active laid room rfl rfl rfl rfl rfl rfl ?_ ?_⟩
    · rw [seqOf_sendDir]
      exact if_pos rfl
    · exact (if_neg (Direction.opposite_ne p.sendDir)).trans (if_neg (Direction.opposite_ne p.sendDir)).symm

/-- The part `send` seals is not empty and fits. -/
theorem part_fits {plaintext : Bytes} (some_ : plaintext ≠ []) (left : (p.current p.sendDir).maxRecordLen ≠ 0) :
    p.part plaintext ≠ [] ∧ p.part plaintext = plaintext.take (p.current p.sendDir).maxRecordLen ∧
      (p.current p.sendDir).Fits (p.part plaintext).length := by
  have positive := List.length_pos_iff.mpr some_
  have front : p.part plaintext = plaintext.take (p.current p.sendDir).maxRecordLen := by
    unfold FullOtpPump.part
    rw [List.take_eq_take_iff]
    omega
  have long_ : (p.part plaintext).length = min (p.current p.sendDir).maxRecordLen plaintext.length := by
    rw [front, List.length_take]
  refine ⟨?_, front, ?_⟩
  · apply List.length_pos_iff.mp
    omega
  · apply PadStream.fits_of_le_maxRecordLen <;> omega

/-- **What `send` does on an honest pump**: wait and change nothing, or return a record. -/
theorem send_spec (mac : MacKey → Bytes → Tag) (active : p.closed = false) (laid : p.Laid)
    (few : p.sendSeq.toNat + 1 < 2 ^ 64) {plaintext : Bytes} (some_ : plaintext ≠ []) :
    (p.send mac plaintext = { result := .ok .backpressure, pump := p } ∧
      (p.current p.sendDir).maxRecordLen = 0 ∧ p.nextReadyForSend p.sendDir = false) ∨
    ∃ (s : PadStream) (next : Option PadStream) (part : Bytes) (room : s.Fits part.length) (need : Bool),
      part ≠ [] ∧ part = plaintext.take s.maxRecordLen ∧
      (p.send mac plaintext).result =
        .ok (.record (sealWith mac s p.sendDir p.sendSeq part room).1 part.length need) ∧
      Advances p (p.send mac plaintext).pump p.sendDir part s next room ∧
      (next = p.next p.sendDir ∨ p.nextReadyForSend p.sendDir = true) := by
  unfold FullOtpPump.send
  rw [if_neg (by simp [active]), if_neg some_]
  rcases p.switchForSend_cases p.sendDir with
    ⟨left, stays⟩ | ⟨used, n, ready, held, switches⟩ | ⟨used, waits, none_⟩
  · rw [stays]
    right
    obtain ⟨filled, prefix_, room⟩ := part_fits some_ left
    obtain ⟨need, result, advances⟩ := sendRecord_spec mac active laid few filled room []
    exact ⟨_, _, _, room, need, filled, prefix_, result, advances, .inl rfl⟩
  · rw [switches]
    right
    obtain ⟨role, closed, send, -, -⟩ := p.switchTo_numbers p.sendDir n
    have dir : (p.switchTo p.sendDir n).sendDir = p.sendDir := congrArg Role.sendDirection role
    have fresh : (p.switchTo p.sendDir n).current p.sendDir = n := current_switchTo p p.sendDir n
    have left : ((p.switchTo p.sendDir n).current (p.switchTo p.sendDir n).sendDir).maxRecordLen ≠ 0 := by
      have untouched := (laid.next _ n held).2.2
      rw [dir, fresh]
      simp only [PadStream.maxRecordLen, PadStream.remaining, untouched, padHalf, macKeyLen, maxCiphertextLen]
      decide
    obtain ⟨filled, prefix_, room⟩ := part_fits some_ left
    obtain ⟨need, result, advances⟩ := sendRecord_spec mac (closed.trans active)
      (laid_switchTo laid held) (by rwa [send]) filled room [p.retired p.sendDir n]
    rw [send] at result
    generalize (p.switchTo p.sendDir n).sendDir = d at *
    subst dir
    exact ⟨_, _, _, room, need, filled, prefix_, result, advances.after_switch held used, .inr ready⟩
  · rw [none_]
    exact .inl ⟨rfl, used, waits⟩

/-- **Backpressure changes nothing**, on any pump. -/
theorem backpressure_unchanged {plaintext : Bytes} (waits : (p.send mac plaintext).result = .ok .backpressure) :
    p.send mac plaintext = { result := .ok .backpressure, pump := p } := by
  have record : ∀ (q : FullOtpPump) (part : Bytes) (dropped : List PadStream),
      (q.sendRecord mac part dropped).result ≠ .ok .backpressure := by
    intro q part dropped
    rcases q.sendRecord_cases mac part dropped with
      ⟨-, refused⟩ | ⟨room, record, -, -, -, ⟨-, full⟩ | ⟨seq, -, sealed⟩⟩
    · rw [refused]
      exact nofun
    · rw [full]
      exact nofun
    · rw [sealed]
      exact nofun
  revert waits
  unfold FullOtpPump.send
  split
  · exact nofun
  split
  · exact nofun
  split
  · intro _
    rfl
  · intro waits
    exact absurd waits (record _ _ _)

/-! ### `receive` -/

theorem u64_ne_add_one (x : UInt64) : x ≠ x + 1 := by
  intro same
  have values := congrArg UInt64.toNat same
  have small := x.toNat_lt
  rw [UInt64.toNat_add] at values
  have one : (1 : UInt64).toNat = 1 := rfl
  omega

/-- A record that was sealed on the stream the pump has. -/
theorem receiveRecord_spec (mac : MacKey → Bytes → Tag) (active : p.closed = false) (laid : p.Laid)
    {seq : UInt64} (expected : p.recvSeq = seq) (few : seq.toNat + 1 < 2 ^ 64) {s : PadStream}
    (here : p.current p.recvDir = s) {plaintext : Bytes} (some_ : plaintext ≠ [])
    (room : s.Fits plaintext.length) (dropped : List PadStream) :
    let turn := p.receiveRecord mac (sealWith mac s p.recvDir seq plaintext room).1.encode
      (sealWith mac s p.recvDir seq plaintext room).1.ciphertext.length dropped
    ∃ need, turn.result = .ok ⟨plaintext, need⟩ ∧
      Advances p turn.pump p.recvDir plaintext s (p.next p.recvDir) room := by
  subst here
  subst expected
  have opened : openRecord mac (p.current p.recvDir) p.expectation
      (sealWith mac (p.current p.recvDir) p.recvDir p.recvSeq plaintext room).1.encode = _ :=
    openRecord_sealWith mac p.recvDir p.recvSeq room some_
  unfold FullOtpPump.receiveRecord
  dsimp only
  rw [opened, counted_of_few few]
  refine ⟨_, rfl, advances_recorded active laid room rfl rfl rfl rfl rfl rfl ?_ ?_⟩
  · rw [seqOf_recvDir]
    exact if_neg (Direction.opposite_ne p.sendDir)
  · unfold FullOtpPump.recvDir
    rw [Direction.opposite_opposite, seqOf_sendDir]
    exact if_pos rfl

/-- **What `receive` does with a frame that can be read**: it delivers the plaintext. -/
theorem receive_spec (mac : MacKey → Bytes → Tag) (active : p.closed = false) (laid : p.Laid)
    (few : p.recvSeq.toNat + 1 < 2 ^ 64) {s : PadStream} {next : Option PadStream}
    (stream : Taken (p.current p.recvDir) (p.next p.recvDir) s next) {plaintext : Bytes}
    (some_ : plaintext ≠ []) (room : s.Fits plaintext.length) :
    let turn := p.receive mac (sealWith mac s p.recvDir p.recvSeq plaintext room).1.encode
    ∃ need, turn.result = .ok ⟨plaintext, need⟩ ∧
      Advances p turn.pump p.recvDir plaintext s next room := by
  have decoded := decode_encode (bounded_sealWith mac p.recvDir p.recvSeq room some_)
  have direction : (sealWith mac s p.recvDir p.recvSeq plaintext room).1.direction = p.recvDir := rfl
  have bundleId : (sealWith mac s p.recvDir p.recvSeq plaintext room).1.bundleId = s.bundleId := rfl
  unfold FullOtpPump.receive
  rw [if_neg (by simp [active]), decoded]
  dsimp only
  rw [if_neg (not_not.mpr direction), bundleId]
  cases stream with
  | stays =>
      rcases p.switchForReceive_cases p.recvDir (p.current p.recvDir).bundleId with
        ⟨-, stays⟩ | ⟨after, -⟩ | ⟨after, -⟩
      · rw [stays]
        exact receiveRecord_spec mac active laid rfl few rfl some_ room []
      · exact absurd after (u64_ne_add_one _)
      · exact absurd after (u64_ne_add_one _)
  | switches n held used =>
      have number := (laid.next _ s held).1
      rcases p.switchForReceive_cases p.recvDir s.bundleId with
        ⟨other, -⟩ | ⟨-, n, held', -, switches⟩ | ⟨-, lacks, -⟩
      · exact absurd number other
      · obtain rfl : s = n := Option.some.inj (held.symm.trans held')
        rw [switches]
        obtain ⟨role, closed, -, recv, -⟩ := p.switchTo_numbers p.recvDir s
        have dir : (p.switchTo p.recvDir s).recvDir = p.recvDir :=
          congrArg (fun role => role.sendDirection.opposite) role
        have fresh : (p.switchTo p.recvDir s).current (p.switchTo p.recvDir s).recvDir = s := by
          rw [dir]
          exact current_switchTo p p.recvDir s
        obtain ⟨need, result, advances⟩ := receiveRecord_spec mac (closed.trans active)
          (laid_switchTo laid held) recv few fresh some_ room [p.retired p.recvDir s]
        rw [dir] at result advances
        refine ⟨need, result, ?_⟩
        constructor
        · exact advances.moves.after_switch
        · exact advances.laid
        · exact .switches s held used
        · exact advances.current
        · rw [advances.next, next_switchTo]
        · obtain ⟨role, -, send, recv, -⟩ := p.switchTo_numbers p.recvDir s
          rw [advances.seq, seqOf_congr role send recv]
      · exact absurd rfl (lacks s held)

end Advance

end Jbuu.FullOtp
