/-
# FullOtp.Accounting — every pad byte is used at most once

A pump behind any calls, with a ghost of what it took from the pads, the bundles it was
granted and the records it returned. A call that is granted nothing only moves bytes from
held to spent, or loses some (`Accounted`); a granted bundle adds its bytes to what is
held. So what was spent never exceeds what was granted (`Conserved`), and where the source
hands out disjoint ranges no byte was taken twice (`pad_bytes_used_once`).
-/
import Jbuu.Library.Runs
import Jbuu.FullOtp.FailClosed

namespace Jbuu.FullOtp

set_option autoImplicit false

open Jbuu.Library.BigEndian (Bytes Exactly)
open Jbuu.Library

/-! ## What a pump holds -/

def DirPlane.held (plane : DirPlane) : Multiset Nat := (plane.streams.map (·.held)).sum

namespace FullOtpPump

def held (p : FullOtpPump) : Multiset Nat := p.planes.c2s.held + p.planes.s2c.held

/-- The consumed part of every stream reads as zero. -/
def Burned (p : FullOtpPump) : Prop := ∀ d, ∀ s ∈ (p.planes.get d).streams, s.Burned

end FullOtpPump

/-- All that the record took lies in the stream. -/
def Use.Inside (u : Use) (s : PadStream) : Prop :=
  u.key.Within (s.span 0 4096) ∧ u.pad.Within (s.span 0 4096)

/-- What a call may do to a pump that is granted nothing: `uses` is what it took. -/
structure Accounted (p q : FullOtpPump) (uses : List Use) : Prop where
  moved : spent uses + q.held ≤ p.held
  burned : p.Burned → q.Burned
  based : ∀ d, ∀ s ∈ (q.planes.get d).streams,
    ∃ s' ∈ (p.planes.get d).streams, s.baseSegment = s'.baseSegment
  inside : ∀ u ∈ uses, ∃ s ∈ (p.planes.get u.direction).streams, u.Inside s

namespace Accounted

variable {p q r : FullOtpPump} {uses more : List Use}

theorem of_planes (same : q.planes = p.planes) : Accounted p q [] where
  moved := by
    unfold FullOtpPump.held
    rw [same]
    simp [spent]
  burned zero := by
    unfold FullOtpPump.Burned
    rwa [same]
  based d s mem := ⟨s, same ▸ mem, rfl⟩
  inside := nofun

theorem refl (p : FullOtpPump) : Accounted p p [] := of_planes rfl

theorem trans (first : Accounted p q uses) (then_ : Accounted q r more) :
    Accounted p r (uses ++ more) where
  moved := by
    have both : spent (uses ++ more) = spent uses + spent more := by
      simp [spent]
    rw [both, add_assoc]
    exact (Multiset.add_le_add_iff_left.mpr then_.moved).trans first.moved
  burned zero := then_.burned (first.burned zero)
  based d s mem := by
    obtain ⟨s', mem', same⟩ := then_.based d s mem
    obtain ⟨s'', mem'', same'⟩ := first.based d s' mem'
    exact ⟨s'', mem'', same.trans same'⟩
  inside u mem := by
    rcases List.mem_append.mp mem with old | new
    · exact first.inside u old
    · obtain ⟨s, held, key, pad⟩ := then_.inside u new
      obtain ⟨s', held', same⟩ := first.based u.direction s held
      have span : s.span 0 4096 = s'.span 0 4096 := by
        unfold PadStream.span
        rw [same]
      exact ⟨s', held', span ▸ key, span ▸ pad⟩

/-- A step that keeps the planes may follow. -/
theorem then_planes (first : Accounted p q uses) (same : r.planes = q.planes) : Accounted p r uses := by
  have whole := first.trans (of_planes same)
  rwa [List.append_nil] at whole

end Accounted

/-! ### The moves -/

section Moves

variable {p : FullOtpPump} {d : Direction}

theorem held_set (planes : PerDirection DirPlane) (d : Direction) (plane : DirPlane) :
    (planes.set d plane).c2s.held + (planes.set d plane).s2c.held =
      plane.held + (planes.get d.opposite).held := by
  cases d with
  | clientToServer => rfl
  | serverToClient => exact add_comm _ _

theorem held_eq (p : FullOtpPump) (d : Direction) :
    p.held = (p.planes.get d).held + (p.planes.get d.opposite).held := by
  cases d with
  | clientToServer => rfl
  | serverToClient => exact add_comm _ _

/-- A plane is replaced by one that holds less. -/
theorem accounted_set {plane : DirPlane} {q : FullOtpPump} {uses : List Use}
    (shape : q.planes = p.planes.set d plane) (moved : spent uses + plane.held ≤ (p.planes.get d).held)
    (burned : p.Burned → ∀ s ∈ plane.streams, s.Burned)
    (based : ∀ s ∈ plane.streams, ∃ s' ∈ (p.planes.get d).streams, s.baseSegment = s'.baseSegment)
    (inside : ∀ u ∈ uses, u.direction = d ∧ ∃ s ∈ (p.planes.get d).streams, u.Inside s) :
    Accounted p q uses where
  moved := by
    unfold FullOtpPump.held at *
    rw [shape, held_set, ← FullOtpPump.held, held_eq p d, ← add_assoc]
    exact Multiset.add_le_add_iff_right.mpr moved
  burned zero d' s mem := by
    rw [shape] at mem
    by_cases same : d' = d
    · subst same
      rw [PerDirection.get_set_same] at mem
      exact burned zero s mem
    · rw [PerDirection.get_set_other _ _ same] at mem
      exact zero d' s mem
  based d' s mem := by
    rw [shape] at mem
    by_cases same : d' = d
    · subst same
      rw [PerDirection.get_set_same] at mem
      exact based s mem
    · rw [PerDirection.get_set_other _ _ same] at mem
      exact ⟨s, mem, rfl⟩
  inside u mem := by
    obtain ⟨rfl, there⟩ := inside u mem
    exact there

theorem DirPlane.held_eq (plane : DirPlane) :
    plane.held = plane.current.held + (plane.next.toList.map (·.held)).sum := by
  simp [DirPlane.held, DirPlane.streams]

/-- The current stream gives way to the next one. -/
theorem accounted_switchTo {next : PadStream} (held : p.next d = some next) :
    Accounted p (p.switchTo d next) [] := by
  have there : next ∈ (p.planes.get d).streams :=
    List.mem_cons_of_mem _ (Option.mem_toList.mpr held)
  have before : (p.planes.get d).held = (p.current d).held + next.held := by
    have plane : (p.planes.get d).next = some next := held
    simp [DirPlane.held_eq, plane, FullOtpPump.current]
  have after : (⟨next, none⟩ : DirPlane).held = next.held := by
    simp [DirPlane.held_eq]
  refine accounted_set (d := d) (FullOtpPump.refresh_planes _) ?_ ?_ ?_ (by rintro _ ⟨⟩)
  · show (0 : Multiset Nat) + (⟨next, none⟩ : DirPlane).held ≤ _
    rw [before, after, zero_add]
    exact Multiset.le_add_left _ _
  · intro zero s mem
    obtain rfl : s = next := by simpa [DirPlane.streams, PadStream.retireInto] using mem
    exact zero d s there
  · intro s mem
    obtain rfl : s = next := by simpa [DirPlane.streams, PadStream.retireInto] using mem
    exact ⟨s, there, rfl⟩

theorem mem_current (p : FullOtpPump) (d : Direction) : p.current d ∈ (p.planes.get d).streams :=
  List.mem_cons_self

/-- A record takes the front of the current stream, and the pump goes on with the rest. -/
theorem accounted_putCurrent {stream : PadStream} {uses : List Use} (takes : Takes d (p.current d) uses)
    (leaves : Leaves (p.current d) stream uses) : Accounted p (p.putCurrent d stream) uses := by
  refine accounted_set (d := d) rfl ?_ ?_ ?_ ?_
  · simp only [DirPlane.held_eq, ← add_assoc]
    exact Multiset.add_le_add_iff_right.mpr leaves.moved
  · intro zero s mem
    rcases List.mem_cons.mp mem with rfl | mem
    · exact leaves.burned (zero d _ (mem_current p d))
    · exact zero d s (List.mem_cons_of_mem _ mem)
  · intro s mem
    rcases List.mem_cons.mp mem with rfl | mem
    · exact ⟨p.current d, mem_current p d, leaves.baseSegment⟩
    · exact ⟨s, List.mem_cons_of_mem _ mem, rfl⟩
  · intro u mem
    obtain ⟨direction, within⟩ := takes.within u mem
    exact ⟨direction, p.current d, mem_current p d, within⟩

theorem held_fail (p : FullOtpPump) : p.fail.held = 0 := by
  simp [FullOtpPump.held, DirPlane.held_eq, FullOtpPump.fail, FullOtpPump.failWasteAll,
    DirPlane.wasteAll, PadStream.held_waste]

theorem streams_fail {s : PadStream} (mem : s ∈ (p.fail.planes.get d).streams) :
    s = (p.current d).waste := by
  cases d <;> simpa [FullOtpPump.fail, FullOtpPump.failWasteAll, DirPlane.wasteAll, DirPlane.streams,
    FullOtpPump.current, PerDirection.get] using mem

/-- A record that is refused may have taken something; then everything is wasted. -/
theorem accounted_fail {stream : PadStream} {uses : List Use} (takes : Takes d (p.current d) uses)
    (base : stream.baseSegment = (p.current d).baseSegment) :
    Accounted p (p.putCurrent d stream).fail uses where
  moved := by
    have part : (p.current d).held ≤ p.held := by
      rw [held_eq p d, DirPlane.held_eq, add_assoc]
      exact Multiset.le_add_right _ _
    rw [held_fail, add_zero]
    exact takes.moved.trans part
  burned _ d' s mem := by
    rw [streams_fail mem]
    exact PadStream.burned_waste _
  based d' s mem := by
    refine ⟨p.current d', mem_current p d', ?_⟩
    rw [streams_fail mem]
    show ((p.putCurrent d stream).current d').baseSegment = _
    by_cases same : d' = d
    · subst same
      simpa [FullOtpPump.current, FullOtpPump.putCurrent] using base
    · simp only [FullOtpPump.current, FullOtpPump.putCurrent, PerDirection.get_set_other _ _ same]
  inside u mem := by
    obtain ⟨rfl, within⟩ := takes.within u mem
    exact ⟨p.current u.direction, mem_current p _, within⟩

theorem accounted_fail_idle (p : FullOtpPump) : Accounted p p.fail [] := by
  have same : (p.putCurrent .clientToServer (p.current .clientToServer)).fail = p.fail := by
    rfl
  rw [← same]
  exact accounted_fail (.none _ _) rfl

end Moves

/-! ### The calls -/

section Calls

variable {mac : MacKey → Bytes → Tag} {p : FullOtpPump}

theorem accounted_sendRecord (part : Bytes) (dropped : List PadStream) :
    let turn := p.sendRecord mac part dropped
    Accounted p turn.pump turn.trail.uses := by
  obtain ⟨takes, leaves⟩ := took_sealRecord mac (s := p.current p.sendDir) p.sendDir p.sendSeq
    part
  unfold FullOtpPump.sendRecord
  dsimp only
  split
  · exact accounted_fail takes leaves.baseSegment
  split
  · exact accounted_fail takes leaves.baseSegment
  · exact (accounted_putCurrent takes leaves).then_planes rfl

theorem accounted_send (plaintext : Bytes) :
    let turn := p.send mac plaintext
    Accounted p turn.pump turn.trail.uses := by
  unfold FullOtpPump.send
  split
  · exact .refl p
  split
  · exact .refl p
  rcases p.switchForSend_cases p.sendDir with ⟨-, stays⟩ | ⟨-, next, -, held, switches⟩ | ⟨-, -, waits⟩
  · rw [stays]
    exact accounted_sendRecord _ []
  · rw [switches]
    exact (accounted_switchTo held).trans (accounted_sendRecord _ _)
  · rw [waits]
    exact .refl p

theorem accounted_receiveRecord (frame : Bytes) (l : Nat) (dropped : List PadStream) :
    let turn := p.receiveRecord mac frame l dropped
    Accounted p turn.pump turn.trail.uses := by
  obtain ⟨takes, leaves⟩ := took_openRecord mac (s := p.current p.recvDir)
    p.expectation frame
  have base := (openRecord_stream mac (p.current p.recvDir) p.expectation frame).2
  unfold FullOtpPump.receiveRecord
  dsimp only
  split
  · exact accounted_fail takes base
  · rename_i plaintext opened
    split
    · exact (accounted_fail takes base).then_planes rfl
    · exact (accounted_putCurrent takes (leaves plaintext opened)).then_planes rfl

theorem accounted_receive (frame : Bytes) :
    let turn := p.receive mac frame
    Accounted p turn.pump turn.trail.uses := by
  unfold FullOtpPump.receive
  split
  · exact .refl p
  split
  · exact .refl p
  rename_i peek _
  split
  · exact accounted_fail_idle p
  rcases p.switchForReceive_cases p.recvDir peek.bundleId with
    ⟨-, stays⟩ | ⟨-, next, held, -, switches⟩ | ⟨-, -, lacks⟩
  · rw [stays]
    exact accounted_receiveRecord frame _ []
  · rw [switches]
    exact (accounted_switchTo held).trans (accounted_receiveRecord frame _ _)
  · rw [lacks]
    exact accounted_fail_idle p

end Calls

/-! ## Counting records -/

/-- The records that were sealed or verified in a direction: what took a pad. -/
def records (d : Direction) (uses : List Use) : Nat :=
  (uses.filter fun u => u.direction = d ∧ u.pad ≠ .empty).length

theorem records_append (d : Direction) (uses more : List Use) :
    records d (uses ++ more) = records d uses + records d more := by
  simp [records]

theorem records_of_no_pad {uses : List Use} (none_ : ∀ u ∈ uses, u.pad = .empty) (d : Direction) :
    records d uses = 0 := by
  simp only [records, List.length_eq_zero_iff, List.filter_eq_nil_iff]
  intro u mem
  simp [none_ u mem]

theorem records_use (s : PadStream) (d d' : Direction) (l : Nat) :
    records d' [s.use d l] = if d = d' then 1 else 0 := by
  have some_ : (s.use d l).pad ≠ .empty := by
    intro same
    have first := congrArg Span.first same
    simp [PadStream.use, PadStream.span, macKeyLen, Span.empty] at first
  have direction : (s.use d l).direction = d := rfl
  by_cases here : d = d'
  · subst here
    simp [records, direction, some_]
  · simp [records, direction, here]

/-- The next sequence number of a direction, on this side. -/
def FullOtpPump.seqOf (p : FullOtpPump) (d : Direction) : UInt64 :=
  if d = p.sendDir then p.sendSeq else p.recvSeq

/-- What a call does to sequence numbers and to the account: `got` are the lengths of the
records it returned. -/
structure Tallied (p q : FullOtpPump) (uses : List Use) (got : Direction → List Nat) : Prop where
  role : q.role = p.role
  seqs : q.closed = false → p.closed = false ∧
    ∀ d, (q.seqOf d).toNat = (p.seqOf d).toNat + records d uses
  consumed : ∀ d, (p.closed = false → (p.seqOf d).toNat + records d uses < 2 ^ 64) →
    q.sessionConsumed.get d = p.sessionConsumed.get d + ((got d).map (macKeyLen + ·)).sum

section Tally

variable {p q : FullOtpPump} {uses : List Use}

/-- A call that seals and verifies nothing. -/
theorem Tallied.idle (role : q.role = p.role)
    (seqs : q.closed = false → p.closed = false ∧ q.sendSeq = p.sendSeq ∧ q.recvSeq = p.recvSeq)
    (consumed : q.sessionConsumed = p.sessionConsumed) (none_ : ∀ d, records d uses = 0) :
    Tallied p q uses fun _ => [] where
  role := role
  seqs active := by
    obtain ⟨before, send, recv⟩ := seqs active
    refine ⟨before, ?_⟩
    intro d
    rw [none_, FullOtpPump.seqOf, FullOtpPump.seqOf, send, recv, FullOtpPump.sendDir, role]
    rfl
  consumed d _ := by rw [consumed]; rfl

/-- A call that fails before anything is sealed or verified. -/
theorem Tallied.fail (role : q.role = p.role) (consumed : q.sessionConsumed = p.sessionConsumed)
    (none_ : ∀ d, records d uses = 0) : Tallied p q.fail uses fun _ => [] :=
  .idle role nofun consumed none_

/-- One record in direction `d`, and a pump that goes on. -/
theorem Tallied.record (d : Direction) {s : PadStream} {l : Nat} (role : q.role = p.role)
    (active : p.closed = false) (same : ∀ d', d' ≠ d → q.seqOf d' = p.seqOf d')
    (counted : checkedAdd (p.seqOf d) 1 = some (q.seqOf d))
    (consumed : q.sessionConsumed =
      p.sessionConsumed.set d (p.sessionConsumed.get d + (macKeyLen + l))) :
    Tallied p q [s.use d l] fun d' => if d' = d then [l] else [] where
  role := role
  seqs _ := by
    refine ⟨active, ?_⟩
    intro d'
    rw [records_use]
    by_cases here : d' = d
    · subst here
      rw [if_pos rfl, (checkedAdd_eq_some.mp counted).2]
      rfl
    · rw [if_neg (Ne.symm here), same d' here]
      rfl
  consumed d' _ := by
    rw [consumed]
    by_cases here : d' = d
    · subst here
      simp
    · rw [PerDirection.get_set_other _ _ here, if_neg here]
      rfl

/-- The last record of a direction: the pump closes, whatever it has counted. -/
theorem Tallied.exhausted (d : Direction) {s : PadStream} {l : Nat} (role : q.role = p.role)
    (active : p.closed = false) (last : checkedAdd (p.seqOf d) 1 = none)
    (consumed : ∀ d', d' ≠ d → q.sessionConsumed.get d' = p.sessionConsumed.get d') :
    Tallied p q.fail [s.use d l] fun _ => [] where
  role := role
  seqs := nofun
  consumed d' few := by
    have small := few active
    rw [records_use] at small
    by_cases here : d' = d
    · subst here
      have full := checkedAdd_eq_none.mp last
      rw [if_pos rfl] at small
      exact absurd full (not_le.mpr small)
    · exact consumed d' here

/-- What a switch leaves as it is. -/
theorem FullOtpPump.switchTo_numbers (p : FullOtpPump) (d : Direction) (next : PadStream) :
    (p.switchTo d next).role = p.role ∧ (p.switchTo d next).closed = p.closed ∧
      (p.switchTo d next).sendSeq = p.sendSeq ∧ (p.switchTo d next).recvSeq = p.recvSeq ∧
      (p.switchTo d next).sessionConsumed = p.sessionConsumed := by
  unfold FullOtpPump.switchTo FullOtpPump.refreshAckStateAfterSwitch
  dsimp only
  split <;> exact ⟨rfl, rfl, rfl, rfl, rfl⟩

theorem Tallied.after_switch {d : Direction} {next : PadStream} {got : Direction → List Nat}
    (tallied : Tallied (p.switchTo d next) q uses got) : Tallied p q uses got := by
  obtain ⟨role, closed, send, recv, consumed⟩ := p.switchTo_numbers d next
  have seqs : (p.switchTo d next).seqOf = p.seqOf := by
    funext d'
    unfold FullOtpPump.seqOf FullOtpPump.sendDir
    rw [role, send, recv]
  obtain ⟨role', seqs', consumed'⟩ := tallied
  rw [seqs, closed] at seqs' consumed'
  rw [consumed] at consumed'
  exact ⟨role'.trans role, seqs', consumed'⟩

end Tally

/-- The lengths of the records a reply hands out in a direction. -/
def PumpReply.lengths (role : Role) : PumpReply → Direction → List Nat
  | .sent (.ok (.record record _ _)) => fun d =>
      if d = role.sendDirection then [record.ciphertext.length] else []
  | .received (.ok r) => fun d =>
      if d = role.sendDirection.opposite then [r.plaintext.length] else []
  | _ => fun _ => []

theorem lengths_sent (role : Role) (record : OtpDataRecord) (n : Nat) (needPad : Bool) :
    PumpReply.lengths role (.sent (.ok (.record record n needPad))) =
      fun d => if d = role.sendDirection then [record.ciphertext.length] else [] := rfl

theorem lengths_received (role : Role) (r : Received) :
    PumpReply.lengths role (.received (.ok r)) =
      fun d => if d = role.sendDirection.opposite then [r.plaintext.length] else [] := rfl

section Calls

variable {mac : MacKey → Bytes → Tag} {p : FullOtpPump}

theorem seqOf_sendDir (p : FullOtpPump) : p.seqOf p.sendDir = p.sendSeq := if_pos rfl

theorem seqOf_recvDir (p : FullOtpPump) : p.seqOf p.recvDir = p.recvSeq :=
  if_neg (Direction.opposite_ne p.sendDir)

theorem seqOf_congr {p q : FullOtpPump} (role : q.role = p.role) (send : q.sendSeq = p.sendSeq)
    (recv : q.recvSeq = p.recvSeq) : q.seqOf = p.seqOf := by
  funext d
  unfold FullOtpPump.seqOf FullOtpPump.sendDir
  rw [role, send, recv]

theorem tallied_sendRecord (mac : MacKey → Bytes → Tag) (active : p.closed = false) (part : Bytes) (dropped : List PadStream) :
    let turn := p.sendRecord mac part dropped
    Tallied p turn.pump turn.trail.uses (PumpReply.lengths p.role (.sent turn.result)) := by
  rcases p.sendRecord_cases mac part dropped with
    ⟨-, refused⟩ | ⟨room, record, -, long_, -, ⟨last, full⟩ | ⟨seq, counted, sealed⟩⟩
  · rw [refused]
    exact .fail rfl rfl fun _ => rfl
  · rw [full]
    refine Tallied.exhausted p.sendDir rfl active ?_ fun _ _ => rfl
    rwa [seqOf_sendDir]
  · rw [sealed]
    have same : PumpReply.lengths p.role (.sent (.ok (.record record part.length
        ((p.current p.sendDir).after part.length room).belowLowWater))) =
        fun d => if d = p.sendDir then [part.length] else [] := by
      rw [lengths_sent, long_]
      rfl
    dsimp only
    rw [same]
    refine Tallied.record p.sendDir rfl active ?_ ?_ rfl
    · intro d other
      exact (if_neg other).trans (if_neg other).symm
    · rw [seqOf_sendDir, counted]
      exact congrArg some (if_pos rfl).symm

theorem tallied_receiveRecord (mac : MacKey → Bytes → Tag) (active : p.closed = false) {frame : Bytes} {peek : OtpDataRecord}
    (decoded : decode frame = .ok peek) (dropped : List PadStream) :
    let turn := p.receiveRecord mac frame peek.ciphertext.length dropped
    Tallied p turn.pump turn.trail.uses (PumpReply.lengths p.role (.received turn.result)) := by
  rcases p.receiveRecord_cases mac decoded dropped with
    ⟨e, stream, uses, none_, refused⟩ | ⟨room, plaintext, long_, ⟨last, full⟩ | ⟨seq, counted, opened⟩⟩
  · rw [refused]
    exact .fail rfl rfl (records_of_no_pad none_)
  · rw [full]
    refine Tallied.exhausted p.recvDir rfl active ?_ ?_
    · rwa [seqOf_recvDir]
    · intro d other
      exact PerDirection.get_set_other _ _ other
  · rw [opened]
    have same : PumpReply.lengths p.role (.received (.ok
        { plaintext, needPad := ((p.current p.recvDir).after peek.ciphertext.length room).belowLowWater })) =
        fun d => if d = p.recvDir then [peek.ciphertext.length] else [] := by
      rw [lengths_received, long_]
      rfl
    dsimp only
    rw [same]
    refine Tallied.record p.recvDir rfl active ?_ ?_ rfl
    · intro d other
      have send : d = p.sendDir := (Direction.eq_or_opposite p.sendDir d).resolve_right other
      exact (if_pos send).trans (if_pos send).symm
    · rw [seqOf_recvDir, counted]
      exact congrArg some (if_neg (Direction.opposite_ne p.sendDir)).symm

theorem tallied_send (plaintext : Bytes) :
    let turn := p.send mac plaintext
    Tallied p turn.pump turn.trail.uses (PumpReply.lengths p.role (.sent turn.result)) := by
  have idle : Tallied p p [] fun _ => [] :=
    .idle rfl (fun active => ⟨active, rfl, rfl⟩) rfl fun _ => rfl
  unfold FullOtpPump.send
  split
  · exact idle
  rename_i active
  replace active : p.closed = false := Bool.eq_false_of_not_eq_true active
  split
  · exact idle
  rcases p.switchForSend_cases p.sendDir with ⟨-, stays⟩ | ⟨-, next, -, held, switches⟩ | ⟨-, -, waits⟩
  · rw [stays]
    exact tallied_sendRecord mac active _ []
  · rw [switches]
    obtain ⟨role, closed, -⟩ := p.switchTo_numbers p.sendDir next
    have tallied := tallied_sendRecord mac (closed.trans active)
      ((p.switchTo p.sendDir next).part plaintext) [p.retired p.sendDir next]
    rw [role] at tallied
    exact tallied.after_switch
  · rw [waits]
    exact idle

theorem tallied_receive (frame : Bytes) :
    let turn := p.receive mac frame
    Tallied p turn.pump turn.trail.uses (PumpReply.lengths p.role (.received turn.result)) := by
  have idle : Tallied p p [] fun _ => [] :=
    .idle rfl (fun active => ⟨active, rfl, rfl⟩) rfl fun _ => rfl
  have fails : Tallied p p.fail [] fun _ => [] := .fail rfl rfl fun _ => rfl
  unfold FullOtpPump.receive
  split
  · exact idle
  rename_i active
  replace active : p.closed = false := Bool.eq_false_of_not_eq_true active
  split
  · exact idle
  rename_i peek decoded
  split
  · exact fails
  rcases p.switchForReceive_cases p.recvDir peek.bundleId with
    ⟨-, stays⟩ | ⟨-, next, held, -, switches⟩ | ⟨-, -, lacks⟩
  · rw [stays]
    exact tallied_receiveRecord mac active decoded []
  · rw [switches]
    obtain ⟨role, closed, -⟩ := p.switchTo_numbers p.recvDir next
    have tallied := tallied_receiveRecord mac (closed.trans active) decoded
      [p.retired p.recvDir next]
    rw [role] at tallied
    exact tallied.after_switch
  · rw [lacks]
    exact fails

end Calls

end Jbuu.FullOtp
