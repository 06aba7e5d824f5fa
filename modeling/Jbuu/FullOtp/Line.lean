/-
# FullOtp.Line — two pumps on one book, and everything on the line between them

A client's pump and a server's pump over the same book, behind any calls in any order: what
is sent, and whatever the line makes either end receive. `Seen` is what an observer of the
line has of a call. `Genuine` says of a call that accepted something that the other end made
it: a record that was sealed there, or an offer that was made there.

As long as all that is accepted is genuine, the two ends take their one-time keys where the
other's records begin (`Kept`): a reader's cursor is at the head of a half bundle or at the
end of a record that was sealed.
-/
import Jbuu.FullOtp.Masked

namespace Jbuu.FullOtp

set_option autoImplicit false

open Jbuu.Library.BigEndian (Bytes Exactly)
open Jbuu.Library

/-! ## What one call does -/

/-- What `send` takes, and what it leaves alone. -/
structure Sends (p : FullOtpPump) (turn : Turn (Except SendError SendOutcome)) : Prop where
  uses : ∀ u ∈ turn.trail.uses, u.direction = p.sendDir
  goes_on : turn.pump.closed = false → p.closed = false ∧
    turn.pump.planes.get p.recvDir = p.planes.get p.recvDir
  record : ∀ r n need, turn.result = .ok (.record r n need) →
    turn.trail.uses = [r.use] ∧ r.direction = p.sendDir ∧ decode r.encode = .ok r

/-- Where `receive` takes its key, and where it stands afterwards. -/
structure Receives (p : FullOtpPump) (frame : Bytes) (turn : Turn (Except OtpError Received)) : Prop where
  keys : ∀ u ∈ turn.trail.uses, p.closed = false ∧
    ∃ s ∈ (p.planes.get p.recvDir).streams, u.key = ⟨s.here, macKeyLen⟩
  goes_on : turn.pump.closed = false → p.closed = false ∧
    ∀ s' ∈ (turn.pump.planes.get p.recvDir).streams,
      (∃ s ∈ (p.planes.get p.recvDir).streams, s'.here = s.here) ∨
        ∃ r received, turn.result = .ok received ∧ decode frame = .ok r ∧
          s'.here = r.use.pad.first + r.use.pad.length

section Data

variable {mac : MacKey → Bytes → Tag} {p : FullOtpPump}

theorem FullOtpPump.recvDir_ne (p : FullOtpPump) : p.recvDir ≠ p.sendDir := Direction.opposite_ne p.sendDir

theorem sends_idle {result : Except SendError SendOutcome} (none_ : ∀ r n need, result ≠ .ok (.record r n need)) :
    Sends p { result, pump := p } where
  uses := by simp
  goes_on active := ⟨active, rfl⟩
  record r n need same := absurd same (none_ r n need)

theorem sends_sendRecord (active : p.closed = false) (part : Bytes) (dropped : List PadStream) :
    Sends p (p.sendRecord mac part dropped) := by
  rcases p.sendRecord_cases mac part dropped with
    ⟨-, refused⟩ | ⟨room, record, some_, -, shape, ⟨-, full⟩ | ⟨seq, -, sealed⟩⟩
  · rw [refused]
    exact ⟨by simp [FullOtpPump.failed], by rintro ⟨⟩, by rintro _ _ _ ⟨⟩⟩
  · rw [full]
    refine ⟨?_, by rintro ⟨⟩, by rintro _ _ _ ⟨⟩⟩
    intro u mem
    rw [List.mem_singleton.mp mem]
    rfl
  · rw [sealed]
    constructor
    · intro u mem
      rw [List.mem_singleton.mp mem]
      rfl
    · intro _
      exact ⟨active, PerDirection.get_set_other _ _ p.recvDir_ne⟩
    · intro r n need same
      injection same with outcome
      injection outcome with is
      subst is
      subst shape
      refine ⟨?_, rfl, ?_⟩
      · rw [use_sealWith]
      · exact decode_encode (bounded_sealWith mac _ _ room (List.length_pos_iff.mp (Nat.pos_of_ne_zero some_)))

theorem sends_send (plaintext : Bytes) : Sends p (p.send mac plaintext) := by
  unfold FullOtpPump.send
  split
  · exact sends_idle (by rintro _ _ _ ⟨⟩)
  rename_i active
  rw [Bool.not_eq_true] at active
  split
  · exact sends_idle (by rintro _ _ _ ⟨⟩)
  rcases p.switchForSend_cases p.sendDir with ⟨-, stays⟩ | ⟨-, n, -, -, switches⟩ | ⟨-, -, waits⟩
  · rw [stays]
    exact sends_sendRecord active _ []
  · rw [switches]
    obtain ⟨role, closed, -⟩ := p.switchTo_numbers p.sendDir n
    have dir : (p.switchTo p.sendDir n).sendDir = p.sendDir := congrArg Role.sendDirection role
    have read : (p.switchTo p.sendDir n).recvDir = p.recvDir := congrArg Direction.opposite dir
    have sends : Sends _ ((p.switchTo p.sendDir n).sendRecord mac _ _) := sends_sendRecord (closed.trans active)
      ((p.switchTo p.sendDir n).part plaintext) [p.retired p.sendDir n]
    obtain ⟨uses, goes_on, record⟩ := sends
    rw [dir] at uses record
    rw [read, plane_switchTo p p.recvDir_ne] at goes_on
    refine ⟨uses, ?_, record⟩
    intro still
    exact ⟨active, (goes_on still).2⟩
  · rw [waits]
    exact sends_idle (by rintro _ _ _ ⟨⟩)

/-- What a frame that is opened says of itself is where the stream stands. -/
theorem openRecord_use {s : PadStream} {d : Direction} {seq : UInt64} {frame plaintext : Bytes}
    (opened : (openRecord mac s ⟨d, s.bundleId, s.baseSegment, seq⟩ frame).1 = .ok plaintext) :
    ∃ (r : OtpDataRecord) (room : s.Fits r.ciphertext.length), decode frame = .ok r ∧
      r.use = s.use d r.ciphertext.length ∧
      (openRecord mac s ⟨d, s.bundleId, s.baseSegment, seq⟩ frame).2.1 = s.after r.ciphertext.length room := by
  revert opened
  unfold openRecord
  split
  · rintro ⟨⟩
  rename_i r decoded
  split
  · rintro ⟨⟩
  rename_i direction
  split
  · rintro ⟨⟩
  rename_i bundle
  split
  · rintro ⟨⟩
  split
  · rintro ⟨⟩
  split
  · rintro ⟨⟩
  rename_i offset
  rw [not_or, not_not, not_not] at bundle
  rw [not_not] at direction offset
  have use : r.use = s.use d r.ciphertext.length := by
    unfold OtpDataRecord.use PadStream.use PadStream.span
    rw [direction, bundle.2, offset]
    rfl
  split
  · rename_i room
    intro opened
    refine ⟨r, room, decoded, use, ?_⟩
    revert opened
    unfold openWith
    dsimp only
    split
    · rintro ⟨⟩
    · intro _
      rfl
  · rintro ⟨⟩

theorem openRecord_keys {s : PadStream} (expect : OpenExpectation) (frame : Bytes) :
    ∀ u ∈ (openRecord mac s expect frame).2.2, u.key = ⟨s.here, macKeyLen⟩ := by
  have none_ : ∀ u ∈ ([] : List Use), u.key = ⟨s.here, macKeyLen⟩ := by simp
  unfold openRecord
  split
  · exact none_
  split
  · exact none_
  split
  · exact none_
  split
  · exact none_
  split
  · exact none_
  split
  · exact none_
  split
  · intro u mem
    rw [List.mem_singleton.mp mem]
    unfold openWith
    dsimp only
    split <;> rfl
  · exact none_

/-- The address after a record is the end of what the record took. -/
theorem here_after {s : PadStream} {d : Direction} {l : Nat} (room : s.Fits l) :
    (s.after l room).here = (s.use d l).pad.first + (s.use d l).pad.length := by
  simp only [PadStream.here, PadStream.first, PadStream.after, PadStream.advance, PadStream.use, PadStream.span]
  omega

theorem receives_idle {frame : Bytes} {e : OtpError} : Receives p frame { result := .error e, pump := p } where
  keys := by simp
  goes_on active := ⟨active, fun s mem => .inl ⟨s, mem, rfl⟩⟩

theorem receives_failed {frame : Bytes} {e : OtpError} : Receives p frame (p.failed (.error e) {}) where
  keys := by simp [FullOtpPump.failed]
  goes_on := by rintro ⟨⟩

theorem receives_receiveRecord (active : p.closed = false) (frame : Bytes) (l : Nat) (dropped : List PadStream) :
    Receives p frame (p.receiveRecord mac frame l dropped) := by
  have keys : ∀ u ∈ (openRecord mac (p.current p.recvDir) p.expectation frame).2.2,
      u.key = ⟨(p.current p.recvDir).here, macKeyLen⟩ := openRecord_keys p.expectation frame
  have taken : ∀ u ∈ (openRecord mac (p.current p.recvDir) p.expectation frame).2.2, p.closed = false ∧
      ∃ s ∈ (p.planes.get p.recvDir).streams, u.key = ⟨s.here, macKeyLen⟩ := by
    intro u mem
    exact ⟨active, _, mem_current p p.recvDir, keys u mem⟩
  have read : ∀ plaintext, (openRecord mac (p.current p.recvDir) p.expectation frame).1 = .ok plaintext →
      ∃ (r : OtpDataRecord) (room : (p.current p.recvDir).Fits r.ciphertext.length), decode frame = .ok r ∧
        r.use = (p.current p.recvDir).use p.recvDir r.ciphertext.length ∧
        (openRecord mac (p.current p.recvDir) p.expectation frame).2.1 =
          (p.current p.recvDir).after r.ciphertext.length room :=
    fun plaintext opened => openRecord_use opened
  unfold FullOtpPump.receiveRecord
  dsimp only
  generalize openRecord mac (p.current p.recvDir) p.expectation frame = out at taken read
  obtain ⟨opened, stream, uses⟩ := out
  cases opened with
  | error e => exact ⟨taken, by rintro ⟨⟩⟩
  | ok plaintext =>
      cases checkedAdd p.recvSeq 1 with
      | none => exact ⟨taken, by rintro ⟨⟩⟩
      | some seq =>
          refine ⟨taken, ?_⟩
          intro _
          refine ⟨active, ?_⟩
          obtain ⟨r, room, decoded, use, after⟩ := read plaintext rfl
          intro s' mem
          have plane : (p.planes.set p.recvDir { p.planes.get p.recvDir with current := stream }).get p.recvDir =
              { p.planes.get p.recvDir with current := stream } := PerDirection.get_set_same _ _ _
          have mem : s' ∈ ((p.planes.set p.recvDir { p.planes.get p.recvDir with current := stream }).get
              p.recvDir).streams := mem
          rw [plane] at mem
          rcases List.mem_cons.mp mem with rfl | later
          · refine .inr ⟨r, _, rfl, decoded, ?_⟩
            have after : s' = _ := after
            rw [after, use]
            exact here_after room
          · exact .inl ⟨s', List.mem_cons_of_mem _ later, rfl⟩

theorem receives_receive (frame : Bytes) : Receives p frame (p.receive mac frame) := by
  unfold FullOtpPump.receive
  split
  · exact receives_idle
  rename_i active
  rw [Bool.not_eq_true] at active
  split
  · exact receives_idle
  rename_i peek _
  split
  · exact receives_failed
  rcases p.switchForReceive_cases p.recvDir peek.bundleId with
    ⟨-, stays⟩ | ⟨-, n, held, -, switches⟩ | ⟨-, -, lacks⟩
  · rw [stays]
    exact receives_receiveRecord active frame _ []
  · rw [switches]
    obtain ⟨role, closed, -⟩ := p.switchTo_numbers p.recvDir n
    have dir : (p.switchTo p.recvDir n).recvDir = p.recvDir :=
      congrArg (fun role => role.sendDirection.opposite) role
    have kept : ∀ s ∈ ((p.switchTo p.recvDir n).planes.get p.recvDir).streams,
        s ∈ (p.planes.get p.recvDir).streams := by
      intro s mem
      have only : s = n := by
        simpa [FullOtpPump.switchTo, DirPlane.streams, PadStream.retireInto] using mem
      subst only
      exact List.mem_cons_of_mem _ (Option.mem_toList.mpr held)
    have receives : Receives _ frame ((p.switchTo p.recvDir n).receiveRecord mac frame peek.ciphertext.length
        [p.retired p.recvDir n]) := receives_receiveRecord (closed.trans active) frame _ _
    obtain ⟨keys, goes_on⟩ := receives
    rw [dir] at keys goes_on
    constructor
    · intro u mem
      obtain ⟨-, s, there, key⟩ := keys u mem
      exact ⟨active, s, kept s there, key⟩
    · intro still
      refine ⟨active, ?_⟩
      intro s' mem
      refine ((goes_on still).2 s' mem).imp_left ?_
      rintro ⟨s, there, same⟩
      exact ⟨s, kept s there, same⟩
  · rw [lacks]
    exact receives_failed

end Data

/-- The offer an action makes: a bundle and where it begins. -/
def PumpAction.offer : PumpAction → Option (UInt64 × UInt64)
  | .sendPadOffer bundleId base => some (bundleId, base)
  | _ => none

def PumpReply.offers : PumpReply → List (UInt64 × UInt64)
  | .controlled result => (result.toOption.getD []).filterMap PumpAction.offer
  | .prefetched result => (result.toOption.join.bind PumpAction.offer).toList
  | _ => []

/-- What a call is granted, and offers of it: nothing, or one range. Only a server reserves of
its own accord; a client adopts what it is offered. -/
inductive Stocks {segments : UInt64} {σ : Type} (ranges : RangeSource segments σ) (p : FullOtpPump)
    (st : σ × List UInt64) (call : PumpCall) (out : Turn PumpReply × σ × List UInt64) : Prop where
  | nothing (log : out.2.2 = st.2) (pointer : ranges.pointer st.1 ≤ ranges.pointer out.2.1)
      (silent : out.1.result.offers = [])
  | bundle (base : UInt64) (log : out.2.2 = st.2 ++ [base])
      (rises : Rises segments (ranges.pointer st.1) (ranges.pointer out.2.1) (some base))
      (offered : ∀ offer ∈ out.1.result.offers, offer.2 = base)
      (asked : p.role = .server ∨ ∃ bundleId actions, call = .onControl (.padOffer bundleId base) ∧
        out.1.result = .controlled (.ok actions))

/-- What a call to the source's side leaves of the pump. -/
structure Rests {σ : Type} (p : FullOtpPump) (out : Turn PumpReply × σ × List UInt64) : Prop where
  uses : out.1.trail.uses = []
  goes_on : out.1.pump.closed = false → p.closed = false ∧
    (out.1.pump.planes = p.planes ∨
      ∃ bundleId base flat, out.1.pump.planes = (p.install bundleId base flat).planes ∧ base ∈ out.2.2)

section Source

variable {segments : UInt64} {σ : Type} {ranges : RangeSource segments σ} {body : Body segments} {p : FullOtpPump}
  {st : σ × List UInt64} {call : PumpCall}

theorem stocks_idle {result : PumpReply} {pump : FullOtpPump} {trail : Trail} (silent : result.offers = []) :
    Stocks ranges p st call ({ result, pump, trail }, st) :=
  .nothing rfl (Nat.le_refl _) silent

theorem rests_same {rest : σ × List UInt64} {result : PumpReply} {pump : FullOtpPump} (closed : pump.closed = p.closed)
    (planes : pump.planes = p.planes) : Rests p ({ result, pump }, rest) where
  uses := rfl
  goes_on active := ⟨closed ▸ active, .inl planes⟩

theorem rests_failed {rest : σ × List UInt64} {result : PumpReply} : Rests p (p.failed result {}, rest) where
  uses := rfl
  goes_on := by rintro ⟨⟩

/-- A reservation, and what the caller is told of it. -/
theorem prefetched (reply : Except PadSourceError (Option PumpAction) → PumpReply)
    (offers : ∀ result, (reply result).offers = (result.toOption.join.bind PumpAction.offer).toList) :
    let out := p.serverPrefetch (ranges.over body).logged st
    Stocks ranges p st call (out.1.map reply, out.2) ∧ Rests p (out.1.map reply, out.2) := by
  unfold FullOtpPump.serverPrefetch
  split
  · exact ⟨stocks_idle (offers _), rests_same rfl rfl⟩
  rename_i active
  rw [Bool.not_eq_true] at active
  split
  · exact ⟨stocks_idle (offers _), rests_failed⟩
  rename_i server
  rw [ne_eq, not_not] at server
  split
  · exact ⟨stocks_idle (offers _), rests_same rfl rfl⟩
  have rises := ranges.next_rises st.1
  unfold FullOtpPump.prefetch PadSource.logged RangeSource.over
  dsimp only
  generalize ranges.reserveNextRange st.1 = found at rises
  obtain ⟨result, rest⟩ := found
  cases result with
  | error e => exact ⟨.nothing rfl rises (offers _), rests_failed⟩
  | ok base =>
      constructor
      · refine .bundle base rfl rises ?_ (.inl server)
        intro offer mem
        have mem : offer ∈ (reply (.ok (some (.sendPadOffer p.nextBundleId base)))).offers := mem
        rw [offers] at mem
        rw [List.mem_singleton.mp mem]
      · refine ⟨rfl, ?_⟩
        intro _
        exact ⟨active, .inr ⟨p.nextBundleId, base, bundleAt body base, rfl,
          List.mem_append_right _ List.mem_cons_self⟩⟩

theorem adopted (bundleId base : UInt64) :
    let out := p.onPadOffer (ranges.over body).logged bundleId base st
    p.closed = false →
      Stocks ranges p st (.onControl (.padOffer bundleId base)) (out.1.map .controlled, out.2) ∧
        Rests p (out.1.map .controlled, out.2) := by
  intro out active
  have goal : Stocks ranges p st (.onControl (.padOffer bundleId base))
        ((p.onPadOffer (ranges.over body).logged bundleId base st).1.map .controlled,
          (p.onPadOffer (ranges.over body).logged bundleId base st).2) ∧
      Rests p ((p.onPadOffer (ranges.over body).logged bundleId base st).1.map .controlled,
        (p.onPadOffer (ranges.over body).logged bundleId base st).2) := by
    unfold FullOtpPump.onPadOffer
    split
    · exact ⟨stocks_idle rfl, rests_failed⟩
    split
    · exact ⟨stocks_idle rfl, rests_failed⟩
    have rises := ranges.at_rises base st.1
    unfold PadSource.logged RangeSource.over
    dsimp only
    generalize ranges.reserveRangeAt base st.1 = found at rises
    obtain ⟨result, rest⟩ := found
    cases result with
    | error e => exact ⟨.nothing rfl rises rfl, rests_failed⟩
    | ok _ =>
        constructor
        · refine .bundle base rfl rises ?_ (.inr ⟨bundleId, _, rfl, rfl⟩)
          intro offer mem
          exact absurd mem List.not_mem_nil
        · refine ⟨rfl, ?_⟩
          intro _
          exact ⟨active, .inr ⟨bundleId, base, bundleAt body base, rfl,
            List.mem_append_right _ List.mem_cons_self⟩⟩
  exact goal

theorem rests_close {rest : σ × List UInt64} {result : PumpReply} :
    Rests p ({ p.close with result := result }, rest) := by
  unfold FullOtpPump.close
  split
  · exact rests_same rfl rfl
  · exact ⟨rfl, by rintro ⟨⟩⟩

theorem controlled (msg : PadControl) :
    let out := p.onControl (ranges.over body).logged msg st
    Stocks ranges p st (.onControl msg) (out.1.map .controlled, out.2) ∧ Rests p (out.1.map .controlled, out.2) := by
  unfold FullOtpPump.onControl
  split
  · exact ⟨stocks_idle rfl, rests_same rfl rfl⟩
  rename_i active
  rw [Bool.not_eq_true] at active
  cases msg with
  | padNeed =>
      dsimp only
      split
      · exact ⟨stocks_idle rfl, rests_failed⟩
      · apply prefetched fun result => .controlled ((result.map Option.toList).mapError PumpError.source)
        intro result
        cases result with
        | error e => rfl
        | ok action => cases action <;> rfl
  | padOffer bundleId base =>
      dsimp only
      split
      · exact ⟨stocks_idle rfl, rests_failed⟩
      · exact adopted bundleId base active
  | padAck bundleId =>
      dsimp only
      split
      · exact ⟨stocks_idle rfl, rests_failed⟩
      split
      · exact ⟨stocks_idle rfl, rests_failed⟩
      · exact ⟨stocks_idle rfl, rests_same rfl rfl⟩
  | close => exact ⟨stocks_idle rfl, rests_close⟩

end Source

/-- Where a call takes a key to read with, and where the pump then stands in the direction it reads. -/
structure Hears {σ : Type} (p : FullOtpPump) (call : PumpCall) (out : Turn PumpReply × σ × List UInt64) : Prop where
  keys : ∀ u ∈ out.1.trail.uses, u.direction = p.recvDir → p.closed = false ∧
    ∃ s ∈ (p.planes.get p.recvDir).streams, u.key = ⟨s.here, macKeyLen⟩
  goes_on : out.1.pump.closed = false → p.closed = false ∧
    ∀ s' ∈ (out.1.pump.planes.get p.recvDir).streams,
      (∃ s ∈ (p.planes.get p.recvDir).streams, s'.here = s.here) ∨
        (∃ base ∈ out.2.2, RangeFits base → s'.here = (halfSpan base p.recvDir).first) ∨
        ∃ frame r received, call = .receive frame ∧ out.1.result = .received (.ok received) ∧
          decode frame = .ok r ∧ s'.here = r.use.pad.first + r.use.pad.length

section Calls

variable {mac : MacKey → Bytes → Tag} {segments : UInt64} {σ : Type} {ranges : RangeSource segments σ}
  {body : Body segments} {p : FullOtpPump} {st : σ × List UInt64}

theorem Rests.hears {out : Turn PumpReply × σ × List UInt64} (rests : Rests p out) (call : PumpCall) :
    Hears p call out where
  keys u mem := by
    rw [rests.uses] at mem
    exact absurd mem List.not_mem_nil
  goes_on still := by
    obtain ⟨active, same | ⟨bundleId, base, flat, planes, granted⟩⟩ := rests.goes_on still
    · refine ⟨active, ?_⟩
      intro s' mem
      rw [same] at mem
      exact .inl ⟨s', mem, rfl⟩
    · refine ⟨active, ?_⟩
      intro s' mem
      rw [planes, get_install] at mem
      rcases List.mem_cons.mp mem with rfl | next
      · exact .inl ⟨_, mem_current p p.recvDir, rfl⟩
      · obtain rfl := List.mem_singleton.mp next
        refine .inr (.inl ⟨base, granted, ?_⟩)
        intro fits
        have half : ((splitBundle bundleId base flat).get p.recvDir).span 0 4096 = halfSpan base p.recvDir :=
          span_splitBundle fits flat p.recvDir
        rw [← half]
        cases p.recvDir <;> rfl

theorem prefetch_called : Stocks ranges p st .serverPrefetch (PumpCall.on mac (ranges.over body).logged p st
      .serverPrefetch) ∧ Rests p (PumpCall.on mac (ranges.over body).logged p st .serverPrefetch) :=
  prefetched .prefetched fun _ => rfl

theorem stocks_on (call : PumpCall) :
    Stocks ranges p st call (PumpCall.on mac (ranges.over body).logged p st call) := by
  cases call with
  | send plaintext => exact stocks_idle rfl
  | receive frame => exact stocks_idle rfl
  | onControl msg => exact (controlled msg).1
  | serverPrefetch => exact prefetch_called.1
  | close => exact stocks_idle rfl

theorem hears_on (call : PumpCall) : Hears p call (PumpCall.on mac (ranges.over body).logged p st call) := by
  cases call with
  | send plaintext =>
      have sends : Sends p (p.send mac plaintext) := sends_send plaintext
      constructor
      · intro u mem direction
        have sent := sends.uses u mem
        exact absurd (direction.symm.trans sent) p.recvDir_ne
      · intro still
        obtain ⟨active, plane⟩ := sends.goes_on still
        refine ⟨active, ?_⟩
        intro s' mem
        have mem : s' ∈ ((p.send mac plaintext).pump.planes.get p.recvDir).streams := mem
        rw [plane] at mem
        exact .inl ⟨s', mem, rfl⟩
  | receive frame =>
      have receives : Receives p frame (p.receive mac frame) := receives_receive frame
      constructor
      · intro u mem _
        exact receives.keys u mem
      · intro still
        obtain ⟨active, streams⟩ := receives.goes_on still
        refine ⟨active, ?_⟩
        intro s' mem
        rcases streams s' mem with old | ⟨r, received, result, decoded, here⟩
        · exact .inl old
        · exact .inr (.inr ⟨frame, r, received, rfl, congrArg PumpReply.received result, decoded, here⟩)
  | onControl msg => exact (controlled msg).2.hears _
  | serverPrefetch => exact prefetch_called.2.hears _
  | close =>
      have rests : Rests p (p.close.map fun _ => PumpReply.closed, st) := by
        unfold FullOtpPump.close
        split
        · exact rests_same rfl rfl
        · exact ⟨rfl, by rintro ⟨⟩⟩
      exact rests.hears _

end Calls

/-! ## The line -/

/-- One call as an observer of the line has it: at which end, by the direction it sends in, and
the call and the reply without the plaintexts. -/
structure Seen where
  side : Direction
  call : PumpCall
  reply : PumpReply

/-- Two ends with what is written down about them, and what an observer saw. -/
structure Line (σ : Type) where
  ends : PerDirection (Audit σ)
  seen : List Seen

/-- Two ends over one book: what there is before the first byte of a pad is used. The first
bundle was reserved before, at both ends. -/
structure Setting (σ : Type) where
  mac : MacKey → Bytes → Tag
  segments : UInt64
  ranges : PerDirection (RangeSource segments σ)
  base : UInt64
  start : PerDirection σ
  fits : base.toNat + 128 ≤ segments.toNat
  reserved : ∀ d, base.toNat + 128 ≤ (ranges.get d).pointer (start.get d)

section Setting

variable {σ : Type} (setting : Setting σ)

namespace Line

def new (body : Body setting.segments) : Line σ where
  ends :=
    ⟨newAudit .client setting.base (bundleAt body setting.base) setting.start.c2s,
      newAudit .server setting.base (bundleAt body setting.base) setting.start.s2c⟩
  seen := []

/-- A call at one end. -/
def call (body : Body setting.segments) (side : Direction) (call : PumpCall) (w : Line σ) : Line σ :=
  let a := w.ends.get side
  let source := (setting.ranges.get side).over body
  let out := PumpCall.on setting.mac source.logged a.pump (a.source, a.granted) call
  { ends := w.ends.set side (audit setting.mac source call a)
    seen := w.seen ++ [{ side, call := call.blind, reply := out.1.result.blind }] }

end Line

/-- Whoever makes the calls at both ends: what was seen so far says which comes next. What an
end was given to read is not in sight; where all of it is genuine, it is what the other end was
given to send. -/
abbrev User := List Seen → Direction × PumpCall

/-- The line after so many calls. -/
def Line.after (body : Body setting.segments) (user : User) (n : Nat) : Line σ :=
  (fun w => w.call setting body (user w.seen).1 (user w.seen).2)^[n] (.new setting body)

end Setting

/-! ## What is genuine -/

namespace Seen

/-- A record was sealed. -/
def Seals (e : Seen) (r : OtpDataRecord) : Prop := ∃ n need, e.reply = .sent (.ok (.record r n need))

end Seen

/-- What was accepted was made at the other end before: a record, or an offer. -/
structure Genuine (before : List Seen) (e : Seen) : Prop where
  record : ∀ frame received, e.call = .receive frame → e.reply = .received (.ok received) →
    ∃ e' ∈ before, e'.side = e.side.opposite ∧ ∃ r, e'.Seals r ∧ frame = r.encode
  offer : ∀ bundleId base actions, e.call = .onControl (.padOffer bundleId base) →
    e.reply = .controlled (.ok actions) →
    ∃ e' ∈ before, e'.side = e.side.opposite ∧ (bundleId, base) ∈ e'.reply.offers

/-- All that was accepted is genuine. -/
def Authentic (seen : List Seen) : Prop :=
  ∀ before e after, seen = before ++ e :: after → Genuine before e

theorem Authentic.last {seen : List Seen} {e : Seen} (authentic : Authentic (seen ++ [e])) :
    Authentic seen ∧ Genuine seen e := by
  constructor
  · intro before x after split_
    apply authentic before x (after ++ [e])
    rw [split_, List.append_assoc]
    rfl
  · exact authentic seen e [] rfl

theorem offers_blind (reply : PumpReply) : reply.blind.offers = reply.offers := by
  cases reply <;> rfl

theorem sent_of_blind {reply : PumpReply} {result : Except SendError SendOutcome}
    (same : reply.blind = .sent result) : reply = .sent result := by
  cases reply with
  | sent result' => exact same
  | _ => cases same

/-! ## Where keys are taken -/

/-- The ranges one end was handed out: behind its pointer, in the book, and apart. -/
structure Ranged {segments : UInt64} {σ : Type} (ranges : RangeSource segments σ) (a : Audit σ) : Prop where
  below : ∀ b ∈ a.granted, b.toNat + 128 ≤ ranges.pointer a.source
  inside : ∀ b ∈ a.granted, b.toNat + 128 ≤ segments.toNat
  apart : (a.granted.map bundleSpan).Pairwise Span.Apart

/-- An address at which a reader of direction `d` may stand: the head of one of its half
bundles, or the end of a record that was sealed in that direction. -/
def Line.Anchor {σ : Type} (w : Line σ) (d : Direction) (x : Nat) : Prop :=
  (∃ b ∈ (w.ends.get d.opposite).granted, x = (halfSpan b d).first) ∨
    ∃ e ∈ w.seen, e.side = d ∧ ∃ r, e.Seals r ∧ x = r.use.pad.first + r.use.pad.length

/-- **What holds of a line on which all that was accepted is genuine.** -/
structure Kept {σ : Type} (setting : Setting σ) (w : Line σ) : Prop where
  sound : ∀ d, Sound (w.ends.get d)
  ranged : ∀ d, Ranged (setting.ranges.get d) (w.ends.get d)
  role : ∀ d, (w.ends.get d).pump.sendDir = d
  told : ∀ b ∈ w.ends.c2s.granted, b ∈ w.ends.s2c.granted
  offered : ∀ e ∈ w.seen, ∀ offer ∈ e.reply.offers, offer.2 ∈ (w.ends.get e.side).granted
  sealed : ∀ e ∈ w.seen, ∀ r, e.Seals r →
    r.use ∈ (w.ends.get e.side).uses ∧ r.direction = e.side ∧ decode r.encode = .ok r
  keys : ∀ d, ∀ u ∈ (w.ends.get d.opposite).uses, u.direction = d →
    u.key.length = macKeyLen ∧ w.Anchor d u.key.first
  stands : ∀ d, (w.ends.get d.opposite).pump.closed = false →
    ∀ s ∈ ((w.ends.get d.opposite).pump.planes.get d).streams, w.Anchor d s.here

section Kept

variable {σ : Type} {setting : Setting σ} {body : Body setting.segments} {w : Line σ}

theorem bundleSpan_apart {b base : UInt64} (before : b.toNat + 128 ≤ base.toNat) :
    (bundleSpan b).Apart (bundleSpan base) := by
  left
  simp only [bundleSpan]
  omega

/-- A call keeps the ranges of its end apart. -/
theorem Ranged.call {segments : UInt64} {ranges : RangeSource segments σ} {a : Audit σ} (ranged : Ranged ranges a)
    {call : PumpCall} {out : Turn PumpReply × σ × List UInt64}
    (stocks : Stocks ranges a.pump (a.source, a.granted) call out) {uses : List Use} {returned : Direction → List Nat} :
    Ranged ranges ⟨out.1.pump, out.2.1, out.2.2, uses, returned⟩ := by
  obtain ⟨below, inside, apart⟩ := ranged
  cases stocks with
  | nothing log pointer silent =>
      have log : out.2.2 = a.granted := log
      constructor
      · intro b mem
        have mem : b ∈ out.2.2 := mem
        rw [log] at mem
        exact (below b mem).trans pointer
      · intro b mem
        have mem : b ∈ out.2.2 := mem
        rw [log] at mem
        exact inside b mem
      · show (out.2.2.map bundleSpan).Pairwise Span.Apart
        rw [log]
        exact apart
  | bundle base log rises offered asked =>
      have log : out.2.2 = a.granted ++ [base] := log
      obtain ⟨low, high, fits⟩ := rises
      constructor
      · intro b mem
        have mem : b ∈ out.2.2 := mem
        rw [log] at mem
        rcases List.mem_append.mp mem with old | new
        · have before := below b old
          show b.toNat + 128 ≤ ranges.pointer out.2.1
          dsimp only at low
          omega
        · rw [List.mem_singleton.mp new]
          exact high
      · intro b mem
        have mem : b ∈ out.2.2 := mem
        rw [log] at mem
        rcases List.mem_append.mp mem with old | new
        · exact inside b old
        · rw [List.mem_singleton.mp new]
          exact high.trans fits
      · show (out.2.2.map bundleSpan).Pairwise Span.Apart
        rw [log, List.map_append, List.pairwise_append]
        refine ⟨apart, List.pairwise_singleton _ _, ?_⟩
        intro x old y new
        obtain ⟨b, mem, rfl⟩ := List.mem_map.mp old
        obtain rfl := List.mem_singleton.mp new
        exact bundleSpan_apart ((below b mem).trans low)

theorem Ranged.fits {segments : UInt64} {ranges : RangeSource segments σ} {a : Audit σ} (ranged : Ranged ranges a) :
    ∀ b ∈ a.granted, RangeFits b := fun b mem => rangeFits_of_le (ranged.inside b mem)

theorem kept_new : Kept setting (.new setting body) := by
  have sound : ∀ role st, Sound (newAudit role setting.base (bundleAt body setting.base) (st : σ)) :=
    fun role st => sound_new (rangeFits_of_le setting.fits)
  have ranged : ∀ d role, Ranged (setting.ranges.get d)
      (newAudit role setting.base (bundleAt body setting.base) (setting.start.get d)) := by
    intro d role
    constructor
    · intro b mem
      rw [List.mem_singleton.mp mem]
      exact setting.reserved d
    · intro b mem
      rw [List.mem_singleton.mp mem]
      exact setting.fits
    · exact List.pairwise_singleton _ _
  have head : ∀ d (p : FullOtpPump), p.planes.get d = ⟨(splitBundle 0 setting.base (bundleAt body setting.base)).get d, none⟩ →
      ∀ s ∈ (p.planes.get d).streams, s.here = (halfSpan setting.base d).first := by
    intro d p plane s mem
    rw [plane] at mem
    obtain rfl := List.mem_singleton.mp mem
    have half : ((splitBundle 0 setting.base (bundleAt body setting.base)).get d).span 0 4096 = halfSpan setting.base d :=
      span_splitBundle (rangeFits_of_le setting.fits) _ d
    rw [← half]
    cases d <;> rfl
  constructor
  · intro d
    cases d
    · exact sound .client setting.start.c2s
    · exact sound .server setting.start.s2c
  · intro d
    cases d
    · exact ranged .clientToServer .client
    · exact ranged .serverToClient .server
  · intro d
    cases d <;> rfl
  · exact fun b mem => mem
  · intro e mem
    exact absurd mem List.not_mem_nil
  · intro e mem
    exact absurd mem List.not_mem_nil
  · intro d u mem
    cases d <;> exact absurd mem List.not_mem_nil
  · intro d _ s mem
    left
    cases d
    · exact ⟨setting.base, List.mem_singleton.mpr rfl, head .clientToServer (FullOtpPump.new .server _ _) rfl s mem⟩
    · exact ⟨setting.base, List.mem_singleton.mpr rfl, head .serverToClient (FullOtpPump.new .client _ _) rfl s mem⟩

/-! ### One call -/

variable {side : Direction} {c : PumpCall}

variable (setting body w side c) in
/-- What the end's call returns. -/
def Line.outcome : Turn PumpReply × σ × List UInt64 :=
  PumpCall.on setting.mac ((setting.ranges.get side).over body).logged (w.ends.get side).pump
    ((w.ends.get side).source, (w.ends.get side).granted) c

variable (setting body w side c) in
/-- What the observer has of the call. -/
def Line.sight : Seen := ⟨side, c.blind, (w.outcome setting body side c).1.result.blind⟩

theorem seen_call : (w.call setting body side c).seen = w.seen ++ [w.sight setting body side c] := rfl

theorem get_call : (w.call setting body side c).ends.get side =
    audit setting.mac ((setting.ranges.get side).over body) c (w.ends.get side) :=
  PerDirection.get_set_same _ _ _

theorem get_call_other {d : Direction} (other : d ≠ side) :
    (w.call setting body side c).ends.get d = w.ends.get d := PerDirection.get_set_other _ _ other

theorem granted_call (d : Direction) :
    ∀ b ∈ (w.ends.get d).granted, b ∈ ((w.call setting body side c).ends.get d).granted := by
  intro b mem
  by_cases here : d = side
  · subst here
    rw [get_call]
    exact Audited.granted_subset (audited c (w.ends.get d)) b mem
  · rwa [get_call_other here]

theorem Line.Anchor.call {d : Direction} {x : Nat} (anchor : w.Anchor d x) :
    (w.call setting body side c).Anchor d x := by
  rcases anchor with ⟨b, granted, is⟩ | ⟨e, mem, there⟩
  · exact .inl ⟨b, granted_call _ b granted, is⟩
  · exact .inr ⟨e, List.mem_append_left _ mem, there⟩

theorem Audited.role {a b : Audit σ} (done : Audited a b) : b.pump.role = a.pump.role := by
  cases done with
  | moved uses got granted took returned accounted tallied => exact tallied.role
  | granted base granted took returned grants => exact grants.tallied.role

theorem Kept.ranged_call (kept : Kept setting w) (d : Direction) :
    Ranged (setting.ranges.get d) ((w.call setting body side c).ends.get d) := by
  by_cases here : d = side
  · subst here
    rw [get_call]
    exact (kept.ranged d).call (stocks_on c)
  · rw [get_call_other here]
    exact kept.ranged d

theorem Kept.sound_call (kept : Kept setting w) (d : Direction) :
    Sound ((w.call setting body side c).ends.get d) := by
  have ranged : Ranged (setting.ranges.get d) ((w.call setting body side c).ends.get d) := kept.ranged_call d
  have fits := ranged.fits
  by_cases here : d = side
  · subst here
    rw [get_call] at fits ⊢
    exact Audited.sound (audited c (w.ends.get d)) fits (kept.sound d)
  · rw [get_call_other here]
    exact kept.sound d

theorem Kept.told_call (kept : Kept setting w) (genuine : Genuine w.seen (w.sight setting body side c)) :
    ∀ b ∈ (w.call setting body side c).ends.c2s.granted, b ∈ (w.call setting body side c).ends.s2c.granted := by
  intro b mem
  cases side with
  | serverToClient => exact granted_call .serverToClient b (kept.told b mem)
  | clientToServer =>
      have stocks : Stocks (setting.ranges.get .clientToServer) w.ends.c2s.pump (w.ends.c2s.source, w.ends.c2s.granted) c
          (w.outcome setting body .clientToServer c) := stocks_on c
      have mem : b ∈ (w.outcome setting body .clientToServer c).2.2 := mem
      cases stocks with
      | nothing log pointer silent =>
          rw [log] at mem
          exact kept.told b mem
      | bundle base log rises offered asked =>
          rw [log] at mem
          rcases List.mem_append.mp mem with old | new
          · exact kept.told b old
          · obtain rfl := List.mem_singleton.mp new
            rcases asked with server | ⟨bundleId, actions, asked, accepted⟩
            · have client := kept.role .clientToServer
              unfold FullOtpPump.sendDir at client
              have server : (w.ends.get .clientToServer).pump.role = .server := server
              rw [server] at client
              exact absurd client (by rintro ⟨⟩)
            · subst asked
              have reply : (w.sight setting body .clientToServer (.onControl (.padOffer bundleId b))).reply =
                  .controlled (.ok actions) := congrArg PumpReply.blind accepted
              obtain ⟨e', before, other, offer⟩ := genuine.offer bundleId b actions rfl reply
              have there := kept.offered e' before _ offer
              rw [other] at there
              exact there

theorem Kept.offered_call (kept : Kept setting w) :
    ∀ e ∈ (w.call setting body side c).seen, ∀ offer ∈ e.reply.offers,
      offer.2 ∈ ((w.call setting body side c).ends.get e.side).granted := by
  intro e mem offer there
  rw [seen_call] at mem
  rcases List.mem_append.mp mem with old | new
  · exact granted_call _ _ (kept.offered e old offer there)
  · obtain rfl := List.mem_singleton.mp new
    have there : offer ∈ (w.outcome setting body side c).1.result.offers := by
      rw [← offers_blind]
      exact there
    have stocks : Stocks (setting.ranges.get side) (w.ends.get side).pump _ c (w.outcome setting body side c) :=
      stocks_on c
    have granted : ((w.call setting body side c).ends.get side).granted = (w.outcome setting body side c).2.2 := by
      rw [get_call]
      rfl
    show offer.2 ∈ ((w.call setting body side c).ends.get side).granted
    rw [granted]
    cases stocks with
    | nothing log pointer silent =>
        rw [silent] at there
        exact absurd there List.not_mem_nil
    | bundle base log rises offered asked =>
        rw [offered offer there, log]
        exact List.mem_append_right _ List.mem_cons_self

theorem uses_call : ((w.call setting body side c).ends.get side).uses =
    (w.ends.get side).uses ++ (w.outcome setting body side c).1.trail.uses := by
  rw [get_call]
  rfl

theorem pump_call : ((w.call setting body side c).ends.get side).pump = (w.outcome setting body side c).1.pump := by
  rw [get_call]
  rfl

theorem uses_kept (d : Direction) :
    ∀ u ∈ (w.ends.get d).uses, u ∈ ((w.call setting body side c).ends.get d).uses := by
  intro u mem
  by_cases here : d = side
  · subst here
    rw [uses_call]
    exact List.mem_append_left _ mem
  · rwa [get_call_other here]

/-- A record that an observer sees was sealed by a `send`. -/
theorem sight_seals {r : OtpDataRecord} (seals : (w.sight setting body side c).Seals r) :
    (w.outcome setting body side c).1.trail.uses = [r.use] ∧ r.direction = (w.ends.get side).pump.sendDir ∧
      decode r.encode = .ok r := by
  obtain ⟨n, need, reply⟩ := seals
  have result : (w.outcome setting body side c).1.result = .sent (.ok (.record r n need)) := sent_of_blind reply
  cases c with
  | send plaintext =>
      have sends : Sends _ ((w.ends.get side).pump.send setting.mac plaintext) := sends_send plaintext
      have sent : PumpReply.sent ((w.ends.get side).pump.send setting.mac plaintext).result = .sent (.ok (.record r n need)) :=
        result
      injection sent with sent
      exact sends.record r n need sent
  | _ => cases result

theorem Kept.sealed_call (kept : Kept setting w) :
    ∀ e ∈ (w.call setting body side c).seen, ∀ r, e.Seals r →
      r.use ∈ ((w.call setting body side c).ends.get e.side).uses ∧ r.direction = e.side ∧
        decode r.encode = .ok r := by
  intro e mem r seals
  rw [seen_call] at mem
  rcases List.mem_append.mp mem with old | new
  · obtain ⟨use, rest⟩ := kept.sealed e old r seals
    exact ⟨uses_kept _ _ use, rest⟩
  · obtain rfl := List.mem_singleton.mp new
    obtain ⟨uses, direction, decoded⟩ := sight_seals seals
    refine ⟨?_, direction.trans (kept.role side), decoded⟩
    show r.use ∈ ((w.call setting body side c).ends.get side).uses
    rw [uses_call, uses]
    exact List.mem_append_right _ List.mem_cons_self

/-- The end that reads a direction reads it. -/
theorem Kept.recvDir (kept : Kept setting w) (d : Direction) : (w.ends.get d.opposite).pump.recvDir = d := by
  unfold FullOtpPump.recvDir
  rw [kept.role d.opposite, Direction.opposite_opposite]

theorem Kept.keys_call (kept : Kept setting w) (d : Direction) :
    ∀ u ∈ ((w.call setting body side c).ends.get d.opposite).uses, u.direction = d →
      u.key.length = macKeyLen ∧ (w.call setting body side c).Anchor d u.key.first := by
  intro u mem direction
  by_cases here : d.opposite = side
  · subst here
    rw [uses_call] at mem
    rcases List.mem_append.mp mem with old | new
    · obtain ⟨long_, anchor⟩ := kept.keys d u old direction
      exact ⟨long_, anchor.call⟩
    · have hears : Hears _ c (w.outcome setting body d.opposite c) := hears_on c
      obtain ⟨active, s, there, key⟩ := hears.keys u new (direction.trans (kept.recvDir d).symm)
      rw [kept.recvDir d] at there
      rw [key]
      exact ⟨rfl, (kept.stands d active s there).call⟩
  · rw [get_call_other here] at mem
    obtain ⟨long_, anchor⟩ := kept.keys d u mem direction
    exact ⟨long_, anchor.call⟩

theorem Kept.stands_call (kept : Kept setting w) (genuine : Genuine w.seen (w.sight setting body side c))
    (d : Direction) : ((w.call setting body side c).ends.get d.opposite).pump.closed = false →
      ∀ s ∈ (((w.call setting body side c).ends.get d.opposite).pump.planes.get d).streams,
        (w.call setting body side c).Anchor d s.here := by
  by_cases here : d.opposite = side
  · subst here
    have ranged : Ranged _ ((w.call setting body d.opposite c).ends.get d.opposite) := kept.ranged_call d.opposite
    have granted : ((w.call setting body d.opposite c).ends.get d.opposite).granted =
        (w.outcome setting body d.opposite c).2.2 := by
      rw [get_call]
      rfl
    rw [pump_call]
    intro still s mem
    have hears : Hears _ c (w.outcome setting body d.opposite c) := hears_on c
    obtain ⟨active, streams⟩ := hears.goes_on still
    rw [kept.recvDir d] at streams
    rcases streams s mem with ⟨s', there, same⟩ | ⟨base, given, head⟩ | ⟨frame, r, received, asked, accepted, decoded, end_⟩
    · rw [same]
      exact (kept.stands d active s' there).call
    · rw [← granted] at given
      exact .inl ⟨base, given, head (ranged.fits base given)⟩
    · subst asked
      have reply : (w.sight setting body d.opposite (.receive frame)).reply = .received (.ok received.blind) :=
        congrArg PumpReply.blind accepted
      obtain ⟨e', before, other, r', seals, same⟩ := genuine.record frame received.blind rfl reply
      obtain ⟨-, -, again⟩ := kept.sealed e' before r' seals
      rw [← same, decoded] at again
      obtain rfl : r = r' := Except.ok.inj again
      refine .inr ⟨e', List.mem_append_left _ before, ?_, r, seals, end_⟩
      rw [other]
      exact Direction.opposite_opposite d
  · rw [get_call_other here]
    intro still s mem
    exact (kept.stands d still s mem).call

theorem Kept.call (kept : Kept setting w) (genuine : Genuine w.seen (w.sight setting body side c)) :
    Kept setting (w.call setting body side c) where
  sound := kept.sound_call
  ranged := kept.ranged_call
  role d := by
    by_cases here : d = side
    · subst here
      have same : ((w.call setting body d c).ends.get d).pump.role = (w.ends.get d).pump.role := by
        rw [get_call]
        exact Audited.role (audited c (w.ends.get d))
      exact (congrArg Role.sendDirection same).trans (kept.role d)
    · rw [get_call_other here]
      exact kept.role d
  told := kept.told_call genuine
  offered := kept.offered_call
  sealed := kept.sealed_call
  keys := kept.keys_call
  stands := kept.stands_call genuine

/-- **A line on which all that was accepted is genuine is kept.** -/
theorem kept_after (setting : Setting σ) (body : Body setting.segments) (user : User) (n : Nat)
    (authentic : Authentic (Line.after setting body user n).seen) : Kept setting (.after setting body user n) := by
  induction n with
  | zero => exact kept_new
  | succ n ih =>
      rw [Line.after, Function.iterate_succ_apply'] at authentic ⊢
      obtain ⟨before, genuine⟩ := authentic.last
      exact (ih before).call genuine

end Kept

end Jbuu.FullOtp
