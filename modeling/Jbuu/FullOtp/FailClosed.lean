/-
# FullOtp.FailClosed — which frames end the pump when `receive` refuses them

A pump behind any calls and any source. `FailsClosed` is what the design asks of a
refusal: nothing is left that is not zeroed, and the pump answers nothing any more. A
frame that decodes and is refused goes through `fail`, wherever it is refused
(`receive_decoded`); one that does not decode leaves the pump as it was. Hence
`receive_fails_closed_iff`.
-/
import Jbuu.Library.Runs
import Jbuu.FullOtp.Pump

namespace Jbuu.FullOtp

set_option autoImplicit false

open Jbuu.Library.BigEndian (Bytes Exactly)
open Jbuu.Library

/-! ## A pump and its calls -/

/-- A pump, its source, and what its calls returned. -/
structure Served (σ : Type) where
  pump : FullOtpPump
  source : σ
  replies : List PumpReply

section Serve

variable {σ : Type} (mac : MacKey → Bytes → Tag) (source : PadSource σ)

def serve (call : PumpCall) (s : Served σ) : Served σ :=
  let (turn, st) := PumpCall.on mac source s.pump s.source call
  { pump := turn.pump, source := st, replies := s.replies ++ [turn.result] }

end Serve

/-- The reply of a pump that is closed. -/
def PumpReply.refuses : PumpReply → Bool
  | .sent (.error .closed) => true
  | .received (.error .closed) => true
  | .controlled (.error (.data .closed)) => true
  | .prefetched (.ok none) => true
  | .closed => true
  | _ => false

/-- `z` is the stream `s`, zeroed and used up. -/
structure Zeroed (s z : PadStream) : Prop where
  bundleId : z.bundleId = s.bundleId
  baseSegment : z.baseSegment = s.baseSegment
  buf : z.buf = .replicate 4096 0
  cursor : z.cursor = padHalf

/-- A closed pump that holds nothing but zeros. -/
structure Spent (p : FullOtpPump) : Prop where
  closed : p.closed = true
  next : ∀ d, p.next d = none
  zero : ∀ d, (p.current d).buf = .replicate 4096 0

/-- If `receive` refuses the frame: the pump is closed, every stream it held was zeroed
before it was dropped or is zeroed in its place, and no later call returns anything. -/
def FailsClosed {σ : Type} (mac : MacKey → Bytes → Tag) (source : PadSource σ) (frame : Bytes)
    (s : Served σ) : Prop :=
  ∀ e, (s.pump.receive mac frame).result = .error e →
    let turn := s.pump.receive mac frame
    Spent turn.pump ∧
    (∀ d, ∀ stream ∈ (s.pump.planes.get d).streams,
      ∃ z, Zeroed stream z ∧ (z ∈ turn.trail.dropped ∨ z = turn.pump.current d)) ∧
    ∀ later,
      let now := serve mac source (.receive frame) s
      let then_ := run (serve mac source) later now
      then_.pump = turn.pump ∧ then_.source = s.source ∧
        ∃ replies, then_.replies = now.replies ++ replies ∧ ∀ r ∈ replies, r.refuses = true

/-! ## A closed pump stays closed -/

section Closed

variable {σ : Type} (mac : MacKey → Bytes → Tag) (source : PadSource σ)

theorem serve_closed (call : PumpCall) {s : Served σ} (closed : s.pump.closed = true) :
    ∃ reply, reply.refuses = true ∧
      serve mac source call s = { s with replies := s.replies ++ [reply] } := by
  obtain ⟨p, st, replies⟩ := s
  replace closed : p.closed = true := closed
  cases call with
  | send plaintext =>
      refine ⟨.sent (.error .closed), rfl, ?_⟩
      simp only [serve, PumpCall.on, FullOtpPump.send, closed, if_true, Turn.map]
  | receive frame =>
      refine ⟨.received (.error .closed), rfl, ?_⟩
      simp only [serve, PumpCall.on, FullOtpPump.receive, closed, if_true, Turn.map]
  | onControl msg =>
      refine ⟨.controlled (.error (.data .closed)), rfl, ?_⟩
      simp only [serve, PumpCall.on, FullOtpPump.onControl, closed, if_true, Turn.map]
  | serverPrefetch =>
      refine ⟨.prefetched (.ok none), rfl, ?_⟩
      simp only [serve, PumpCall.on, FullOtpPump.serverPrefetch, closed, if_true, Turn.map]
  | close =>
      refine ⟨.closed, rfl, ?_⟩
      simp only [serve, PumpCall.on, FullOtpPump.close, closed, if_true, Turn.map]

theorem run_closed (later : List PumpCall) {s : Served σ} (closed : s.pump.closed = true) :
    let after := run (serve mac source) later s
    after.pump = s.pump ∧ after.source = s.source ∧
      ∃ replies, after.replies = s.replies ++ replies ∧ ∀ r ∈ replies, r.refuses = true := by
  induction later generalizing s with
  | nil => exact ⟨rfl, rfl, [], (List.append_nil _).symm, nofun⟩
  | cons call rest ih =>
      obtain ⟨reply, refuses, stepped⟩ := serve_closed mac source call closed
      rw [run, stepped]
      obtain ⟨pump, source_, replies, grown, all⟩ := ih (s := { s with replies := s.replies ++ [reply] }) closed
      refine ⟨pump, source_, reply :: replies, ?_, ?_⟩
      · rw [grown, List.append_assoc]
        rfl
      · intro r mem
        rcases List.mem_cons.mp mem with rfl | mem
        · exact refuses
        · exact all r mem

end Closed

/-! ## Every refusal of a frame that decodes -/

theorem zeroed_waste (s : PadStream) : Zeroed s s.waste := ⟨rfl, rfl, rfl, rfl⟩

/-- Two streams of one bundle are alike once wasted. -/
theorem PadStream.waste_congr {s s' : PadStream} (bundleId : s'.bundleId = s.bundleId)
    (baseSegment : s'.baseSegment = s.baseSegment) : s'.waste = s.waste := by
  unfold PadStream.waste
  rw [bundleId, baseSegment]

/-- Every stream of `p` is one of `q`, or was dropped. -/
def Carried (p q : FullOtpPump) (dropped : List PadStream) : Prop :=
  ∀ d, ∀ s ∈ (p.planes.get d).streams,
    s.waste ∈ dropped ∨ ∃ s' ∈ (q.planes.get d).streams, s'.waste = s.waste

theorem Carried.refl (p : FullOtpPump) : Carried p p [] :=
  fun _ s mem => .inr ⟨s, mem, rfl⟩

@[simp] theorem FullOtpPump.refresh_planes (p : FullOtpPump) :
    p.refreshAckStateAfterSwitch.planes = p.planes := by
  unfold FullOtpPump.refreshAckStateAfterSwitch
  split <;> rfl

theorem carried_switchTo {p : FullOtpPump} {d : Direction} {next : PadStream}
    (held : p.next d = some next) : Carried p (p.switchTo d next) [p.retired d next] := by
  intro d' s mem
  by_cases same : d' = d
  · subst same
    rcases List.mem_cons.mp mem with rfl | mem
    · exact .inl (List.mem_singleton.mpr rfl)
    · rw [← FullOtpPump.next, held] at mem
      obtain rfl : s = next := by simpa using mem
      refine .inr ⟨s, ?_, rfl⟩
      simp [FullOtpPump.switchTo, DirPlane.streams, PadStream.retireInto]
  · refine .inr ⟨s, ?_, rfl⟩
    simp only [FullOtpPump.switchTo, FullOtpPump.refresh_planes, PerDirection.get_set_other _ _ same]
    exact mem

theorem Carried.putCurrent {p q : FullOtpPump} {dropped : List PadStream} (carried : Carried p q dropped)
    {d : Direction} {stream : PadStream} (bundleId : stream.bundleId = (q.current d).bundleId)
    (baseSegment : stream.baseSegment = (q.current d).baseSegment) :
    Carried p (q.putCurrent d stream) dropped := by
  intro d' s mem
  refine (carried d' s mem).imp_right ?_
  rintro ⟨s', held, same⟩
  by_cases there : d' = d
  · subst there
    simp only [FullOtpPump.putCurrent, PerDirection.get_set_same]
    rcases List.mem_cons.mp held with rfl | held
    · exact ⟨stream, List.mem_cons_self, (PadStream.waste_congr bundleId baseSegment).trans same⟩
    · exact ⟨s', List.mem_cons_of_mem _ held, same⟩
  · refine ⟨s', ?_, same⟩
    simp only [FullOtpPump.putCurrent, PerDirection.get_set_other _ _ there]
    exact held

theorem spent_fail (p : FullOtpPump) : Spent p.fail where
  closed := rfl
  next d := by cases d <;> rfl
  zero d := by cases d <;> rfl

theorem current_fail (p : FullOtpPump) (d : Direction) : p.fail.current d = (p.current d).waste := by
  cases d <;> rfl

theorem mem_wasted {p : FullOtpPump} {d : Direction} {s : PadStream} (held : p.next d = some s) :
    s.waste ∈ p.wasted := by
  unfold FullOtpPump.wasted
  cases d <;> simp [held]

/-- What `failed` does to all that was carried so far. -/
theorem Carried.failed {α : Type} {p q : FullOtpPump} {trail : Trail} (carried : Carried p q trail.dropped)
    (result : α) (d : Direction) {s : PadStream} (mem : s ∈ (p.planes.get d).streams) :
    ∃ z, Zeroed s z ∧ (z ∈ (q.failed result trail).trail.dropped ∨
      z = (q.failed result trail).pump.current d) := by
  refine ⟨s.waste, zeroed_waste s, ?_⟩
  rcases carried d s mem with dropped | ⟨s', held, same⟩
  · exact .inl (List.mem_append_left _ dropped)
  · rcases List.mem_cons.mp held with rfl | next
    · exact .inr (same.symm.trans (current_fail q d).symm)
    · left
      rw [← same]
      exact List.mem_append_right _ (mem_wasted (Option.mem_toList.mp next))

theorem openRecord_stream (mac : MacKey → Bytes → Tag) (s : PadStream) (expect : OpenExpectation)
    (frame : Bytes) : (openRecord mac s expect frame).2.1.bundleId = s.bundleId ∧
      (openRecord mac s expect frame).2.1.baseSegment = s.baseSegment := by
  unfold openRecord
  repeat' split
  all_goals first | exact ⟨rfl, rfl⟩ | skip
  unfold openWith
  dsimp only
  split <;> exact ⟨rfl, rfl⟩

/-- A refused record was refused through `fail`. -/
theorem receiveRecord_refused {mac : MacKey → Bytes → Tag} {p q : FullOtpPump}
    {dropped : List PadStream} (carried : Carried p q dropped) (frame : Bytes) (l : Nat) {e : OtpError}
    (refused : (q.receiveRecord mac frame l dropped).result = .error e) :
    ∃ q' trail, Carried p q' trail.dropped ∧
      q.receiveRecord mac frame l dropped = q'.failed (.error e) trail := by
  obtain ⟨bundleId, baseSegment⟩ := openRecord_stream mac (q.current q.recvDir) q.expectation frame
  have kept := carried.putCurrent bundleId baseSegment
  revert refused
  unfold FullOtpPump.receiveRecord
  dsimp only
  split
  · intro refused
    obtain rfl := Except.error.inj refused
    exact ⟨_, { uses := _, dropped }, kept, rfl⟩
  · split
    · intro refused
      obtain rfl := Except.error.inj refused
      refine ⟨_, { uses := _, dropped }, ?_, rfl⟩
      exact kept
    · exact nofun

/-- **A frame that decodes is refused through `fail`**, whatever is wrong with it. -/
theorem receive_decoded {mac : MacKey → Bytes → Tag} {p : FullOtpPump} {frame : Bytes}
    (active : p.closed = false) {r : OtpDataRecord} (decoded : decode frame = .ok r) {e : OtpError}
    (refused : (p.receive mac frame).result = .error e) :
    ∃ q trail, Carried p q trail.dropped ∧ p.receive mac frame = q.failed (.error e) trail := by
  revert refused
  unfold FullOtpPump.receive
  rw [active, decoded]
  simp only [Bool.false_eq_true, if_false]
  split
  · intro refused
    obtain rfl := Except.error.inj refused
    exact ⟨p, {}, .refl p, rfl⟩
  rcases p.switchForReceive_cases p.recvDir r.bundleId with
    ⟨-, stays⟩ | ⟨-, next, held, -, switches⟩ | ⟨-, -, lacks⟩
  · rw [stays]
    intro refused
    exact receiveRecord_refused (.refl p) frame _ refused
  · rw [switches]
    intro refused
    exact receiveRecord_refused (carried_switchTo held) frame _ refused
  · rw [lacks]
    intro refused
    obtain rfl := Except.error.inj refused
    exact ⟨p, {}, .refl p, rfl⟩

/-- **`receive` fails closed exactly on the frames that decode.** -/
theorem receive_fails_closed_iff {σ : Type} (mac : MacKey → Bytes → Tag) (source : PadSource σ)
    (role : Role) (base : UInt64) (flat : Bundle) (st : σ) (calls : List PumpCall) (frame : Bytes) :
    let s := run (serve mac source) calls ⟨.new role base flat, st, []⟩
    s.pump.closed = false →
      (FailsClosed mac source frame s ↔ ∃ r, decode frame = .ok r) := by
  intro s active
  constructor
  · intro closes
    cases decoded : decode frame with
    | ok r => exact ⟨r, rfl⟩
    | error e =>
        -- The early return: the pump is still open.
        have refused : s.pump.receive mac frame = { result := .error (.wire e), pump := s.pump } := by
          unfold FullOtpPump.receive
          rw [active, decoded]
          rfl
        obtain ⟨spent, -⟩ := closes (.wire e) (by rw [refused])
        rw [refused] at spent
        exact absurd (spent.closed.symm.trans active) nofun
  · rintro ⟨r, decoded⟩ e refused
    obtain ⟨q, trail, carried, same⟩ := receive_decoded active decoded refused
    have closed : (serve mac source (.receive frame) s).pump.closed = true := by
      show (s.pump.receive mac frame).pump.closed = true
      rw [same]
      rfl
    intro turn
    refine ⟨?_, ?_, ?_⟩
    · show Spent (s.pump.receive mac frame).pump
      rw [same]
      exact spent_fail q
    · intro d stream mem
      show ∃ z, Zeroed stream z ∧ (z ∈ (s.pump.receive mac frame).trail.dropped ∨
        z = (s.pump.receive mac frame).pump.current d)
      rw [same]
      exact carried.failed _ d mem
    · intro later
      exact run_closed mac source later closed

/-! ### A new server pump -/

/-- A book that has no bundle left. -/
def emptyBook : PadSource Unit where
  reserveNextBundle _ := (.error (.reserve "exhausted"), ())
  reserveBundleAt _ _ := (.error (.reserve "exhausted"), ())

def zeroMac : MacKey → Bytes → Tag := fun _ _ => .replicate 16 0

/-- A new server pump over a bundle of sevens. -/
def newServer : FullOtpPump := .new .server 1 (.replicate 8192 7)

theorem receive_fails_closed_iff_new :
    let s : Served Unit := ⟨newServer, (), []⟩
    s.pump.closed = false ∧
      (FailsClosed zeroMac emptyBook [0x00, 0x02] s ↔ ∃ r, decode [0x00, 0x02] = .ok r) :=
  ⟨rfl, receive_fails_closed_iff zeroMac emptyBook .server 1 (.replicate 8192 7) () [] [0x00, 0x02] rfl⟩

/-- Two bytes that are no frame: `receive` refuses them, and the pump goes on. -/
theorem short_frame_leaves_pump_open :
    let s : Served Unit := ⟨newServer, (), []⟩
    (s.pump.receive zeroMac [0x00, 0x02]).result = .error (.wire .tooShort) ∧
      (s.pump.receive zeroMac [0x00, 0x02]).pump = s.pump ∧ s.pump.closed = false ∧
      ¬FailsClosed zeroMac emptyBook [0x00, 0x02] s := by
  refine ⟨rfl, rfl, rfl, ?_⟩
  intro closes
  obtain ⟨spent, -⟩ := closes (.wire .tooShort) rfl
  exact absurd spent.closed nofun

end Jbuu.FullOtp
