/-
# Transport.Polling — a receiver that takes a timeout for "nothing yet"

The terminal loops set a short deadline, call `recv_frame` and call it again when it
returns `Timeout`. `recv_frame` keeps what it has read on its own stack: a timeout that
finds it inside a frame drops these bytes, and the next call reads the middle of the frame
as a header.

`carried` counts the bytes the receiver has or can still get. No turn adds to it, a timeout
inside a frame takes from it (`Steady.strands`), so a run that had one never delivers the
list again; a timeout between two frames changes nothing (`Reached.poll`).
`polling_delivers_iff` is both together.
-/
import Jbuu.Transport.Link

namespace Jbuu.Transport

set_option autoImplicit false

open Jbuu.Library.BigEndian (Bytes)
open Jbuu.Library

/-! ## Timeouts -/

/-- The call has read a byte of a frame and waits for another one. -/
def RecvFrame.Inside (call : RecvFrame) : Prop := call.held ≠ [] ∧ 0 < call.due

/-- The peer's turns are calm; the receiver's may also time out. -/
def Turn.Polls : Turn Kernel → Prop
  | .send kernel => kernel.Calm
  | .recv kernel => kernel.Calm ∨ kernel = .timedOut

/-- The turn is not a timeout inside a frame. -/
def Clear (s : Link) (turn : Turn Kernel) : Prop :=
  turn = .recv .timedOut → s.receiver.ended = none → ¬s.receiver.call.Inside

instance (call : RecvFrame) : Decidable call.Inside := inferInstanceAs (Decidable (_ ∧ _))

instance (s : Link) (turn : Turn Kernel) : Decidable (Clear s turn) :=
  inferInstanceAs (Decidable (_ → _ → _))

/-- A timeout ends a call that waits for bytes, and no other. -/
theorem pass_timedOut (call : RecvFrame) (sound : call.Sound) (pipe : Pipe) :
    call.pass TcpTransport.io .timedOut pipe =
      if 0 < call.due then (.inr (.error .timeout), pipe)
      else call.pass TcpTransport.io (.ready 0) pipe := by
  cases call with
  | header got =>
      by_cases waits : frameHeaderLen ≤ got.length
      · simp [RecvFrame.pass, RecvFrame.due, TcpTransport.io, TcpTransport.readFull, waits]
      · simp [RecvFrame.pass, RecvFrame.due, TcpTransport.io, TcpTransport.readFull, waits]
  | payload head payloadLen got =>
      by_cases waits : payloadLen ≤ got.length
      · simp [RecvFrame.pass, RecvFrame.due, TcpTransport.io, TcpTransport.readFull, waits]
      · simp [RecvFrame.pass, RecvFrame.due, TcpTransport.io, TcpTransport.readFull, waits]

/-! ## Between two frames -/

section

variable {frames : List Bytes} {s : Link}

/-- A timeout that does not find the receiver inside a frame is as good as an answer that
brings nothing. -/
theorem step_timedOut (clear : Clear s (.recv .timedOut)) (sound : s.receiver.call.Sound) :
    s.step TcpTransport.io (.recv .timedOut) = s ∨
      s.step TcpTransport.io (.recv .timedOut) = s.step TcpTransport.io (.recv (.ready 0)) := by
  obtain ⟨sender, pipe, ⟨call, received, ended⟩⟩ := s
  cases ended with
  | some e => exact .inl rfl
  | none =>
      have outside : ¬call.Inside := clear rfl rfl
      simp only [Link.step, Receiver.step, pass_timedOut call sound]
      by_cases waits : 0 < call.due
      · left
        rw [if_pos waits]
        have fresh : call.held = [] := by
          by_contra some
          exact outside ⟨some, waits⟩
        have begins : call = .start := by
          cases call with
          | header got =>
              obtain rfl : got = [] := fresh
              rfl
          | payload head payloadLen got =>
              have empty : head = [] := (List.append_eq_nil_iff.mp fresh).1
              simp [RecvFrame.Sound, empty, frameHeaderLen] at sound
        rw [begins]
      · right
        rw [if_neg waits]

theorem Reached.sound {eager : Bool} (here : Reached eager frames s) (live : s.receiver.ended = none) :
    s.receiver.call.Sound := by
  obtain ⟨todo, synced⟩ := here.synced (by simp [live])
  exact synced.sound

theorem Reached.poll (accepted : ∀ frame ∈ frames, Accepted frame) {turn : Turn Kernel}
    (polls : turn.Polls) (clear : Clear s turn) (here : Reached true frames s) :
    Reached true frames (s.step TcpTransport.io turn) := by
  cases turn with
  | send kernel => exact here.step tcp_lawful polls accepted
  | recv kernel =>
      rcases polls with calm | rfl
      · exact here.step tcp_lawful calm accepted
      · cases live : s.receiver.ended with
        | some e =>
            have kept : s.step TcpTransport.io (.recv .timedOut) = s := by
              simp [Link.step, Receiver.step, live]
            rw [kept]
            exact here
        | none =>
            rcases step_timedOut clear (here.sound live) with same | calm
            · rw [same]
              exact here
            · rw [calm]
              exact here.step tcp_lawful trivial accepted

/-! ## Inside a frame -/

/-- The bytes the receiver has returned, holds, or can still get. -/
def Link.carried (s : Link) : Nat := s.receiver.received.flatten.length + s.onTheWay.length

/-- What every run keeps, with timeouts or without. -/
structure Steady (frames : List Bytes) (s : Link) : Prop where
  sound : s.receiver.call.Sound
  queued : ∀ frame ∈ s.sender.queue, frame ∈ frames
  here : s.pipe.readerGone = false

theorem Steady.send (accepted : ∀ frame ∈ frames, Accepted frame) {kernel : Kernel} (calm : kernel.Calm)
    (steady : Steady frames s) :
    Steady frames (s.step TcpTransport.io (.send kernel)) ∧
      (s.step TcpTransport.io (.send kernel)).carried ≤ s.carried := by
  obtain ⟨⟨rest, queue, ended⟩, pipe, receiver⟩ := s
  cases ended with
  | some result => exact ⟨steady, Nat.le_refl _⟩
  | none =>
      have sends : Sends ⟨rest, queue, none⟩ pipe (Sender.step TcpTransport.io kernel ⟨rest, queue, none⟩ pipe) :=
        Sender.step_sends tcp_lawful calm
          (fun frame mem => accepted frame (steady.queued frame mem)) rfl steady.here
      simp only [Link.step]
      generalize Sender.step TcpTransport.io kernel _ pipe = result at sends
      cases sends with
      | waits => exact ⟨steady, Nat.le_refl _⟩
      | takes frame queue' done next =>
          dsimp only at done next
          subst done next
          refine ⟨{ steady with queued := fun f mem => steady.queued f (List.mem_cons_of_mem _ mem) }, ?_⟩
          simp [Link.carried, Link.onTheWay]
      | writes n moved fits pipe' entered closed gone =>
          refine ⟨{ steady with here := gone.trans steady.here }, ?_⟩
          dsimp only at fits
          simp [Link.carried, Link.onTheWay, entered]
          omega
      | ends done last => exact ⟨{ steady with here := steady.here }, Nat.le_refl _⟩

theorem Steady.recv {kernel : Kernel} (calm : kernel.Calm) (steady : Steady frames s) :
    Steady frames (s.step TcpTransport.io (.recv kernel)) ∧
      (s.step TcpTransport.io (.recv kernel)).carried ≤ s.carried := by
  obtain ⟨sender, pipe, ⟨call, received, ended⟩⟩ := s
  cases ended with
  | some e => exact ⟨steady, Nat.le_refl _⟩
  | none =>
      have passes := RecvFrame.pass_passes tcp_lawful calm steady.sound pipe
      simp only [Link.step, Receiver.step]
      dsimp only at passes
      generalize call.pass TcpTransport.io kernel pipe = result at passes
      cases passes with
      | still n fits call' held sound idle =>
          refine ⟨{ steady with sound := sound }, ?_⟩
          simp [Link.carried, Link.onTheWay, held]
          omega
      | returns n fits second =>
          refine ⟨{ steady with sound := .inr rfl }, ?_⟩
          simp [Link.carried, Link.onTheWay, RecvFrame.start, RecvFrame.held]
          omega
      | fails n fits e real =>
          cases e with
          | timeout => exact absurd rfl real
          | _ =>
              refine ⟨{ steady with here := steady.here }, ?_⟩
              simp [Link.carried, Link.onTheWay]

/-- A timeout inside a frame takes the bytes of the frame that were read. -/
theorem Steady.strands (steady : Steady frames s) (lost : ¬Clear s (.recv .timedOut)) :
    Steady frames (s.step TcpTransport.io (.recv .timedOut)) ∧
      (s.step TcpTransport.io (.recv .timedOut)).carried < s.carried := by
  obtain ⟨sender, pipe, ⟨call, received, ended⟩⟩ := s
  simp only [Clear, true_implies, Classical.not_imp, not_not] at lost
  obtain ⟨rfl, some, waits⟩ := lost
  simp only [Link.step, Receiver.step]
  rw [pass_timedOut call steady.sound pipe, if_pos waits]
  refine ⟨{ steady with sound := .inr rfl }, ?_⟩
  have := List.length_pos_iff.mpr some
  simp only [Link.carried, Link.onTheWay, RecvFrame.start, RecvFrame.held, List.length_append,
    List.length_nil, Nat.zero_add] at this ⊢
  omega

theorem Steady.poll (accepted : ∀ frame ∈ frames, Accepted frame) {turn : Turn Kernel}
    (polls : turn.Polls) (steady : Steady frames s) :
    Steady frames (s.step TcpTransport.io turn) ∧
      (s.step TcpTransport.io turn).carried ≤ s.carried ∧
      (¬Clear s turn → (s.step TcpTransport.io turn).carried < s.carried) := by
  cases turn with
  | send kernel =>
      obtain ⟨kept, le⟩ := steady.send accepted polls
      exact ⟨kept, le, fun lost => absurd nofun lost⟩
  | recv kernel =>
      by_cases clear : Clear s (.recv kernel)
      · rcases polls with calm | rfl
        · obtain ⟨kept, le⟩ := steady.recv calm
          exact ⟨kept, le, fun lost => absurd clear lost⟩
        · rcases step_timedOut clear steady.sound with same | calm
          · rw [same]
            exact ⟨steady, Nat.le_refl _, fun lost => absurd clear lost⟩
          · rw [calm]
            obtain ⟨kept, le⟩ := @Steady.recv _ _ (.ready 0) trivial steady
            exact ⟨kept, le, fun lost => absurd clear lost⟩
      · obtain rfl : kernel = .timedOut := by
          by_contra other
          exact clear (fun same => absurd (Turn.recv.inj same) other)
        obtain ⟨kept, less⟩ := steady.strands clear
        exact ⟨kept, less.le, fun _ => less⟩

/-! ## Runs -/

theorem Steady.run (accepted : ∀ frame ∈ frames, Accepted frame) {turns : List (Turn Kernel)}
    (polls : ∀ turn ∈ turns, turn.Polls) (steady : Steady frames s) :
    (Library.run (Link.step TcpTransport.io) turns s).carried ≤ s.carried ∧
      (¬Along (Link.step TcpTransport.io) Clear turns s →
        (Library.run (Link.step TcpTransport.io) turns s).carried < s.carried) := by
  induction turns generalizing s with
  | nil => exact ⟨Nat.le_refl _, fun lost => absurd trivial lost⟩
  | cons turn rest ih =>
      obtain ⟨kept, le, less⟩ := steady.poll accepted (polls turn (List.mem_cons_self ..))
      obtain ⟨restLe, restLess⟩ := ih (fun t mem => polls t (List.mem_cons_of_mem _ mem)) kept
      refine ⟨restLe.trans le, fun lost => ?_⟩
      by_cases clear : Clear s turn
      · exact (restLess fun along => lost ⟨clear, along⟩).trans_le le
      · exact restLe.trans_lt (less clear)

theorem Reached.polls (accepted : ∀ frame ∈ frames, Accepted frame) {turns : List (Turn Kernel)}
    (polls : ∀ turn ∈ turns, turn.Polls) (clear : Along (Link.step TcpTransport.io) Clear turns s)
    (here : Reached true frames s) :
    Reached true frames (Library.run (Link.step TcpTransport.io) turns s) := by
  induction turns generalizing s with
  | nil => exact here
  | cons turn rest ih =>
      refine ih (fun t mem => polls t (List.mem_cons_of_mem _ mem)) clear.2 ?_
      exact here.poll accepted (polls turn (List.mem_cons_self ..)) clear.1

end

/-- A receiver that polls is delivered every frame exactly when no timeout finds it inside
a frame. -/
theorem polling_delivers_iff (frames : List Bytes) (accepted : ∀ frame ∈ frames, Accepted frame)
    (capacity : Nat) (positive : 0 < capacity) (turns : List (Turn Kernel))
    (polls : ∀ turn ∈ turns, turn.Polls) :
    Delivers TcpTransport.io Kernel.Calm Kernel.Brisk frames
        (run (Link.step TcpTransport.io) turns (Link.start frames capacity positive)) ↔
      Along (Link.step TcpTransport.io) Clear turns (Link.start frames capacity positive) := by
  constructor
  · intro delivers
    by_contra lost
    obtain ⟨enough, ends⟩ := delivers.2.2
    obtain ⟨rounds, fair, rfl⟩ := some_rounds tcp_lawful enough
    have finish := (ends rounds fair (Nat.le_refl _)).2
    have steady : Steady frames (Link.start frames capacity positive) := ⟨.inr rfl, fun _ mem => mem, rfl⟩
    have all : ∀ turn ∈ turns ++ rounds.flatten, turn.Polls := by
      intro turn mem
      rcases List.mem_append.mp mem with mem | mem
      · exact polls turn mem
      · have calm := Round.flatten fair turn mem
        cases turn with
        | send kernel => exact calm
        | recv kernel => exact .inl calm
    have less := (steady.run accepted all).2 (fun along => lost (Along.append _ |>.mp along).1)
    rw [run_append] at less
    -- but the frames received are all the bytes there were
    have whole : (Link.start frames capacity positive).carried = frames.flatten.length := by
      simp [Link.carried, Link.start, Link.onTheWay, RecvFrame.start, RecvFrame.held, Pipe.new]
    rw [whole, Link.carried, finish] at less
    omega
  · intro clear
    have here : Reached true frames (Link.start frames capacity positive) :=
      .inl ⟨frames, .start true frames capacity positive⟩
    exact (here.polls accepted polls clear).delivers tcp_lawful accepted (by simp)

/-- Timeouts before the first byte and after the last one. -/
theorem polling_delivers_iff_pause :
    Delivers TcpTransport.io Kernel.Calm Kernel.Brisk [[0, 2, 0, 6, 0, 0, 0, 1, 7]]
      (run (Link.step TcpTransport.io)
        [.recv .timedOut, .send (.ready 1), .send (.ready 9), .recv (.ready 8), .recv (.ready 8),
          .recv .timedOut]
        (Link.start [[0, 2, 0, 6, 0, 0, 0, 1, 7]] 64 (by decide))) := by
  refine (polling_delivers_iff _ (by decide) 64 (by decide) _ ?_).mpr ?_
  · simp [Turn.Polls, Kernel.Calm]
  · exact ⟨by decide, by decide, by decide, by decide, by decide, by decide, trivial⟩

/-- The header comes in two halves with a timeout between them: the second half and the
payload are taken for the start of a header, and the frame is gone. -/
theorem timeout_inside_a_header_loses_the_frame :
    let frame : Bytes := [0, 2, 0, 6, 0, 0, 0, 1, 7]
    let turns : List (Turn Kernel) :=
      [.send (.ready 9), .send (.ready 4), .recv (.ready 4), .recv .timedOut, .send (.ready 9),
        .send (.ready 9), .recv (.ready 9), .recv (.ready 9)]
    let s := run (Link.step TcpTransport.io) turns (Link.start [frame] 64 (by decide))
    Accepted frame ∧ s.sender.ended = some (.ok ()) ∧ s.receiver.received = [] ∧
      s.receiver.ended = some .frameMalformed ∧
      ¬Delivers TcpTransport.io Kernel.Calm Kernel.Brisk [frame] s := by
  refine ⟨by decide, by decide, by decide, by decide, fun delivers => ?_⟩
  have finish := (delivers.2.1 .frameMalformed (by decide)).2
  simp at finish

end Jbuu.Transport
