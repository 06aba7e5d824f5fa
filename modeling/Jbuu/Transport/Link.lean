/-
# Transport.Link — a sender, a pipe and a receiver, in any interleaving

One end calls `send_frame` for each frame of a list and then `shutdown_write`; the other
calls `recv_frame` again and again, taking `Timeout` for "nothing yet", until another
error ends it. A turn is one pass of either end, with the platform's answer to it.

`Synced` is the invariant of a run without passed deadlines: what the receiver holds, the
pipe and the bytes not yet written are together the frames not yet returned.
`Reached` says how the receiver can end, `rounds_end` that it does. The loopback never returns a last frame without a payload (`Synced.behind`), which is
what `framing_round_trips_iff` comes to.
-/
import Jbuu.Library.Runs
import Jbuu.Transport.Frame

namespace Jbuu.Transport

set_option autoImplicit false

open Jbuu.Library.BigEndian (Bytes)
open Jbuu.Library

/-! ## The two ends -/

/-- The sending end: `frame[off..]` of the frame in `send_frame`, and the frames after it. -/
structure Sender where
  rest : Bytes
  queue : List Bytes
  ended : Option (Except TransportError Unit)

/-- The receiving end: the call in progress, the frames it was given, and its last error. -/
structure Receiver where
  call : RecvFrame
  received : List Bytes
  ended : Option TransportError

structure Link where
  sender : Sender
  pipe : Pipe
  receiver : Receiver

/-- One pass of one end, with the platform's answer. -/
inductive Turn (ε : Type) where
  | send (answer : ε)
  | recv (answer : ε)
  deriving DecidableEq

variable {ε : Type}

def Sender.step (io : ByteIo ε) (answer : ε) (s : Sender) (pipe : Pipe) : Sender × Pipe :=
  match s.ended with
  | some _ => (s, pipe)
  | none =>
      if s.rest = [] then
        match s.queue with
        | [] => ({ s with ended := some (.ok ()) }, pipe.closeWrite)
        | frame :: queue =>
            match checkFrame frame with
            | .error e => ({ s with ended := some (.error e) }, pipe)
            | .ok () => ({ s with rest := frame, queue := queue }, pipe)
      else
        match writeRest io answer s.rest pipe with
        | (.wrote n, pipe) => ({ s with rest := s.rest.drop n }, pipe)
        | (.again, pipe) => (s, pipe)
        | (.error e, pipe) => ({ s with ended := some (.error e) }, pipe)

def Receiver.step (io : ByteIo ε) (answer : ε) (r : Receiver) (pipe : Pipe) : Receiver × Pipe :=
  match r.ended with
  | some _ => (r, pipe)
  | none =>
      match r.call.pass io answer pipe with
      | (.inl call, pipe) => ({ r with call := call }, pipe)
      | (.inr (.ok frame), pipe) =>
          ({ r with call := .start, received := r.received ++ [frame] }, pipe)
      -- the polling loops take a timeout for "nothing yet"
      | (.inr (.error .timeout), pipe) => ({ r with call := .start }, pipe)
      | (.inr (.error e), pipe) => ({ r with ended := some e }, pipe)

namespace Link

def start (frames : List Bytes) (capacity : Nat) (positive : 0 < capacity) : Link where
  sender := { rest := [], queue := frames, ended := none }
  pipe := Pipe.new capacity positive
  receiver := { call := .start, received := [], ended := none }

def step (io : ByteIo ε) : Turn ε → Link → Link
  | .send answer, s =>
      let (sender, pipe) := s.sender.step io answer s.pipe
      { s with sender := sender, pipe := pipe }
  | .recv answer, s =>
      let (receiver, pipe) := s.receiver.step io answer s.pipe
      { s with receiver := receiver, pipe := pipe }

end Link

/-- No deadline passes in this turn and nothing fails. -/
def Turn.Calm (calm : ε → Prop) : Turn ε → Prop
  | .send answer => calm answer
  | .recv answer => calm answer

/-! ## What a turn can do -/

/-- A turn of the sender, while it runs. -/
inductive Sends (s : Sender) (pipe : Pipe) : Sender × Pipe → Prop
  | waits : Sends s pipe (s, pipe)
  | takes (frame : Bytes) (queue : List Bytes) (done : s.rest = []) (next : s.queue = frame :: queue) :
      Sends s pipe ({ s with rest := frame, queue := queue }, pipe)
  | writes (n : Nat) (moved : 0 < n) (fits : n ≤ s.rest.length) (pipe' : Pipe)
      (entered : pipe'.buf = pipe.buf ++ s.rest.take n)
      (closed : pipe'.writeClosed = pipe.writeClosed) (gone : pipe'.readerGone = pipe.readerGone) :
      Sends s pipe ({ s with rest := s.rest.drop n }, pipe')
  | ends (done : s.rest = []) (last : s.queue = []) :
      Sends s pipe ({ s with ended := some (.ok ()) }, pipe.closeWrite)

theorem Sender.step_sends {io : ByteIo ε} {calm brisk : ε → Prop} {eager : Bool} {answer : ε}
    (lawful : Lawful io calm brisk eager) (quiet : calm answer) {s : Sender} {pipe : Pipe}
    (accepted : ∀ frame ∈ s.queue, Accepted frame) (live : s.ended = none)
    (here : pipe.readerGone = false) : Sends s pipe (s.step io answer pipe) := by
  obtain ⟨rest, queue, ended⟩ := s
  obtain rfl : ended = none := live
  unfold Sender.step
  dsimp only
  by_cases done : rest = []
  · rw [if_pos done]
    cases queue with
    | nil => exact .ends done rfl
    | cons frame queue =>
        have taken : checkFrame frame = .ok () := accepted frame (List.mem_cons_self ..)
        simp only [taken]
        exact .takes frame queue done rfl
  · rw [if_neg done]
    have some : rest.take writeChunk ≠ [] := by simp [writeChunk, done]
    have passes := lawful.writes quiet some here
    simp only [writeRest]
    generalize io.writePartial answer (rest.take writeChunk) pipe = result at passes
    cases passes with
    | again => exact .waits
    | wrote n moved fits pipe' entered closed gone =>
        rw [List.length_take] at fits
        rw [List.take_take, Nat.min_eq_left (by omega)] at entered
        exact .writes n moved (show n ≤ rest.length by omega) pipe' entered closed gone

/-- What the call knows of the frame it is reading. -/
def RecvFrame.Sound : RecvFrame → Prop
  | .header got => Midway frameHeaderLen got
  | .payload head payloadLen got =>
      head.length = frameHeaderLen ∧ declaredLen head = payloadLen ∧ Midway payloadLen got

/-- A pass of the receiver without a passed deadline: the bytes it takes from the pipe are
with the call, or in the frame, or the call has failed. -/
inductive Passes (call : RecvFrame) (pipe : Pipe) :
    (RecvFrame ⊕ Except TransportError Bytes) × Pipe → Prop
  | still (n : Nat) (fits : n ≤ pipe.buf.length) (call' : RecvFrame)
      (held : call'.held = call.held ++ pipe.buf.take n) (sound : call'.Sound)
      (idle : n = 0 → call' = call) :
      Passes call pipe (.inl call', pipe.drain n)
  | returns (n : Nat) (fits : n ≤ pipe.buf.length) (second : ∀ got, call ≠ .header got) :
      Passes call pipe (.inr (.ok (call.held ++ pipe.buf.take n)), pipe.drain n)
  | fails (n : Nat) (fits : n ≤ pipe.buf.length) (e : TransportError) (real : e ≠ .timeout) :
      Passes call pipe (.inr (.error e), pipe.drain n)

section

variable {io : ByteIo ε} {calm brisk : ε → Prop} {eager : Bool} {answer : ε} {call : RecvFrame}

/-- A header that is filled took a byte in this pass. -/
theorem filled_moved {n : Nat} {got : Bytes} {pipe : Pipe} (midway : Midway frameHeaderLen got)
    (fits : n ≤ pipe.buf.length) (full : (got ++ pipe.buf.take n).length = frameHeaderLen) : 0 < n := by
  simp only [List.length_append, List.length_take] at full
  rcases midway with short | fresh
  · omega
  · simp only [fresh, List.length_nil, frameHeaderLen] at full
    omega

theorem RecvFrame.pass_passes (lawful : Lawful io calm brisk eager) (quiet : calm answer)
    (sound : call.Sound) (pipe : Pipe) : Passes call pipe (call.pass io answer pipe) := by
  cases call with
  | header got =>
      have midway : Midway frameHeaderLen got := sound
      have reads := @lawful.reads _ _ _ pipe quiet midway
      simp only [RecvFrame.pass]
      generalize io.readFull answer frameHeaderLen got pipe = result at reads
      cases reads with
      | again n fits midway => exact .still n fits _ rfl midway (by rintro rfl; simp)
      | filled n fits full seen =>
          dsimp only
          by_cases large : maxFramePayload < declaredLen (got ++ pipe.buf.take n)
          · rw [if_pos large]
            exact .fails n fits _ nofun
          · rw [if_neg large]
            have moved := filled_moved midway fits full
            exact .still n fits _ (by simp [RecvFrame.held]) ⟨full, rfl, .inr rfl⟩ (by omega)
      | eof fresh dry closed waited => exact .fails 0 (Nat.zero_le _) _ nofun
      | cut begun short closed => exact .fails _ (Nat.le_refl _) _ nofun
  | payload head payloadLen got =>
      obtain ⟨headLen, declared, midway⟩ := sound
      have reads := @lawful.reads _ _ _ pipe quiet midway
      simp only [RecvFrame.pass]
      generalize io.readFull answer payloadLen got pipe = result at reads
      cases reads with
      | again n fits midway =>
          exact .still n fits _ (by simp [RecvFrame.held]) ⟨headLen, declared, midway⟩
            (by rintro rfl; simp)
      | filled n fits full seen =>
          simpa [RecvFrame.held] using
            @Passes.returns (.payload head payloadLen got) pipe n fits nofun
      | eof fresh dry closed waited => exact .fails 0 (Nat.zero_le _) _ nofun
      | cut begun short closed => exact .fails _ (Nat.le_refl _) _ nofun

/-- On a brisk answer, with something to read or the end of it, a call moves on. -/
theorem RecvFrame.pass_moves (lawful : Lawful io calm brisk eager) (go : brisk answer)
    (sound : call.Sound) {pipe : Pipe} (ready : pipe.buf ≠ [] ∨ pipe.writeClosed = true)
    (call' : RecvFrame) : call.pass io answer pipe ≠ (.inl call', pipe) := by
  intro stays
  cases call with
  | header got =>
      have midway : Midway frameHeaderLen got := sound
      have reads := @lawful.reads _ _ _ pipe (lawful.brisk_calm go) midway
      have moves := lawful.brisk_reads go ready midway
      simp only [RecvFrame.pass] at stays
      generalize io.readFull answer frameHeaderLen got pipe = result at reads moves stays
      cases reads with
      | again n fits _ => exact moves _ (by rw [(Prod.mk.inj stays).2])
      | filled n fits full seen =>
          dsimp only at stays
          split at stays
          · simp at stays
          · have moved := filled_moved midway fits full
            have wet : pipe.buf ≠ [] := List.length_pos_iff.mp (by omega)
            exact Pipe.drain_ne moved wet (Prod.mk.inj stays).2
      | eof fresh dry closed waited => simp at stays
      | cut begun short closed => simp at stays
  | payload head payloadLen got =>
      obtain ⟨-, -, midway⟩ := sound
      have reads := @lawful.reads _ _ _ pipe (lawful.brisk_calm go) midway
      have moves := lawful.brisk_reads go ready midway
      simp only [RecvFrame.pass] at stays
      generalize io.readFull answer payloadLen got pipe = result at reads moves stays
      cases reads with
      | again n fits _ => exact moves _ (by rw [(Prod.mk.inj stays).2])
      | filled n fits full seen => simp at stays
      | eof fresh dry closed waited => simp at stays
      | cut begun short closed => simp at stays

end

/-! ## The invariant -/

/-- The last frame of the list has no payload. -/
def EndsEmpty (frames : List Bytes) : Prop :=
  ∃ front last, frames = front ++ [last] ∧ declaredLen last = 0

/-- The bytes that are on the way to the receiver. -/
def Link.onTheWay (s : Link) : Bytes :=
  s.receiver.call.held ++ (s.pipe.buf ++ (s.sender.rest ++ s.sender.queue.flatten))

/-- The invariant: the frames are the ones received and the ones still `todo`, and these
are the bytes on the way. -/
structure Synced (eager : Bool) (frames todo : List Bytes) (s : Link) : Prop where
  split : frames = s.receiver.received ++ todo
  live : s.receiver.ended = none
  bytes : s.onTheWay = todo.flatten
  sound : s.receiver.call.Sound
  queued : ∀ frame ∈ s.sender.queue, frame ∈ frames
  sending : s.sender.ended = none ∧ s.pipe.writeClosed = false ∨
    s.sender.ended = some (.ok ()) ∧ s.sender.rest = [] ∧ s.sender.queue = [] ∧
      s.pipe.writeClosed = true
  here : s.pipe.readerGone = false
  /-- A stream that waits for a byte before it fills an empty buffer never returns a last
  frame without a payload. -/
  behind : eager = false → EndsEmpty frames → todo ≠ []

theorem Synced.start (eager : Bool) (frames : List Bytes) (capacity : Nat) (positive : 0 < capacity) :
    Synced eager frames frames (Link.start frames capacity positive) where
  split := rfl
  live := rfl
  bytes := by simp [Link.start, Link.onTheWay, RecvFrame.start, RecvFrame.held, Pipe.new]
  sound := .inr rfl
  queued := fun _ mem => mem
  sending := .inl ⟨rfl, rfl⟩
  here := rfl
  behind := by
    rintro - ⟨front, last, rfl, -⟩
    simp

/-! ## A turn keeps it -/

/-- Bytes that are cut in two and put together, in front of others. -/
theorem take_drop_append (n : Nat) (bytes rest : Bytes) :
    bytes.take n ++ (bytes.drop n ++ rest) = bytes ++ rest := by
  rw [← List.append_assoc, List.take_append_drop]

section

variable {io : ByteIo ε} {calm brisk : ε → Prop} {eager : Bool} {answer : ε} {frames todo : List Bytes}
  {s : Link}

theorem Synced.send (lawful : Lawful io calm brisk eager) (quiet : calm answer)
    (accepted : ∀ frame ∈ frames, Accepted frame) (synced : Synced eager frames todo s) :
    Synced eager frames todo (s.step io (.send answer)) := by
  obtain ⟨⟨rest, queue, ended⟩, pipe, receiver⟩ := s
  rcases synced.sending with ⟨running, opened⟩ | ⟨past, -⟩
  · have here : pipe.readerGone = false := synced.here
    have sends := Sender.step_sends lawful quiet
      (fun frame mem => accepted frame (synced.queued frame mem)) running here
    simp only [Link.step]
    generalize Sender.step io answer _ pipe = result at sends ⊢
    cases sends with
    | waits => exact synced
    | takes frame queue' done next =>
        dsimp only at done next
        subst done next
        exact { synced with
          bytes := by simpa [Link.onTheWay] using synced.bytes
          queued := fun f mem => synced.queued f (List.mem_cons_of_mem _ mem)
          sending := .inl ⟨running, opened⟩ }
    | writes n moved fits pipe' entered closed gone =>
        exact { synced with
          bytes := by
            have := synced.bytes
            simp only [Link.onTheWay, entered] at this ⊢
            rw [← this, List.append_assoc, take_drop_append]
          sending := .inl ⟨running, closed.trans opened⟩
          here := gone.trans synced.here }
    | ends done last =>
        exact { synced with sending := .inr ⟨rfl, done, last, rfl⟩ }
  · dsimp only at past
    subst past
    exact synced

/-- Bytes that are frames and begin with a header begin with its frame. -/
theorem next_frame (accepted : ∀ frame ∈ todo, Accepted frame) {head rest : Bytes}
    (len : head.length = frameHeaderLen) (bytes : head ++ rest = todo.flatten) :
    ∃ body todo', todo = (head ++ body) :: todo' ∧ body.length = declaredLen head ∧
      declaredLen head ≤ maxFramePayload ∧ rest = body ++ todo'.flatten := by
  cases todo with
  | nil => simp_all [frameHeaderLen]
  | cons frame todo' =>
      obtain ⟨whole, small⟩ := accepted_iff.mp (accepted frame (List.mem_cons_self ..))
      rw [List.flatten_cons] at bytes
      have front : head <+: frame := by
        refine List.prefix_of_prefix_length_le (List.prefix_append head rest) ?_ (by omega)
        rw [bytes]
        exact List.prefix_append ..
      obtain ⟨body, rfl⟩ := front
      have declared : declaredLen (head ++ body) = declaredLen head := by
        unfold declaredLen
        rw [slice_append (by simp [len, frameHeaderLen])]
      rw [declared] at whole small
      refine ⟨body, todo', rfl, ?_, small, ?_⟩
      · simp only [List.length_append, len] at whole
        omega
      · rw [List.append_assoc] at bytes
        exact List.append_cancel_left bytes

theorem nothing_left (accepted : ∀ frame ∈ todo, Accepted frame)
    (short : todo.flatten.length < frameHeaderLen) : todo = [] := by
  cases todo with
  | nil => rfl
  | cons frame todo' =>
      have := (accepted_iff.mp (accepted frame (List.mem_cons_self ..))).1
      simp only [List.flatten_cons, List.length_append] at short
      omega

/-- The receiver has every frame and the end of the stream. -/
def Complete (eager : Bool) (frames : List Bytes) (r : Receiver) : Prop :=
  r.ended = some .closedByPeer ∧ r.received = frames ∧ ¬(eager = false ∧ EndsEmpty frames)

/-- The end of the stream came while the loopback waited for a byte to fill nothing. -/
def Stranded (eager : Bool) (frames : List Bytes) (r : Receiver) : Prop :=
  r.ended = some .frameMalformed ∧ eager = false ∧ EndsEmpty frames ∧
    ∃ last, frames = r.received ++ [last]

theorem Synced.todo_accepted (accepted : ∀ frame ∈ frames, Accepted frame)
    (synced : Synced eager frames todo s) : ∀ frame ∈ todo, Accepted frame := by
  intro frame mem
  apply accepted
  rw [synced.split]
  exact List.mem_append_right _ mem

/-- At the end of the stream what is on the way is with the receiver. -/
theorem Synced.drained (synced : Synced eager frames todo s) (closed : s.pipe.writeClosed = true) :
    s.receiver.call.held ++ s.pipe.buf = todo.flatten := by
  rcases synced.sending with ⟨-, opened⟩ | ⟨-, rest, queue, -⟩
  · simp [closed] at opened
  · simpa [Link.onTheWay, rest, queue] using synced.bytes

/-- A pass that moves bytes from the pipe to the call leaves the same on the way. -/
theorem Synced.moved (synced : Synced eager frames todo s) {call : RecvFrame} {n : Nat}
    (held : call.held = s.receiver.call.held ++ s.pipe.buf.take n) (sound : call.Sound) :
    Synced eager frames todo
      { s with receiver := { s.receiver with call := call }, pipe := s.pipe.drain n } :=
  { synced with
    bytes := by
      rw [← synced.bytes]
      simp [Link.onTheWay, held, take_drop_append]
    sound := sound }

theorem Synced.recv_header (lawful : Lawful io calm brisk eager) (quiet : calm answer)
    (accepted : ∀ frame ∈ frames, Accepted frame) (synced : Synced eager frames todo s)
    {got : Bytes} (call : s.receiver.call = .header got) :
    Synced eager frames todo (s.step io (.recv answer)) ∨
      Complete eager frames (s.step io (.recv answer)).receiver := by
  obtain ⟨sender, pipe, ⟨_, received, ended⟩⟩ := s
  obtain rfl : ended = none := synced.live
  dsimp only at call
  subst call
  have sound : Midway frameHeaderLen got := synced.sound
  have reads := @lawful.reads _ _ _ pipe quiet sound
  simp only [Link.step, Receiver.step, RecvFrame.pass]
  generalize io.readFull answer frameHeaderLen got pipe = result at reads
  cases reads with
  | again n fits midway => exact .inl (synced.moved rfl midway)
  | filled n fits full seen =>
      left
      have bytes : (got ++ pipe.buf.take n) ++ (pipe.buf.drop n ++ (sender.rest ++ sender.queue.flatten)) =
          todo.flatten := by
        rw [← synced.bytes]
        simp [Link.onTheWay, RecvFrame.held, take_drop_append]
      obtain ⟨body, todo', rfl, -, small, -⟩ :=
        next_frame (synced.todo_accepted accepted) full bytes
      dsimp only
      rw [if_neg (by omega)]
      exact synced.moved (by simp [RecvFrame.held]) ⟨full, rfl, .inr rfl⟩
  | eof fresh dry closed waited =>
      right
      have := synced.drained closed
      dsimp only [RecvFrame.held] at this
      rw [fresh, dry] at this
      have nothing : todo = [] := nothing_left (synced.todo_accepted accepted) (by simp [← this, frameHeaderLen])
      exact ⟨rfl, by simpa [nothing] using synced.split.symm, fun both =>
        synced.behind both.1 both.2 nothing⟩
  | cut begun short closed =>
      exfalso
      have := synced.drained closed
      dsimp only [RecvFrame.held] at this
      have nothing : todo = [] := nothing_left (synced.todo_accepted accepted) (this ▸ short)
      rw [nothing] at this
      exact begun this

theorem Synced.recv_payload (lawful : Lawful io calm brisk eager) (quiet : calm answer)
    (accepted : ∀ frame ∈ frames, Accepted frame) (synced : Synced eager frames todo s)
    {head got : Bytes} {payloadLen : Nat} (call : s.receiver.call = .payload head payloadLen got) :
    (∃ todo', Synced eager frames todo' (s.step io (.recv answer))) ∨
      Stranded eager frames (s.step io (.recv answer)).receiver := by
  obtain ⟨sender, pipe, ⟨_, received, ended⟩⟩ := s
  obtain rfl : ended = none := synced.live
  dsimp only at call
  subst call
  obtain ⟨headLen, rfl, midway⟩ : head.length = frameHeaderLen ∧ declaredLen head = payloadLen ∧
    Midway payloadLen got := synced.sound
  obtain ⟨body, todo', rfl, bodyLen, small, bytes⟩ :=
    next_frame (synced.todo_accepted accepted) headLen
      (by simpa [Link.onTheWay, RecvFrame.held] using synced.bytes)
  have reads := @lawful.reads _ _ _ pipe quiet midway
  simp only [Link.step, Receiver.step, RecvFrame.pass]
  generalize io.readFull answer (declaredLen head) got pipe = result at reads
  cases reads with
  | again n fits midway =>
      exact .inl ⟨_, synced.moved (by simp [RecvFrame.held]) ⟨headLen, rfl, midway⟩⟩
  | filled n fits full seen =>
      left
      have front : got ++ pipe.buf.take n = body ∧
          pipe.buf.drop n ++ (sender.rest ++ sender.queue.flatten) = todo'.flatten := by
        refine List.append_inj ?_ (by omega)
        rw [← bytes]
        simp [take_drop_append]
      refine ⟨todo', { synced with
        split := by
          rw [front.1]
          simpa using synced.split
        bytes := by simpa [Link.onTheWay, RecvFrame.start, RecvFrame.held] using front.2
        sound := .inr rfl
        behind := ?_ }⟩
      -- a stream that looked for a byte first saw one, so the frame was not the last
      rintro lazy ⟨earlier, last, whole, empty⟩ rfl
      have final : last = head ++ body := by
        have : earlier ++ [last] = received ++ [head ++ body] := whole ▸ synced.split
        simpa using congrArg List.getLast? this
      have nothing : body = [] := by
        rw [final, declaredLen, slice_append (by simp [headLen, frameHeaderLen])] at empty
        exact List.length_eq_zero_iff.mp (bodyLen.trans empty)
      rcases seen with hasty | wet
      · simp [lazy] at hasty
      · simp [nothing] at bytes
        exact wet bytes.2.1
  | eof fresh dry closed waited =>
      right
      have left_over := synced.drained closed
      simp only [RecvFrame.held, fresh, dry, List.append_nil, List.flatten_cons] at left_over
      have shorter : (head ++ body).length + todo'.flatten.length = head.length := by
        rw [← List.length_append, ← left_over]
      have nothing : body = [] := by
        apply List.length_eq_zero_iff.mp
        simp only [List.length_append] at shorter
        omega
      have last : todo' = [] := by
        apply nothing_left (fun f mem => synced.todo_accepted accepted f (List.mem_cons_of_mem _ mem))
        simp only [List.length_append, frameHeaderLen] at shorter ⊢
        omega
      have empty : declaredLen head = 0 := by simp [← bodyLen, nothing]
      have whole := synced.split
      simp only [nothing, last, List.append_nil] at whole
      refine ⟨rfl, ?_, ⟨received, head, whole, empty⟩, head, whole⟩
      cases eager with
      | false => rfl
      | true => exact absurd (waited rfl) (by omega)
  | cut begun short closed =>
      exfalso
      have left_over := synced.drained closed
      simp only [RecvFrame.held, List.flatten_cons, List.append_assoc] at left_over
      have := congrArg List.length (List.append_cancel_left left_over)
      simp only [List.length_append] at this short
      omega

/-! ## Runs -/

/-- Where a run without passed deadlines can be. -/
def Reached (eager : Bool) (frames : List Bytes) (s : Link) : Prop :=
  (∃ todo, Synced eager frames todo s) ∨ Complete eager frames s.receiver ∨
    Stranded eager frames s.receiver

theorem Reached.step (lawful : Lawful io calm brisk eager) {turn : Turn ε} (quiet : turn.Calm calm)
    (accepted : ∀ frame ∈ frames, Accepted frame) (reached : Reached eager frames s) :
    Reached eager frames (s.step io turn) := by
  rcases reached with ⟨todo, synced⟩ | past
  · cases turn with
    | send answer => exact .inl ⟨todo, synced.send lawful quiet accepted⟩
    | recv answer =>
        rcases call : s.receiver.call with got | ⟨head, payloadLen, got⟩
        · rcases synced.recv_header lawful quiet accepted call with still | complete
          · exact .inl ⟨todo, still⟩
          · exact .inr (.inl complete)
        · rcases synced.recv_payload lawful quiet accepted call with still | stranded
          · exact .inl still
          · exact .inr (.inr stranded)
  · -- a receiver that has ended stays as it is
    have ended : ∃ e, s.receiver.ended = some e := by
      rcases past with complete | stranded
      · exact ⟨_, complete.1⟩
      · exact ⟨_, stranded.1⟩
    obtain ⟨e, ended⟩ := ended
    have kept : (s.step io turn).receiver = s.receiver := by
      cases turn with
      | send answer => rfl
      | recv answer => simp [Link.step, Receiver.step, ended]
    rw [Reached, kept]
    exact .inr past

theorem Reached.after (lawful : Lawful io calm brisk eager) (accepted : ∀ frame ∈ frames, Accepted frame)
    {turns : List (Turn ε)} (quiet : ∀ turn ∈ turns, turn.Calm calm) (here : Reached eager frames s) :
    Reached eager frames (run (Link.step io) turns s) := by
  induction turns generalizing s with
  | nil => exact here
  | cons turn rest ih =>
      refine ih (fun t mem => quiet t (List.mem_cons_of_mem _ mem)) ?_
      exact here.step lawful (quiet turn (List.mem_cons_self ..)) accepted

theorem reached (lawful : Lawful io calm brisk eager) (accepted : ∀ frame ∈ frames, Accepted frame)
    {capacity : Nat} (positive : 0 < capacity) {turns : List (Turn ε)}
    (quiet : ∀ turn ∈ turns, turn.Calm calm) :
    Reached eager frames (run (Link.step io) turns (Link.start frames capacity positive)) :=
  .after lawful accepted quiet (.inl ⟨frames, .start eager frames capacity positive⟩)

/-! ## It ends -/

/-- What is left to do: a byte not written counts three turns, a byte in the pipe two. -/
def Link.work (s : Link) : Nat :=
  3 * (s.sender.rest.length + s.sender.queue.flatten.length) + 2 * s.pipe.buf.length +
    s.sender.queue.length + (match s.receiver.call with | .header _ => 0 | .payload _ _ _ => 1) +
    (if s.sender.ended = none then 1 else 0) + (if s.receiver.ended = none then 1 else 0)

/-- A turn of the receiver changes nothing or gets on, and gets on with a brisk answer
where there is something to read or the end of it. -/
theorem Receiver.step_works (lawful : Lawful io calm brisk eager) (quiet : calm answer)
    (live : s.receiver.ended = none) (sound : s.receiver.call.Sound) :
    (s.step io (.recv answer) = s ∧
        ¬(brisk answer ∧ (s.pipe.buf ≠ [] ∨ s.pipe.writeClosed = true))) ∨
      (s.step io (.recv answer)).work < s.work := by
  obtain ⟨sender, pipe, ⟨call, received, ended⟩⟩ := s
  obtain rfl : ended = none := live
  have passes := RecvFrame.pass_passes lawful quiet sound pipe
  have moves := fun (go : brisk answer) (ready : pipe.buf ≠ [] ∨ pipe.writeClosed = true) =>
    RecvFrame.pass_moves lawful go sound ready
  simp only [Link.step, Receiver.step]
  dsimp only at passes moves
  generalize call.pass io answer pipe = result at passes moves
  cases passes with
  | still n fits call' held sound' idle =>
      by_cases still : n = 0
      · left
        subst still
        rw [idle rfl]
        exact ⟨rfl, fun both => moves both.1 both.2 call (by rw [idle rfl, Pipe.drain_zero])⟩
      · right
        simp only [Link.work, Pipe.drain_buf, List.length_drop]
        cases call <;> cases call' <;> dsimp only <;> omega
  | returns n fits second =>
      right
      simp only [Link.work, Pipe.drain_buf, List.length_drop]
      cases call with
      | header got => exact absurd rfl (second got)
      | payload head payloadLen got =>
          dsimp only [RecvFrame.start]
          omega
  | fails n fits e real =>
      right
      cases e with
      | timeout => exact absurd rfl real
      | _ =>
          simp only [Link.work, Pipe.drain_buf, List.length_drop, reduceCtorEq, if_true, if_false]
          omega

/-- On a brisk answer a sender that has room does not wait. -/
theorem Sender.step_moves (lawful : Lawful io calm brisk eager) (go : brisk answer)
    {sender : Sender} {pipe : Pipe} (accepted : ∀ frame ∈ sender.queue, Accepted frame)
    (live : sender.ended = none) (here : pipe.readerGone = false) (room : 0 < pipe.space) :
    sender.step io answer pipe ≠ (sender, pipe) := by
  intro stays
  obtain ⟨rest, queue, ended⟩ := sender
  obtain rfl : ended = none := live
  unfold Sender.step at stays
  dsimp only at stays
  by_cases done : rest = []
  · rw [if_pos done] at stays
    cases queue with
    | nil => simp at stays
    | cons frame queue =>
        have taken : checkFrame frame = .ok () := accepted frame (List.mem_cons_self ..)
        simp [taken] at stays
  · rw [if_neg done] at stays
    have some : rest.take writeChunk ≠ [] := by simp [writeChunk, done]
    have passes := lawful.writes (lawful.brisk_calm go) some here
    have moves := lawful.brisk_writes go room some here
    simp only [writeRest] at stays
    generalize io.writePartial answer (rest.take writeChunk) pipe = result at passes moves stays
    cases passes with
    | again => exact moves _ rfl
    | wrote n moved fits pipe' entered closed gone =>
        have := congrArg List.length (congrArg Sender.rest (Prod.mk.inj stays).1)
        simp only [List.length_drop, List.length_take] at this fits
        omega

theorem Sender.step_works (lawful : Lawful io calm brisk eager) (quiet : calm answer)
    (accepted : ∀ frame ∈ s.sender.queue, Accepted frame) (live : s.sender.ended = none)
    (here : s.pipe.readerGone = false) :
    (s.step io (.send answer) = s ∧ ¬(brisk answer ∧ s.pipe.buf = [])) ∨
      (s.step io (.send answer)).work < s.work := by
  obtain ⟨⟨rest, queue, ended⟩, pipe, receiver⟩ := s
  have sends := Sender.step_sends lawful quiet accepted live here
  have moves := fun (go : brisk answer) => Sender.step_moves lawful go accepted live here
  simp only [Link.step]
  dsimp only at sends moves
  generalize Sender.step io answer _ pipe = result at sends moves
  cases sends with
  | waits =>
      refine .inl ⟨rfl, fun both => moves both.1 ?_ rfl⟩
      have := pipe.positive
      simp_all [Pipe.space]
  | takes frame queue' done next =>
      right
      dsimp only at done next
      subst done next
      simp [Link.work]
  | writes n moved fits pipe' entered closed gone =>
      right
      dsimp only at fits
      simp [Link.work, entered]
      omega
  | ends done last =>
      right
      dsimp only at live
      simp [Link.work, live, Pipe.closeWrite]

/-- A turn without a passed deadline changes nothing or gets on. -/
theorem Synced.idle_or_works (lawful : Lawful io calm brisk eager)
    (accepted : ∀ frame ∈ frames, Accepted frame) (synced : Synced eager frames todo s)
    {turn : Turn ε} (quiet : turn.Calm calm) :
    s.step io turn = s ∨ (s.step io turn).work < s.work := by
  cases turn with
  | send answer =>
      rcases synced.sending with ⟨running, -⟩ | ⟨past, -⟩
      · exact (Sender.step_works lawful quiet (fun frame mem => accepted frame (synced.queued frame mem))
          running synced.here).imp_left And.left
      · exact .inl (by simp [Link.step, Sender.step, past])
  | recv answer =>
      exact (Receiver.step_works lawful quiet synced.live synced.sound).imp_left And.left

/-- While the receiver runs, one of the two ends gets on with any brisk answer. -/
theorem Synced.works (lawful : Lawful io calm brisk eager)
    (accepted : ∀ frame ∈ frames, Accepted frame) (synced : Synced eager frames todo s) :
    (∀ answer, brisk answer → (s.step io (.recv answer)).work < s.work) ∨
      ∀ answer, brisk answer → (s.step io (.send answer)).work < s.work := by
  by_cases ready : s.pipe.buf ≠ [] ∨ s.pipe.writeClosed = true
  · left
    intro answer go
    rcases Receiver.step_works lawful (lawful.brisk_calm go) synced.live synced.sound with idle | works
    · exact absurd ⟨go, ready⟩ idle.2
    · exact works
  · right
    intro answer go
    obtain ⟨dry, opened⟩ := not_or.mp ready
    rcases synced.sending with ⟨running, -⟩ | ⟨-, -, -, closed⟩
    · rcases Sender.step_works lawful (lawful.brisk_calm go)
        (fun frame mem => accepted frame (synced.queued frame mem)) running synced.here with idle | works
      · exact absurd ⟨go, not_not.mp dry⟩ idle.2
      · exact works
    · exact absurd closed opened

/-- Turns without a passed deadline in which each end gets a brisk answer once. -/
structure Round (calm brisk : ε → Prop) (turns : List (Turn ε)) : Prop where
  calmly : ∀ turn ∈ turns, turn.Calm calm
  sends : ∃ answer, brisk answer ∧ Turn.send answer ∈ turns
  receives : ∃ answer, brisk answer ∧ Turn.recv answer ∈ turns

theorem ended_stays (turns : List (Turn ε)) (ended : s.receiver.ended.isSome = true) :
    (run (Link.step io) turns s).receiver.ended.isSome = true := by
  have kept : ∀ turn (s : Link), s.receiver.ended.isSome = true →
      (s.step io turn).receiver.ended.isSome = true := by
    rintro (answer | answer) s ended
    · exact ended
    · obtain ⟨e, is⟩ := Option.isSome_iff_exists.mp ended
      simp [Link.step, Receiver.step, is]
  exact run_invariant (Link.step io) kept turns ended

theorem Reached.synced (here : Reached eager frames s) (live : ¬s.receiver.ended.isSome = true) :
    ∃ todo, Synced eager frames todo s := by
  rcases here with synced | complete | stranded
  · exact synced
  · simp [complete.1] at live
  · simp [stranded.1] at live

/-- After some turns the receiver has ended, or the run got on, or no turn changed anything. -/
theorem Reached.idle_or_works (lawful : Lawful io calm brisk eager)
    (accepted : ∀ frame ∈ frames, Accepted frame) {turns : List (Turn ε)}
    (quiet : ∀ turn ∈ turns, turn.Calm calm) (here : Reached eager frames s) :
    (run (Link.step io) turns s).receiver.ended.isSome = true ∨
      (run (Link.step io) turns s).work < s.work ∨
      (run (Link.step io) turns s = s ∧ ∀ turn ∈ turns, s.step io turn = s) := by
  induction turns generalizing s with
  | nil => exact .inr (.inr ⟨rfl, by simp⟩)
  | cons turn rest ih =>
      by_cases ended : s.receiver.ended.isSome = true
      · exact .inl (ended_stays _ ended)
      · obtain ⟨todo, synced⟩ := here.synced ended
        have calmly := quiet turn (List.mem_cons_self ..)
        have next := ih (fun t mem => quiet t (List.mem_cons_of_mem _ mem)) (here.step lawful calmly accepted)
        simp only [run]
        rcases synced.idle_or_works lawful accepted calmly with idle | works
        · rw [idle] at next ⊢
          rcases next with ended | works | ⟨same, all⟩
          · exact .inl ended
          · exact .inr (.inl works)
          · exact .inr (.inr ⟨same, by simpa using ⟨idle, all⟩⟩)
        · rcases next with ended | more | ⟨same, -⟩
          · exact .inl ended
          · exact .inr (.inl (more.trans works))
          · exact .inr (.inl (by rw [same]; exact works))

/-- Rounds, as many as there is work, end the receiver. -/
theorem rounds_end (lawful : Lawful io calm brisk eager) (accepted : ∀ frame ∈ frames, Accepted frame)
    (here : Reached eager frames s) {rounds : List (List (Turn ε))}
    (fair : ∀ round ∈ rounds, Round calm brisk round) (enough : s.work ≤ rounds.length) :
    (run (Link.step io) rounds.flatten s).receiver.ended.isSome = true := by
  induction rounds generalizing s with
  | nil =>
      by_contra live
      obtain ⟨todo, synced⟩ := here.synced live
      have none_left : s.work = 0 := by simpa using enough
      simp [Link.work, synced.live] at none_left
  | cons round rounds ih =>
      by_cases ended : s.receiver.ended.isSome = true
      · exact ended_stays _ ended
      · obtain ⟨todo, synced⟩ := here.synced ended
        obtain ⟨calmly, ⟨a, sendGo, sends⟩, ⟨b, recvGo, receives⟩⟩ := fair round (List.mem_cons_self ..)
        rw [List.flatten_cons, run_append]
        have next : Reached eager frames (run (Link.step io) round s) := here.after lawful accepted calmly
        rcases here.idle_or_works lawful accepted calmly with ended | works | ⟨-, idle⟩
        · exact ended_stays _ ended
        · refine ih next (fun r mem => fair r (List.mem_cons_of_mem _ mem)) ?_
          simp only [List.length_cons] at enough
          omega
        · exfalso
          rcases synced.works lawful accepted with works | works
          · have := works b recvGo
            rw [idle _ receives] at this
            omega
          · have := works a sendGo
            rw [idle _ sends] at this
            omega

end

/-! ## Round trips -/

/-- The frames received so far are the first ones sent; a receiver that has ended has all
of them and the end of the stream; and however the run goes on without passed deadlines,
the receiver comes to that if both ends get enough turns. -/
def Delivers (io : ByteIo ε) (calm brisk : ε → Prop) (frames : List Bytes) (s : Link) : Prop :=
  s.receiver.received <+: frames ∧
    (∀ e, s.receiver.ended = some e → s.receiver.received = frames ∧ e = .closedByPeer) ∧
    ∃ enough : Nat, ∀ rounds : List (List (Turn ε)), (∀ round ∈ rounds, Round calm brisk round) →
      enough ≤ rounds.length →
        (run (Link.step io) rounds.flatten s).receiver.ended = some .closedByPeer ∧
          (run (Link.step io) rounds.flatten s).receiver.received = frames

/-- Every capacity and every schedule without passed deadlines delivers the frames. -/
def RoundTrips (io : ByteIo ε) (calm brisk : ε → Prop) (frames : List Bytes) : Prop :=
  ∀ (capacity : Nat) (positive : 0 < capacity) (turns : List (Turn ε)),
    (∀ turn ∈ turns, turn.Calm calm) →
      Delivers io calm brisk frames
        (run (Link.step io) turns (Link.start frames capacity positive))

theorem Round.flatten {calm brisk : ε → Prop} {rounds : List (List (Turn ε))}
    (fair : ∀ round ∈ rounds, Round calm brisk round) :
    ∀ turn ∈ rounds.flatten, turn.Calm calm := by
  intro turn mem
  obtain ⟨round, inRounds, inRound⟩ := List.mem_flatten.mp mem
  exact (fair round inRounds).calmly turn inRound

theorem Reached.delivers {io : ByteIo ε} {calm brisk : ε → Prop} {eager : Bool} {frames : List Bytes}
    {s : Link} (lawful : Lawful io calm brisk eager) (accepted : ∀ frame ∈ frames, Accepted frame)
    (fine : ¬(eager = false ∧ EndsEmpty frames)) (here : Reached eager frames s) :
    Delivers io calm brisk frames s := by
  have unstranded : ∀ r, ¬Stranded eager frames r := fun r bad => fine ⟨bad.2.1, bad.2.2.1⟩
  refine ⟨?_, ?_, s.work, ?_⟩
  · rcases here with ⟨todo, synced⟩ | complete | stranded
    · exact ⟨todo, synced.split.symm⟩
    · rw [complete.2.1]
    · exact absurd stranded (unstranded _)
  · intro e ended
    rcases here with ⟨todo, synced⟩ | complete | stranded
    · simp [synced.live] at ended
    · exact ⟨complete.2.1, Option.some.inj (ended.symm.trans complete.1)⟩
    · exact absurd stranded (unstranded _)
  · intro rounds fair enough
    have ended := rounds_end lawful accepted here fair enough
    rcases here.after lawful accepted (Round.flatten fair) with ⟨todo, synced⟩ | complete | stranded
    · simp [synced.live] at ended
    · exact ⟨complete.1, complete.2.1⟩
    · exact absurd stranded (unstranded _)

theorem round_trips {io : ByteIo ε} {calm brisk : ε → Prop} {eager : Bool} {frames : List Bytes}
    (lawful : Lawful io calm brisk eager) (accepted : ∀ frame ∈ frames, Accepted frame)
    (fine : ¬(eager = false ∧ EndsEmpty frames)) : RoundTrips io calm brisk frames := by
  intro capacity positive turns quiet
  exact (reached lawful accepted positive quiet).delivers lawful accepted fine

/-- Rounds of one brisk turn each, as many as asked for. -/
theorem some_rounds {io : ByteIo ε} {calm brisk : ε → Prop} {eager : Bool}
    (lawful : Lawful io calm brisk eager) (n : Nat) :
    ∃ rounds : List (List (Turn ε)), (∀ round ∈ rounds, Round calm brisk round) ∧ rounds.length = n := by
  obtain ⟨answer, go⟩ := lawful.some_brisk
  have round : Round calm brisk [Turn.send answer, Turn.recv answer] :=
    ⟨by simp [Turn.Calm, lawful.brisk_calm go], ⟨answer, go, by simp⟩, ⟨answer, go, by simp⟩⟩
  exact ⟨List.replicate n [Turn.send answer, Turn.recv answer],
    fun r mem => List.eq_of_mem_replicate mem ▸ round, by simp⟩

/-- A list that ends in a frame without a payload never gets over a stream that waits for
a byte before it fills an empty buffer. -/
theorem not_round_trips {io : ByteIo ε} {calm brisk : ε → Prop} {frames : List Bytes}
    (lawful : Lawful io calm brisk false) (accepted : ∀ frame ∈ frames, Accepted frame)
    (empty : EndsEmpty frames) : ¬RoundTrips io calm brisk frames := by
  intro trips
  have here : Reached false frames (run (Link.step io) [] (Link.start frames 1 Nat.one_pos)) :=
    reached lawful accepted Nat.one_pos (by simp)
  obtain ⟨enough, ends⟩ := (trips 1 Nat.one_pos [] (by simp)).2.2
  obtain ⟨rounds, fair, rfl⟩ := some_rounds lawful enough
  have finish := ends rounds fair (Nat.le_refl _)
  rcases here.after lawful accepted (Round.flatten fair) with ⟨todo, synced⟩ | complete | stranded
  · simp [synced.live] at finish
  · exact complete.2.2 ⟨rfl, empty⟩
  · simp [stranded.1] at finish

/-- The framing layer carries a list of frames over both streams, with the same outcome,
exactly when it does not end in a frame without a payload. -/
theorem framing_round_trips_iff (frames : List Bytes) (accepted : ∀ frame ∈ frames, Accepted frame) :
    RoundTrips TcpTransport.io Kernel.Calm Kernel.Brisk frames ∧
        RoundTrips PipeEnd.io Deadline.Calm Deadline.Calm frames ↔
      ¬EndsEmpty frames := by
  constructor
  · intro both empty
    exact not_round_trips loopback_lawful accepted empty both.2
  · intro fine
    exact ⟨round_trips tcp_lawful accepted (by simp),
      round_trips loopback_lawful accepted (by simp [fine])⟩

/-- A frame of one byte, the last of its list. -/
theorem framing_round_trips_iff_byte :
    RoundTrips TcpTransport.io Kernel.Calm Kernel.Brisk [[0, 2, 0, 6, 0, 0, 0, 1, 7]] ∧
      RoundTrips PipeEnd.io Deadline.Calm Deadline.Calm [[0, 2, 0, 6, 0, 0, 0, 1, 7]] := by
  refine (framing_round_trips_iff _ (by decide)).mpr ?_
  rintro ⟨front, last, whole, empty⟩
  obtain rfl : last = [0, 2, 0, 6, 0, 0, 0, 1, 7] := by
    simpa using (congrArg List.getLast? whole).symm
  exact absurd empty (by decide)

/-- A header alone, sent over the loopback and followed by the end of the stream: the
receiver ends with `FrameMalformed` and without the frame. -/
theorem empty_last_frame_is_lost :
    let frame : Bytes := [0, 2, 0, 6, 0, 0, 0, 0]
    let ahead : List (Turn Deadline) :=
      [.send .ahead, .send .ahead, .recv .ahead, .send .ahead, .recv .ahead]
    let s := run (Link.step PipeEnd.io) ahead (Link.start [frame] 64 (by decide))
    Accepted frame ∧ s.sender.ended = some (.ok ()) ∧ s.receiver.received = [] ∧
      s.receiver.ended = some .frameMalformed ∧
      ¬RoundTrips PipeEnd.io Deadline.Calm Deadline.Calm [frame] := by
  refine ⟨by decide, by decide, by decide, by decide, ?_⟩
  exact not_round_trips loopback_lawful (by decide) ⟨[], _, rfl, by decide⟩

end Jbuu.Transport
