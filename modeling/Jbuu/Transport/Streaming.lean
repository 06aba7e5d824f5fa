/-
# Transport.Streaming — one frame read off a stream, and the same bytes decoded at once

A byte string arrives in pieces, the stream ends, and `recv_frame` is called. Its result
does not depend on the pieces, on how they meet the passes of the call, or on the size of
the buffers: it is `delivered` (`streams`). `recvThenDecode` is what the drivers make of
it.

`recv_frame` looks only at the length of a header; version and type are checked when the
whole frame is there. So a header that `decode` refuses in its steps 2 to 4 is reported
as such only if the rest of the frame still comes, or if its length is all that is wrong
and too large for any frame. `streaming_agrees_iff` is this, for both byte streams.
-/
import Jbuu.Codec.Wire
import Jbuu.Transport.Link

namespace Jbuu.Transport

set_option autoImplicit false

open Jbuu.Library.BigEndian (Bytes)
open Jbuu.Library

/-- `TransportError::code`. -/
def TransportError.code : TransportError → ErrorCode
  | .io | .timeout => .ioError
  | .closedByPeer | .frameMalformed => .frameTruncated
  | .frameTooLarge _ => .badLength

/-- `recv_msg`: a frame, then its message. -/
def recvThenDecode (role : Role) : Except TransportError Bytes → Except ErrorCode Message
  | .error e => .error e.code
  | .ok wire => decode role wire

/-! ## A stream that arrives -/

/-- The bytes that are still to come, those in the pipe, and the call of `recv_frame` or
what it returned. -/
structure Arrival where
  todo : Bytes
  pipe : Pipe
  call : RecvFrame ⊕ Except TransportError Bytes

/-- Up to `n` bytes arrive, or the end of the stream where none are left; or a pass of the
call, with the platform's answer. -/
inductive Arrives (ε : Type) where
  | piece (n : Nat)
  | recv (answer : ε)
  deriving DecidableEq

namespace Arrival

variable {ε : Type}

def start (bytes : Bytes) (capacity : Nat) (positive : 0 < capacity) : Arrival where
  todo := bytes
  pipe := Pipe.new capacity positive
  call := .inl .start

def step (io : ByteIo ε) : Arrives ε → Arrival → Arrival
  | .piece n, s =>
      if s.todo = [] then { s with pipe := s.pipe.closeWrite }
      else
        { s with
          pipe := s.pipe.extend (s.todo.take n)
          todo := s.todo.drop (min s.pipe.space n) }
  | .recv answer, s =>
      match s.call with
      | .inr _ => s
      | .inl call =>
          let (call, pipe) := call.pass io answer s.pipe
          { s with call, pipe }

end Arrival

/-- No deadline passes and nothing fails. -/
def Arrives.Calm {ε : Type} (calm : ε → Prop) : Arrives ε → Prop
  | .piece _ => True
  | .recv answer => calm answer

/-! ## What the call returns -/

/-- What `recv_frame` returns on these bytes and the end of the stream. A stream that is
not `eager` waits for a byte before it fills nothing. -/
def delivered (eager : Bool) (bytes : Bytes) : Except TransportError Bytes :=
  if bytes.length < frameHeaderLen then .error .frameMalformed
  else if maxFramePayload < declaredLen bytes then .error (.frameTooLarge (declaredLen bytes))
  else if bytes.length < frameHeaderLen + declaredLen bytes then .error .frameMalformed
  else if eager = false ∧ declaredLen bytes = 0 then .error .frameMalformed
  else .ok bytes

/-- Not longer than the frame the first eight bytes declare. -/
def Bounded (bytes : Bytes) : Prop :=
  frameHeaderLen ≤ bytes.length → bytes.length ≤ frameHeaderLen + declaredLen bytes

/-- The invariant: what is with the call, in the pipe and still to come are the bytes; and
a call that has returned has returned what is `delivered`. -/
structure Tracks (eager : Bool) (bytes : Bytes) (s : Arrival) : Prop where
  closed : s.pipe.writeClosed = true → s.todo = []
  outcome : match s.call with
    | .inl call => call.Sound ∧ call.held ++ (s.pipe.buf ++ s.todo) = bytes ∧
        ∀ head n got, call = .payload head n got → n ≤ maxFramePayload
    | .inr result => result = delivered eager bytes

section

variable {ε : Type} {io : ByteIo ε} {calm brisk : ε → Prop} {eager : Bool} {bytes : Bytes}
  {s : Arrival} {answer : ε}

theorem Tracks.start (eager : Bool) (bytes : Bytes) (capacity : Nat) (positive : 0 < capacity) :
    Tracks eager bytes (.start bytes capacity positive) where
  closed := nofun
  outcome := ⟨.inr rfl, rfl, nofun⟩

theorem Tracks.piece (n : Nat) (tracks : Tracks eager bytes s) :
    Tracks eager bytes (s.step io (.piece n)) := by
  obtain ⟨todo, pipe, call⟩ := s
  have closed := tracks.closed
  have outcome := tracks.outcome
  dsimp only [Arrival.step] at closed outcome ⊢
  split
  · rename_i none_left
    exact ⟨fun _ => none_left, outcome⟩
  · rename_i some_left
    refine ⟨fun ended => absurd (closed ended) some_left, ?_⟩
    cases call with
    | inr result => exact outcome
    | inl call =>
        obtain ⟨sound, whole, small⟩ := outcome
        refine ⟨sound, ?_, small⟩
        dsimp only [Pipe.extend]
        rw [List.take_take, List.append_assoc, List.take_append_drop, whole]

/-- The length a header declares is the length of the bytes it begins. -/
theorem declaredLen_append {head rest : Bytes} (len : head.length = frameHeaderLen) :
    declaredLen (head ++ rest) = declaredLen head := by
  unfold declaredLen
  rw [slice_append (by simp [len, frameHeaderLen])]

theorem Tracks.recv (lawful : Lawful io calm brisk eager) (quiet : calm answer) (some : bytes ≠ [])
    (bounded : Bounded bytes) (tracks : Tracks eager bytes s) :
    Tracks eager bytes (s.step io (.recv answer)) := by
  obtain ⟨todo, pipe, call⟩ := s
  have closed := tracks.closed
  have outcome := tracks.outcome
  dsimp only at closed outcome
  cases call with
  | inr result => exact tracks
  | inl call =>
      obtain ⟨sound, whole, small⟩ := outcome
      cases call with
      | header got =>
          have midway : Midway frameHeaderLen got := sound
          have reads := @lawful.reads _ _ _ pipe quiet midway
          simp only [Arrival.step, RecvFrame.pass]
          generalize io.readFull answer frameHeaderLen got pipe = result at reads
          cases reads with
          | again n fits midway =>
              refine ⟨closed, midway, ?_, by rintro _ _ _ ⟨⟩⟩
              rw [← whole]
              simp [RecvFrame.held, ← List.append_assoc (List.take n pipe.buf)]
          | filled n fits full seen =>
              have split_ : (got ++ pipe.buf.take n) ++ (pipe.buf.drop n ++ todo) = bytes := by
                rw [← whole]
                simp [RecvFrame.held, ← List.append_assoc (List.take n pipe.buf)]
              have declared : declaredLen bytes = declaredLen (got ++ pipe.buf.take n) := by
                rw [← split_]
                exact declaredLen_append full
              have long : ¬bytes.length < frameHeaderLen := by
                rw [← split_, List.length_append, full]
                omega
              dsimp only
              by_cases large : maxFramePayload < declaredLen (got ++ pipe.buf.take n)
              · rw [if_pos large]
                refine ⟨closed, ?_⟩
                dsimp only
                rw [delivered, if_neg long, if_pos (by rwa [declared]), declared]
              · rw [if_neg large]
                refine ⟨closed, ⟨full, rfl, .inr rfl⟩, ?_, ?_⟩
                · simpa [RecvFrame.held] using split_
                · rintro head m got' same
                  cases same
                  omega
          | eof fresh dry ended waited =>
              have none_left := closed ended
              rw [fresh, none_left, dry] at whole
              exact absurd whole.symm some
          | cut begun short ended =>
              refine ⟨closed, ?_⟩
              have none_left := closed ended
              rw [none_left, List.append_nil] at whole
              dsimp only
              rw [delivered, if_pos]
              rw [← whole]
              exact short
      | payload head payloadLen got =>
          obtain ⟨headLen, declared, midway⟩ := sound
          have fine := small head payloadLen got rfl
          have reads := @lawful.reads _ _ _ pipe quiet midway
          have declared' : declaredLen bytes = payloadLen := by
            rw [← whole, ← declared, RecvFrame.held, List.append_assoc]
            exact declaredLen_append headLen
          have length : frameHeaderLen + (got.length + (pipe.buf.length + todo.length)) =
              bytes.length := by
            rw [← whole]
            simp [RecvFrame.held, headLen]
          have atMost : bytes.length ≤ frameHeaderLen + payloadLen := by
            rw [← declared']
            exact bounded (by omega)
          simp only [Arrival.step, RecvFrame.pass]
          generalize io.readFull answer payloadLen got pipe = result at reads
          cases reads with
          | again n fits midway =>
              refine ⟨closed, ⟨headLen, declared, midway⟩, ?_, ?_⟩
              · rw [← whole]
                simp [RecvFrame.held, ← List.append_assoc (List.take n pipe.buf)]
              · rintro head m got' same
                cases same
                exact fine
          | filled n fits full seen =>
              refine ⟨closed, ?_⟩
              simp only [List.length_append, List.length_take] at full
              -- what was read is the whole of the bytes
              have all : pipe.buf.take n = pipe.buf ∧ todo = [] := by
                constructor
                · exact List.take_of_length_le (by omega)
                · exact List.eq_nil_of_length_eq_zero (by omega)
              have returned : head ++ (got ++ pipe.buf.take n) = bytes := by
                rw [← whole, all.1, all.2]
                simp [RecvFrame.held]
              dsimp only
              rw [returned, delivered, if_neg (by omega), if_neg (by omega), if_neg (by omega),
                if_neg]
              rintro ⟨lazy, nothing⟩
              rcases seen with eager_ | wet
              · simp [lazy] at eager_
              · have := List.length_pos_iff.mpr wet
                omega
          | eof fresh dry ended waited =>
              refine ⟨closed, ?_⟩
              have none_left := closed ended
              simp only [fresh, dry, none_left, List.length_nil] at length
              dsimp only
              rw [delivered, if_neg (by omega), if_neg (by omega)]
              by_cases nothing : payloadLen = 0
              · have lazy : eager = false := by
                  cases eager with
                  | false => rfl
                  | true => exact absurd (waited rfl) (by omega)
                rw [if_neg (by omega), if_pos ⟨lazy, by omega⟩]
              · rw [if_pos (by omega)]
          | cut begun short ended =>
              refine ⟨closed, ?_⟩
              have none_left := closed ended
              simp only [none_left, List.length_nil] at length
              simp only [List.length_append] at short
              dsimp only
              rw [delivered, if_neg (by omega), if_neg (by omega), if_pos (by omega)]

theorem Tracks.step (lawful : Lawful io calm brisk eager) (some : bytes ≠ []) (bounded : Bounded bytes)
    (event : Arrives ε) (quiet : event.Calm calm) (tracks : Tracks eager bytes s) :
    Tracks eager bytes (s.step io event) := by
  cases event with
  | piece n => exact tracks.piece n
  | recv answer => exact tracks.recv lawful quiet some bounded

/-! ## It returns -/

/-- What is left to do: a byte to come counts three events, a byte in the pipe two. -/
def Arrival.work (s : Arrival) : Nat :=
  3 * s.todo.length + 2 * s.pipe.buf.length + (!s.pipe.writeClosed).toNat +
    match s.call with
    | .inl (.header _) => 1
    | .inl (.payload _ _ _) => 2
    | .inr _ => 0

def Arrival.Returned (s : Arrival) : Prop := s.call.isRight = true

/-- Events without a passed deadline in which a byte can arrive and the call gets a brisk
answer. -/
structure Arrives.Round (calm brisk : ε → Prop) (events : List (Arrives ε)) : Prop where
  calmly : ∀ event ∈ events, event.Calm calm
  arrives : ∃ n, 0 < n ∧ Arrives.piece n ∈ events
  receives : ∃ answer, brisk answer ∧ Arrives.recv answer ∈ events

theorem Arrival.piece_works (n : Nat) :
    s.step io (.piece n) = s ∨ (s.step io (.piece n)).work < s.work := by
  obtain ⟨todo, pipe, call⟩ := s
  dsimp only [Arrival.step]
  by_cases nothing : todo = []
  · rw [if_pos nothing]
    by_cases closed : pipe.writeClosed = true
    · left
      obtain ⟨buf, capacity, writeClosed, gone, positive, fits⟩ := pipe
      dsimp only at closed
      subst closed
      rfl
    · right
      simp [Arrival.work, Pipe.closeWrite, closed]
  · rw [if_neg nothing]
    have some_left := List.length_pos_iff.mpr nothing
    by_cases moved : min pipe.space n = 0
    · left
      have none_taken : (todo.take n).take pipe.space = [] := by
        rw [List.take_take, moved, List.take_zero]
      obtain ⟨buf, capacity, writeClosed, gone, positive, fits⟩ := pipe
      simp only [Pipe.extend]
      congr 1
      · rw [moved, List.drop_zero]
      · congr 1
        rw [none_taken, List.append_nil]
    · right
      simp only [Arrival.work, Pipe.extend, List.length_append, List.length_take, List.length_drop]
      omega

/-- A pass of the call changes nothing or gets on, and gets on with a brisk answer where
there is something to read or the end of it. -/
theorem Tracks.recv_works (lawful : Lawful io calm brisk eager) (quiet : calm answer)
    (tracks : Tracks eager bytes s) (live : ¬s.Returned) :
    (s.step io (.recv answer) = s ∧
        ¬(brisk answer ∧ (s.pipe.buf ≠ [] ∨ s.pipe.writeClosed = true))) ∨
      (s.step io (.recv answer)).work < s.work := by
  obtain ⟨todo, pipe, call | result⟩ := s
  · obtain ⟨sound, -, -⟩ := tracks.outcome
    have passes := RecvFrame.pass_passes lawful quiet sound pipe
    have moves := fun (go : brisk answer) => @RecvFrame.pass_moves _ _ _ _ _ _ _ lawful go sound pipe
    simp only [Arrival.step]
    generalize RecvFrame.pass io answer call pipe = result at passes moves
    cases passes with
    | still n fits call' held sound' idle =>
        by_cases nothing : n = 0
        · left
          obtain rfl := idle nothing
          subst nothing
          refine ⟨rfl, ?_⟩
          rintro ⟨go, ready⟩
          exact moves go ready _ rfl
        · right
          simp only [Arrival.work, Pipe.drain_buf, List.length_drop, Pipe.drain_writeClosed]
          cases call <;> cases call' <;> dsimp only <;> omega
    | returns n fits second =>
        right
        simp only [Arrival.work, Pipe.drain_buf, List.length_drop, Pipe.drain_writeClosed]
        cases call <;> dsimp only <;> omega
    | fails n fits e real =>
        right
        simp only [Arrival.work, Pipe.drain_buf, List.length_drop, Pipe.drain_writeClosed]
        cases call <;> dsimp only <;> omega
  · exact absurd rfl live

theorem Arrival.returned_stays (event : Arrives ε) (returned : s.Returned) :
    (s.step io event).call = s.call := by
  obtain ⟨todo, pipe, call⟩ := s
  cases event with
  | piece n =>
      dsimp only [Arrival.step]
      split <;> rfl
  | recv answer =>
      cases call with
      | inl call => cases returned
      | inr result => rfl

theorem Arrival.work_pos (live : ¬s.Returned) : 0 < s.work := by
  obtain ⟨todo, pipe, (_ | _) | result⟩ := s
  · simp [work]
  · simp [work]
  · exact absurd rfl live

theorem Tracks.progress (lawful : Lawful io calm brisk eager) (some : bytes ≠ [])
    (bounded : Bounded bytes) :
    Progress (Arrival.step io) (·.Calm calm) (Tracks eager bytes) Arrival.Returned Arrival.work where
  kept event s quiet tracks := tracks.step lawful some bounded event quiet
  final event s returned := by
    unfold Arrival.Returned
    rw [Arrival.returned_stays event returned]
    exact returned
  idle_or_works event s quiet tracks live := by
    cases event with
    | piece n => exact Arrival.piece_works n
    | recv answer => exact (tracks.recv_works lawful quiet live).imp_left And.left
  busy s _ live := Arrival.work_pos live

/-- In every round something gets on, while the call has not returned. -/
theorem Tracks.useful (lawful : Lawful io calm brisk eager) {round : List (Arrives ε)}
    (fair : Arrives.Round calm brisk round) (tracks : Tracks eager bytes s) (live : ¬s.Returned) :
    ∃ event ∈ round, (s.step io event).work < s.work := by
  obtain ⟨-, ⟨n, positive, arrives⟩, ⟨answer, go, receives⟩⟩ := fair
  by_cases ready : s.pipe.buf ≠ [] ∨ s.pipe.writeClosed = true
  · refine ⟨_, receives, ?_⟩
    rcases tracks.recv_works lawful (lawful.brisk_calm go) live with idle | works
    · exact absurd ⟨go, ready⟩ idle.2
    · exact works
  · -- the pipe is empty and open, so a piece or the end of the stream goes in
    refine ⟨_, arrives, (Arrival.piece_works n).resolve_left ?_⟩
    obtain ⟨dry, opened⟩ := not_or.mp ready
    obtain ⟨todo, pipe, call⟩ := s
    have empty : pipe.buf = [] := not_not.mp dry
    intro same
    dsimp only [Arrival.step] at same opened
    split at same
    · have closed := congrArg (fun s => s.pipe.writeClosed) same
      exact opened closed.symm
    · rename_i nothing
      have some_left := List.length_pos_iff.mpr nothing
      have drained := congrArg (fun s => s.todo.length) same
      have room := pipe.positive
      simp only [List.length_drop, Pipe.space, empty, List.length_nil] at drained
      omega

end

/-- Whatever the sizes of the buffers and the schedule: what the call returns is `out`, and
it does return. -/
def Streams {ε : Type} (io : ByteIo ε) (calm brisk : ε → Prop) (bytes : Bytes)
    (out : Except TransportError Bytes) : Prop :=
  ∀ (capacity : Nat) (positive : 0 < capacity) (events : List (Arrives ε)),
    (∀ event ∈ events, event.Calm calm) →
      let s := run (Arrival.step io) events (.start bytes capacity positive)
      (∀ result, s.call = .inr result → result = out) ∧
        ∃ enough : Nat, ∀ rounds : List (List (Arrives ε)),
          (∀ round ∈ rounds, Arrives.Round calm brisk round) → enough ≤ rounds.length →
            (run (Arrival.step io) rounds.flatten s).call = .inr out

/-- **What `recv_frame` returns depends on the bytes alone.** -/
theorem streams {ε : Type} {io : ByteIo ε} {calm brisk : ε → Prop} {eager : Bool} {bytes : Bytes}
    (lawful : Lawful io calm brisk eager) (some : bytes ≠ []) (bounded : Bounded bytes) :
    Streams io calm brisk bytes (delivered eager bytes) := by
  intro capacity positive events quiet s
  have progress := Tracks.progress lawful some bounded
  have keeps : ∀ {events : List (Arrives ε)} {s : Arrival}, (∀ event ∈ events, event.Calm calm) →
      Tracks eager bytes s → Tracks eager bytes (run (Arrival.step io) events s) := by
    intro events s quiet tracks
    exact run_invariant_along _ (fun event s okay => progress.kept event s okay) events
      (along_of_forall _ fun event mem _ => quiet event mem) tracks
  have tracks : Tracks eager bytes s := keeps quiet (.start eager bytes capacity positive)
  refine ⟨?_, s.work, ?_⟩
  · intro result returned
    have outcome := tracks.outcome
    rw [returned] at outcome
    exact outcome
  · intro rounds fair enough
    have ended : (run (Arrival.step io) rounds.flatten s).call.isRight :=
      progress.rounds_end (fun round mem => ⟨(fair round mem).calmly, fun s here live =>
        here.useful lawful (fair round mem) live⟩) tracks enough
    have flat : ∀ event ∈ rounds.flatten, event.Calm calm := by
      intro event mem
      obtain ⟨round, inRounds, inRound⟩ := List.mem_flatten.mp mem
      exact (fair round inRounds).calmly event inRound
    have outcome := (keeps flat tracks).outcome
    revert ended outcome
    generalize (run (Arrival.step io) rounds.flatten s).call = call
    cases call with
    | inl call => nofun
    | inr result =>
        intro _ same
        rw [show result = _ from same]

/-! ## Streaming and decoding at once -/

/-- However the bytes arrive: the call returns, and the frame it returned decodes to what
the bytes decode to, or its error has the same code. -/
def Agrees {ε : Type} (io : ByteIo ε) (calm brisk : ε → Prop) (role : Role) (bytes : Bytes) : Prop :=
  ∀ (capacity : Nat) (positive : 0 < capacity) (events : List (Arrives ε)),
    (∀ event ∈ events, event.Calm calm) →
      let s := run (Arrival.step io) events (.start bytes capacity positive)
      (∀ result, s.call = .inr result → recvThenDecode role result = decode role bytes) ∧
        ∃ enough : Nat, ∀ rounds : List (List (Arrives ε)),
          (∀ round ∈ rounds, Arrives.Round calm brisk round) → enough ≤ rounds.length →
            ∃ result, (run (Arrival.step io) rounds.flatten s).call = .inr result ∧
              recvThenDecode role result = decode role bytes

/-- Rounds of one piece and one brisk pass, as many as asked for. -/
theorem Arrives.some_rounds {ε : Type} {io : ByteIo ε} {calm brisk : ε → Prop} {eager : Bool}
    (lawful : Lawful io calm brisk eager) (n : Nat) :
    ∃ rounds : List (List (Arrives ε)),
      (∀ round ∈ rounds, Arrives.Round calm brisk round) ∧ rounds.length = n := by
  obtain ⟨answer, go⟩ := lawful.some_brisk
  have round : Arrives.Round calm brisk [Arrives.piece 1, Arrives.recv answer] :=
    ⟨by simp [Arrives.Calm, lawful.brisk_calm go], ⟨1, Nat.one_pos, by simp⟩, ⟨answer, go, by simp⟩⟩
  exact ⟨List.replicate n [Arrives.piece 1, Arrives.recv answer],
    fun r mem => List.eq_of_mem_replicate mem ▸ round, by simp⟩

theorem agrees_iff_delivered {ε : Type} {io : ByteIo ε} {calm brisk : ε → Prop} {eager : Bool}
    {role : Role} {bytes : Bytes} (lawful : Lawful io calm brisk eager) (some : bytes ≠ [])
    (bounded : Bounded bytes) :
    Agrees io calm brisk role bytes ↔
      recvThenDecode role (delivered eager bytes) = decode role bytes := by
  have returns := streams lawful some bounded
  constructor
  · intro agrees
    obtain ⟨enough, here⟩ := (returns 1 Nat.one_pos [] (by simp)).2
    obtain ⟨enough', there⟩ := (agrees 1 Nat.one_pos [] (by simp)).2
    obtain ⟨rounds, fair, length⟩ := Arrives.some_rounds lawful (max enough enough')
    have out := here rounds fair (by omega)
    obtain ⟨result, returned, same⟩ := there rounds fair (by omega)
    rw [out] at returned
    cases returned
    exact same
  · intro same capacity positive events quiet
    obtain ⟨safe, enough, ends⟩ := returns capacity positive events quiet
    refine ⟨?_, enough, ?_⟩
    · intro result returned
      rw [safe result returned]
      exact same
    · intro rounds fair long
      exact ⟨_, ends rounds fair long, same⟩

/-- The header has the version and a type, and a length that this type allows or no type. -/
def HeaderReads (bytes : Bytes) : Prop :=
  u16Of (slice bytes 0 2) = wireVersion ∧
    ∃ t, MsgType.fromWire (u16Of (slice bytes 2 4)) = some t ∧
      (plenOk t (u32Of (slice bytes 4 8)) = true ∨ maxFramePayload < declaredLen bytes)

/-- The whole frame is there, and it is not larger than a frame may be. -/
def Whole (bytes : Bytes) : Prop :=
  bytes.length = frameHeaderLen + declaredLen bytes ∧ declaredLen bytes ≤ maxFramePayload

instance (bytes : Bytes) : Decidable (Whole bytes) := inferInstanceAs (Decidable (_ ∧ _))

/-- A header that passes declares no more than a frame may have. -/
theorem declaredLen_le_of_checkHeader {bytes : Bytes} {t : MsgType} {payloadLen : Nat}
    (passed : checkHeader bytes = .ok (t, payloadLen)) :
    declaredLen bytes = payloadLen ∧ payloadLen ≤ maxFramePayload ∧ 0 < payloadLen := by
  obtain ⟨-, -, len, low, high⟩ := checkHeader_eq_ok.mp passed
  have small := payloadLenRange_le t
  refine ⟨len, high.trans small, ?_⟩
  cases t <;> simp [MsgType.payloadLenRange, Codec.helloPayloadLen, Codec.arbitratePayloadLen,
    Codec.issuePayloadLen, Codec.confirmPayloadLen, Codec.minFramePayload] at low <;> omega

theorem headerReads_of_checkHeader {bytes : Bytes} {t : MsgType} {payloadLen : Nat}
    (passed : checkHeader bytes = .ok (t, payloadLen)) : HeaderReads bytes := by
  obtain ⟨version, type, len, range⟩ := checkHeader_eq_ok.mp passed
  refine ⟨version, t, MsgType.fromWire_eq_some.mpr type, .inl ?_⟩
  simpa [plenOk, len] using range

/-- A header that is refused reads only where its length is all that is wrong, and too
large for every type. -/
theorem headerReads_iff_of_refused {bytes : Bytes} {e : ErrorCode}
    (refused : checkHeader bytes = .error e) :
    HeaderReads bytes ↔ e = .badLength ∧ maxFramePayload < declaredLen bytes := by
  unfold checkHeader at refused
  unfold HeaderReads
  by_cases version : u16Of (slice bytes 0 2) = wireVersion
  · rw [if_neg (not_not_intro version)] at refused
    cases type : MsgType.fromWire (u16Of (slice bytes 2 4)) with
    | none =>
        simp only [type] at refused
        cases refused
        simp only [ErrorCode.unknownMsgType, ErrorCode.badLength]
        simp
    | some t =>
        simp only [type] at refused
        split at refused
        · rename_i wrong
          cases refused
          simp [version, wrong]
        · cases refused
  · rw [if_pos version] at refused
    cases refused
    simp [version, ErrorCode.badVersion, ErrorCode.badLength]

/-- When the two agree. -/
theorem delivered_agrees_iff {eager : Bool} {role : Role} {bytes : Bytes} (bounded : Bounded bytes) :
    recvThenDecode role (delivered eager bytes) = decode role bytes ↔
      bytes.length < frameHeaderLen ∨
        Whole bytes ∧ (eager = true ∨ 0 < declaredLen bytes) ∨ HeaderReads bytes := by
  by_cases short : bytes.length < frameHeaderLen
  · have truncated : decode role bytes = .error .frameTruncated := decode_short short
    simp [delivered, short, truncated, recvThenDecode, TransportError.code]
  · have atMost := bounded (by omega)
    rw [delivered, if_neg short]
    cases header : checkHeader bytes with
    | ok found =>
        obtain ⟨t, payloadLen⟩ := found
        obtain ⟨declared, small, positive⟩ := declaredLen_le_of_checkHeader header
        rw [if_neg (by omega), declared]
        have reads := headerReads_of_checkHeader header
        by_cases cut : bytes.length < frameHeaderLen + payloadLen
        · have truncated : decode role bytes = .error .frameTruncated := decode_cut header cut
          simp [cut, truncated, recvThenDecode, TransportError.code, reads]
        · rw [if_neg cut, if_neg (by omega)]
          simp [recvThenDecode, reads]
    | error e =>
        have refused : decode role bytes = .error e := decode_refused short header
        rw [headerReads_iff_of_refused header]
        by_cases large : maxFramePayload < declaredLen bytes
        · have notWhole : ¬Whole bytes := fun whole => by have := whole.2; omega
          simp [large, short, notWhole, refused, recvThenDecode, TransportError.code, eq_comm]
        · rw [if_neg large]
          -- the header's own error, unless the transport reports the end of the stream
          have truncated : ErrorCode.frameTruncated ≠ e := by
            rcases checkHeader_error header with rfl | rfl | rfl <;> decide
          by_cases cut : bytes.length < frameHeaderLen + declaredLen bytes
          · have notWhole : ¬Whole bytes := fun whole => by have := whole.1; omega
            simp [cut, short, large, notWhole, refused, recvThenDecode, TransportError.code, truncated]
          · have whole : Whole bytes := ⟨by omega, by omega⟩
            rw [if_neg cut]
            by_cases hollow : eager = false ∧ declaredLen bytes = 0
            · simp [hollow, short, refused, recvThenDecode, TransportError.code, truncated]
            · rw [if_neg hollow]
              have waits : eager = true ∨ 0 < declaredLen bytes := by
                cases eager with
                | true => exact .inl rfl
                | false => exact .inr (Nat.pos_of_ne_zero fun none_ => hollow ⟨rfl, none_⟩)
              simp [recvThenDecode, whole, waits]

/-- **Streaming and decoding at once agree exactly when** the header is not complete, or the
whole frame is there, or the header says nothing that the type check would refuse first: a
version and a type that exist, and a length this type allows or no frame has. The loopback
also loses a whole frame without a payload. -/
theorem streaming_agrees_iff (role : Role) (bytes : Bytes) (some : bytes ≠ [])
    (bounded : Bounded bytes) :
    (Agrees TcpTransport.io Kernel.Calm Kernel.Brisk role bytes ↔
      bytes.length < frameHeaderLen ∨ Whole bytes ∨ HeaderReads bytes) ∧
    (Agrees PipeEnd.io Deadline.Calm Deadline.Calm role bytes ↔
      bytes.length < frameHeaderLen ∨ Whole bytes ∧ 0 < declaredLen bytes ∨ HeaderReads bytes) := by
  constructor
  · rw [agrees_iff_delivered tcp_lawful some bounded, delivered_agrees_iff bounded]
    simp
  · rw [agrees_iff_delivered loopback_lawful some bounded, delivered_agrees_iff bounded]
    simp

/-- A DATA header of which the body never comes. -/
theorem streaming_agrees_iff_cut :
    Agrees TcpTransport.io Kernel.Calm Kernel.Brisk .server [0, 2, 0, 6, 0, 0, 0, 32] ∧
      Agrees PipeEnd.io Deadline.Calm Deadline.Calm .server [0, 2, 0, 6, 0, 0, 0, 32] := by
  have both := streaming_agrees_iff .server [0, 2, 0, 6, 0, 0, 0, 32] (by decide)
    (by intro _; decide)
  have reads : HeaderReads [0, 2, 0, 6, 0, 0, 0, 32] := ⟨by decide, .data, by decide, .inl (by decide)⟩
  exact ⟨both.1.mpr (.inr (.inr reads)), both.2.mpr (.inr (.inr reads))⟩

/-- Version 1 and a body of one byte that never comes: `decode` says `BAD_VERSION`, a server
that reads the stream says `FRAME_TRUNCATED`, over TCP and over the loopback. -/
theorem truncation_hides_the_version :
    let bytes : Bytes := [0, 1, 0, 6, 0, 0, 0, 1]
    let tcp := run (Arrival.step TcpTransport.io)
      [.piece 8, .recv (.ready 8), .piece 1, .recv (.ready 1)] (.start bytes 64 (by decide))
    let loopback := run (Arrival.step PipeEnd.io)
      [.piece 8, .recv .ahead, .piece 1, .recv .ahead] (.start bytes 64 (by decide))
    bytes.length ≤ frameHeaderLen + declaredLen bytes ∧
      tcp.call = .inr (.error .frameMalformed) ∧ loopback.call = .inr (.error .frameMalformed) ∧
      TransportError.frameMalformed.code = .frameTruncated ∧
      decode .server bytes = .error .badVersion ∧
      ¬Agrees TcpTransport.io Kernel.Calm Kernel.Brisk .server bytes ∧
      ¬Agrees PipeEnd.io Deadline.Calm Deadline.Calm .server bytes := by
  have some : ([0, 1, 0, 6, 0, 0, 0, 1] : Bytes) ≠ [] := by decide
  have bounded : Bounded [0, 1, 0, 6, 0, 0, 0, 1] := by intro _; decide
  have differs : ∀ eager, recvThenDecode .server (delivered eager [0, 1, 0, 6, 0, 0, 0, 1]) ≠
      decode .server [0, 1, 0, 6, 0, 0, 0, 1] := by
    decide +kernel
  refine ⟨by decide, by decide, by decide, rfl, by decide +kernel, ?_, ?_⟩
  · exact fun agrees => differs true ((agrees_iff_delivered tcp_lawful some bounded).mp agrees)
  · exact fun agrees => differs false ((agrees_iff_delivered loopback_lawful some bounded).mp agrees)

end Jbuu.Transport
