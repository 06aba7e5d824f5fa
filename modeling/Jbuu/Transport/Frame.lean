/-
# Transport.Frame — framing over a byte stream, and its two implementations

`recv_frame` and `send_frame` over a `ByteIo`, and the two byte streams the code has: the
loopback pipe and TCP. A call that blocks is a state: `read_full` is one pass through its
loop at a time, and between two passes the other end may run. A pass gets an answer from
the platform: for TCP what the kernel makes of one `read` or `write`, for the loopback
whether the deadline has passed.

`Reads` lists every way a pass of `read_full` can end, for either implementation
(`tcp_reads`, `loopback_reads`). The two differ in one place: an empty buffer is full at
once over TCP (`tcp_reads_nothing`); the loopback looks for a byte to be there first.
-/
import Mathlib.Data.List.Infix
import Jbuu.Types

namespace Jbuu.Transport

set_option autoImplicit false

open Jbuu.Library.BigEndian (Bytes)

/-! ## Errors and limits -/

inductive TransportError where
  | io
  | timeout
  | closedByPeer
  | frameTooLarge (len : Nat)
  | frameMalformed
  deriving DecidableEq, Repr

/-- `FRAME_HEADER_LEN`. -/
def frameHeaderLen : Nat := 8

/-- `MAX_FRAME_PAYLOAD`. -/
def maxFramePayload : Nat := 65568

/-- `WRITE_CHUNK`: the most one write asks for. -/
def writeChunk : Nat := 16 * 1024

/-- `u32::from_be_bytes` of bytes 4 to 8 of a header. -/
def declaredLen (header : Bytes) : Nat := (u32Of (slice header 4 8)).toNat

/-! ## One direction of a connection -/

/-- The bytes one end has written and the other has not read: the buffer of a loopback
pipe, or what the two kernels and the network hold of a TCP connection. -/
structure Pipe where
  buf : Bytes
  capacity : Nat
  writeClosed : Bool
  readerGone : Bool
  positive : 0 < capacity
  fits : buf.length ≤ capacity

namespace Pipe

/-- `Pipe::new`: the code asserts that the capacity is not zero. -/
def new (capacity : Nat) (positive : 0 < capacity) : Pipe where
  buf := []
  capacity := capacity
  writeClosed := false
  readerGone := false
  positive := positive
  fits := Nat.zero_le _

def space (p : Pipe) : Nat := p.capacity - p.buf.length

/-- The first `n` bytes leave. -/
def drain (p : Pipe) (n : Nat) : Pipe :=
  { p with buf := p.buf.drop n, fits := by have := p.fits; simp; omega }

/-- As many of the bytes as there is room for enter. -/
def extend (p : Pipe) (bytes : Bytes) : Pipe :=
  { p with
    buf := p.buf ++ bytes.take p.space
    fits := by have := p.fits; simp [space]; omega }

def closeWrite (p : Pipe) : Pipe := { p with writeClosed := true }

@[simp] theorem drain_buf (p : Pipe) (n : Nat) : (p.drain n).buf = p.buf.drop n := rfl

@[simp] theorem drain_writeClosed (p : Pipe) (n : Nat) :
    (p.drain n).writeClosed = p.writeClosed := rfl

@[simp] theorem drain_readerGone (p : Pipe) (n : Nat) : (p.drain n).readerGone = p.readerGone := rfl

@[simp] theorem drain_zero (p : Pipe) : p.drain 0 = p := rfl

@[simp] theorem extend_writeClosed (p : Pipe) (bytes : Bytes) :
    (p.extend bytes).writeClosed = p.writeClosed := rfl

@[simp] theorem extend_readerGone (p : Pipe) (bytes : Bytes) :
    (p.extend bytes).readerGone = p.readerGone := rfl

end Pipe

/-! ## Byte streams -/

/-- What one pass through the loop of `read_full` came to. -/
inductive ReadPass where
  /-- `Ok(true)`. -/
  | filled (buf : Bytes)
  /-- `Ok(false)`. -/
  | eof
  | error (e : TransportError)
  /-- Round the loop again, with `buf[..off]` in hand. -/
  | again (got : Bytes)
  deriving DecidableEq

/-- What one pass through the loop of `write_partial` came to. -/
inductive WritePass where
  | wrote (n : Nat)
  | error (e : TransportError)
  | again
  deriving DecidableEq

/-- `trait ByteIo`. The platform's answers are of type `ε`. -/
structure ByteIo (ε : Type) where
  readFull : ε → (len : Nat) → (got : Bytes) → Pipe → ReadPass × Pipe
  writePartial : ε → (buf : Bytes) → Pipe → WritePass × Pipe

/-! ### TCP -/

/-- The kernel's answer to one `read` or `write`. -/
inductive Kernel where
  /-- Up to `n` bytes move now; none yet where `n` is zero. -/
  | ready (n : Nat)
  /-- `WouldBlock` or `TimedOut`. -/
  | timedOut
  /-- `BrokenPipe` or `ConnectionReset`. -/
  | reset
  | failed
  deriving DecidableEq, Repr

namespace TcpTransport

def readFull (kernel : Kernel) (len : Nat) (got : Bytes) (pipe : Pipe) : ReadPass × Pipe :=
  if len ≤ got.length then (.filled got, pipe)
  else
    match kernel with
    | .ready 0 => (.again got, pipe)
    | .ready (n + 1) =>
        if pipe.buf.length = 0 then
          if pipe.writeClosed then
            -- `Ok(0)`: the end of the stream
            (if got.length = 0 then .eof else .error .frameMalformed, pipe)
          else (.again got, pipe)
        else
          let n := min (n + 1) (min (len - got.length) pipe.buf.length)
          let read := got ++ pipe.buf.take n
          (if read.length < len then .again read else .filled read, pipe.drain n)
    | .timedOut => (.error .timeout, pipe)
    | .reset => (.error .io, pipe)
    | .failed => (.error .io, pipe)

def writePartial (kernel : Kernel) (buf : Bytes) (pipe : Pipe) : WritePass × Pipe :=
  match kernel with
  | .ready n =>
      let n := min n (min buf.length pipe.space)
      if n = 0 then (.again, pipe) else (.wrote n, pipe.extend (buf.take n))
  | .timedOut => (.error .timeout, pipe)
  | .reset => (.error .closedByPeer, pipe)
  | .failed => (.error .io, pipe)

def io : ByteIo Kernel := ⟨readFull, writePartial⟩

end TcpTransport

/-! ### The loopback pipe -/

/-- Whether the deadline of the call has passed when it comes to wait. -/
inductive Deadline where
  | ahead
  | passed
  deriving DecidableEq, Repr

namespace PipeEnd

def readFull (deadline : Deadline) (len : Nat) (got : Bytes) (pipe : Pipe) : ReadPass × Pipe :=
  let take := if 0 < pipe.buf.length then min pipe.buf.length (len - got.length) else 0
  let drained := got ++ pipe.buf.take take
  if 0 < pipe.buf.length ∧ drained.length = len then (.filled drained, pipe.drain take)
  else if pipe.writeClosed then
    (if drained.length = 0 then .eof else .error .frameMalformed, pipe.drain take)
  else
    match deadline with
    | .passed => (.error .timeout, pipe.drain take)
    | .ahead => (.again drained, pipe.drain take)

def writePartial (deadline : Deadline) (buf : Bytes) (pipe : Pipe) : WritePass × Pipe :=
  if pipe.readerGone then (.error .closedByPeer, pipe)
  else if 0 < pipe.space then (.wrote (min pipe.space buf.length), pipe.extend buf)
  else
    match deadline with
    | .passed => (.error .timeout, pipe)
    | .ahead => (.again, pipe)

def io : ByteIo Deadline := ⟨readFull, writePartial⟩

end PipeEnd

/-! ## Receiving -/

/-- A call of `recv_frame` in progress: which of its two `read_full` it is in, and
`buf[..off]` of that one. -/
inductive RecvFrame where
  | header (got : Bytes)
  | payload (head : Bytes) (payloadLen : Nat) (got : Bytes)
  deriving DecidableEq

namespace RecvFrame

def start : RecvFrame := .header []

/-- What the call has read so far. -/
def held : RecvFrame → Bytes
  | .header got => got
  | .payload head _ got => head ++ got

/-- The bytes the `read_full` it is in still waits for. -/
def due : RecvFrame → Nat
  | .header got => frameHeaderLen - got.length
  | .payload _ payloadLen got => payloadLen - got.length

/-- One pass of the call: it is still running, or it returned. -/
def pass {ε : Type} (io : ByteIo ε) (answer : ε) (call : RecvFrame) (pipe : Pipe) :
    (RecvFrame ⊕ Except TransportError Bytes) × Pipe :=
  match call with
  | .header got =>
      match io.readFull answer frameHeaderLen got pipe with
      | (.again got, pipe) => (.inl (.header got), pipe)
      | (.eof, pipe) => (.inr (.error .closedByPeer), pipe)
      | (.error e, pipe) => (.inr (.error e), pipe)
      | (.filled head, pipe) =>
          let payloadLen := declaredLen head
          if maxFramePayload < payloadLen then
            (.inr (.error (.frameTooLarge payloadLen)), pipe)
          else (.inl (.payload head payloadLen []), pipe)
  | .payload head payloadLen got =>
      match io.readFull answer payloadLen got pipe with
      | (.again got, pipe) => (.inl (.payload head payloadLen got), pipe)
      | (.eof, pipe) => (.inr (.error .frameMalformed), pipe)
      | (.error e, pipe) => (.inr (.error e), pipe)
      | (.filled body, pipe) => (.inr (.ok (head ++ body)), pipe)

end RecvFrame

/-! ## Sending -/

/-- The checks `send_frame` makes before it writes. -/
def checkFrame (frame : Bytes) : Except TransportError Unit :=
  if frame.length < frameHeaderLen then .error .frameMalformed
  else
    let declared := declaredLen frame
    if maxFramePayload < declared then .error (.frameTooLarge declared)
    else if declared ≠ frame.length - frameHeaderLen then .error .frameMalformed
    else .ok ()

/-- A frame that `send_frame` takes. -/
def Accepted (frame : Bytes) : Prop := checkFrame frame = .ok ()

instance (frame : Bytes) : Decidable (Accepted frame) := inferInstanceAs (Decidable (_ = _))

theorem accepted_iff {frame : Bytes} : Accepted frame ↔
    frame.length = frameHeaderLen + declaredLen frame ∧ declaredLen frame ≤ maxFramePayload := by
  simp only [Accepted, checkFrame, frameHeaderLen]
  by_cases short : frame.length < 8
  · simp [short]
    omega
  · by_cases large : maxFramePayload < declaredLen frame
    · simp [short, large]
    · by_cases fits : declaredLen frame = frame.length - 8
      · simp [short, fits]
        omega
      · simp [short, large, fits]
        omega

/-- One pass of the write loop of `send_frame`, with `frame[off..]` left. -/
def writeRest {ε : Type} (io : ByteIo ε) (answer : ε) (rest : Bytes) (pipe : Pipe) :
    WritePass × Pipe :=
  io.writePartial answer (rest.take writeChunk) pipe

/-! ## What a pass can come to -/

/-- Between two passes the buffer is not full, or it was empty and nothing came. -/
def Midway (len : Nat) (got : Bytes) : Prop := got.length < len ∨ got = []

/-- Every way a pass of `read_full` ends while no deadline passes and nothing fails. `eager`
tells whether an empty buffer counts as full at once. -/
inductive Reads (eager : Bool) (len : Nat) (got : Bytes) (pipe : Pipe) : ReadPass × Pipe → Prop
  | again (n : Nat) (fits : n ≤ pipe.buf.length) (midway : Midway len (got ++ pipe.buf.take n)) :
      Reads eager len got pipe (.again (got ++ pipe.buf.take n), pipe.drain n)
  | filled (n : Nat) (fits : n ≤ pipe.buf.length) (full : (got ++ pipe.buf.take n).length = len)
      (seen : eager = true ∨ pipe.buf ≠ []) :
      Reads eager len got pipe (.filled (got ++ pipe.buf.take n), pipe.drain n)
  | eof (fresh : got = []) (dry : pipe.buf = []) (closed : pipe.writeClosed = true)
      (waited : eager = true → 0 < len) : Reads eager len got pipe (.eof, pipe)
  | cut (begun : got ++ pipe.buf ≠ []) (short : (got ++ pipe.buf).length < len)
      (closed : pipe.writeClosed = true) :
      Reads eager len got pipe (.error .frameMalformed, pipe.drain pipe.buf.length)

/-- How a pass of `write_partial` ends while no deadline passes and nothing fails. -/
inductive Writes (buf : Bytes) (pipe : Pipe) : WritePass × Pipe → Prop
  | again : Writes buf pipe (.again, pipe)
  | wrote (n : Nat) (moved : 0 < n) (fits : n ≤ buf.length) (pipe' : Pipe)
      (entered : pipe'.buf = pipe.buf ++ buf.take n) (closed : pipe'.writeClosed = pipe.writeClosed)
      (gone : pipe'.readerGone = pipe.readerGone) : Writes buf pipe (.wrote n, pipe')

/-- The answers that are neither a passed deadline nor a fault. -/
def Kernel.Calm : Kernel → Prop
  | .ready _ => True
  | _ => False

def Deadline.Calm : Deadline → Prop
  | .ahead => True
  | .passed => False

/-- The answers with which something moves where something can. -/
def Kernel.Brisk : Kernel → Prop
  | .ready n => 0 < n
  | _ => False

section

variable {len : Nat} {got : Bytes} {pipe : Pipe}

theorem tcp_reads {kernel : Kernel} (calm : kernel.Calm) (midway : Midway len got) :
    Reads true len got pipe (TcpTransport.readFull kernel len got pipe) := by
  unfold TcpTransport.readFull
  by_cases full : len ≤ got.length
  · have exact_len : got.length = len := by
      rcases midway with short | fresh
      · omega
      · simp_all
    rw [if_pos full]
    simpa using @Reads.filled true len got pipe 0 (Nat.zero_le _) (by simpa) (.inl rfl)
  · rw [if_neg full]
    match kernel, calm with
    | .ready 0, _ => simpa using @Reads.again true len got pipe 0 (Nat.zero_le _) (by simpa)
    | .ready (n + 1), _ =>
        dsimp only
        by_cases dry : pipe.buf.length = 0
        · rw [if_pos dry]
          by_cases closed : pipe.writeClosed
          · rw [if_pos closed]
            have empty : pipe.buf = [] := List.length_eq_zero_iff.mp dry
            by_cases fresh : got.length = 0
            · rw [if_pos fresh]
              exact .eof (List.length_eq_zero_iff.mp fresh) empty closed (by omega)
            · rw [if_neg fresh]
              have := @Reads.cut true len got pipe (by simp_all) (by simp; omega) closed
              simpa [dry] using this
          · rw [if_neg closed]
            simpa using @Reads.again true len got pipe 0 (Nat.zero_le _) (by simpa)
        · rw [if_neg dry]
          have within : min (n + 1) (min (len - got.length) pipe.buf.length) ≤ pipe.buf.length := by
            omega
          split
          · exact .again _ within (.inl ‹_›)
          · refine .filled _ within ?_ (.inl rfl)
            simp only [List.length_append, List.length_take] at *
            omega

theorem loopback_reads {deadline : Deadline} (calm : deadline.Calm) (midway : Midway len got) :
    Reads false len got pipe (PipeEnd.readFull deadline len got pipe) := by
  have room : got.length ≤ len := by
    rcases midway with short | fresh
    · omega
    · simp [fresh]
  obtain rfl : deadline = .ahead := by cases deadline <;> trivial
  unfold PipeEnd.readFull
  dsimp only
  by_cases buffered : 0 < pipe.buf.length
  · rw [if_pos buffered]
    have within : min pipe.buf.length (len - got.length) ≤ pipe.buf.length := Nat.min_le_left _ _
    have seen : pipe.buf ≠ [] := List.length_pos_iff.mp buffered
    by_cases full : (got ++ pipe.buf.take (min pipe.buf.length (len - got.length))).length = len
    · rw [if_pos ⟨buffered, full⟩]
      exact .filled _ within full (.inr seen)
    · rw [if_neg (fun both => full both.2)]
      -- less than the buffer wants is there, so all of it is taken
      have all : min pipe.buf.length (len - got.length) = pipe.buf.length := by
        simp only [List.length_append, List.length_take] at full
        omega
      rw [all, List.take_length] at full ⊢
      have short : (got ++ pipe.buf).length < len := by
        simp only [List.length_append] at full ⊢
        omega
      by_cases closed : pipe.writeClosed
      · rw [if_pos closed, if_neg (by rw [List.length_append]; omega)]
        exact .cut (by simp [seen]) short closed
      · rw [if_neg closed]
        simpa using @Reads.again false len got pipe pipe.buf.length (Nat.le_refl _)
          (.inl (by simpa using short))
  · have dry : pipe.buf = [] := by simpa using buffered
    rw [if_neg buffered, if_neg (fun both => buffered both.1)]
    by_cases closed : pipe.writeClosed
    · rw [if_pos closed]
      rcases midway with short | fresh
      · by_cases idle : got = []
        · simpa [idle] using @Reads.eof false len got pipe idle dry closed (by simp)
        · have := @Reads.cut false len got pipe (by simp [idle]) (by simp [dry, short]) closed
          simpa [dry, idle] using this
      · simpa [fresh] using @Reads.eof false len got pipe fresh dry closed (by simp)
    · rw [if_neg closed]
      simpa using @Reads.again false len got pipe 0 (Nat.zero_le _) (by simpa)

variable {buf : Bytes}

theorem tcp_writes {kernel : Kernel} (calm : kernel.Calm) :
    Writes buf pipe (TcpTransport.writePartial kernel buf pipe) := by
  match kernel, calm with
  | .ready n, _ =>
      unfold TcpTransport.writePartial
      dsimp only
      by_cases stuck : min n (min buf.length pipe.space) = 0
      · rw [if_pos stuck]
        exact .again
      · rw [if_neg stuck]
        refine .wrote _ (by omega) (by omega) _ ?_ rfl rfl
        simp [Pipe.extend, List.take_take]

theorem loopback_writes {deadline : Deadline} (calm : deadline.Calm) (some : buf ≠ [])
    (here : pipe.readerGone = false) :
    Writes buf pipe (PipeEnd.writePartial deadline buf pipe) := by
  obtain rfl : deadline = .ahead := by cases deadline <;> trivial
  unfold PipeEnd.writePartial
  rw [if_neg (by simp [here])]
  by_cases room : 0 < pipe.space
  · rw [if_pos room]
    have := List.length_pos_iff.mpr some
    refine .wrote _ (by omega) (by omega) _ ?_ rfl rfl
    simp [Pipe.extend, ← List.take_take]
  · rw [if_neg room]
    exact .again

end

/-! ## What both implementations promise -/

/-- A byte stream whose calm passes are the ones of `Reads` and `Writes`, and that moves
on a brisk answer when there is something to move. -/
structure Lawful {ε : Type} (io : ByteIo ε) (calm brisk : ε → Prop) (eager : Bool) : Prop where
  reads : ∀ {answer len got pipe}, calm answer → Midway len got →
    Reads eager len got pipe (io.readFull answer len got pipe)
  writes : ∀ {answer buf pipe}, calm answer → buf ≠ [] → pipe.readerGone = false →
    Writes buf pipe (io.writePartial answer buf pipe)
  brisk_calm : ∀ {answer}, brisk answer → calm answer
  some_brisk : ∃ answer, brisk answer
  brisk_reads : ∀ {answer len got pipe}, brisk answer → pipe.buf ≠ [] ∨ pipe.writeClosed = true →
    Midway len got → ∀ got', io.readFull answer len got pipe ≠ (.again got', pipe)
  brisk_writes : ∀ {answer buf pipe}, brisk answer → 0 < pipe.space → buf ≠ [] →
    pipe.readerGone = false → ∀ pipe', io.writePartial answer buf pipe ≠ (.again, pipe')

theorem Pipe.drain_ne {pipe : Pipe} {n : Nat} (moved : 0 < n) (some : pipe.buf ≠ []) :
    pipe.drain n ≠ pipe := by
  intro same
  have := List.length_pos_iff.mpr some
  have : (pipe.buf.drop n).length = pipe.buf.length := by rw [← drain_buf, same]
  simp only [List.length_drop] at this
  omega

theorem tcp_lawful : Lawful TcpTransport.io Kernel.Calm Kernel.Brisk true where
  reads := tcp_reads
  writes := fun calm _ _ => tcp_writes calm
  brisk_calm := by
    intro kernel brisk
    cases kernel <;> trivial
  some_brisk := ⟨.ready 1, Nat.one_pos⟩
  brisk_reads := by
    intro kernel len got pipe brisk ready midway got' same
    match kernel, brisk with
    | .ready (n + 1), _ =>
        simp only [TcpTransport.io, TcpTransport.readFull] at same
        split at same
        · simp at same
        · split at same
          · rename_i dry
            have closed : pipe.writeClosed = true := by simp_all
            rw [if_pos closed] at same
            split at same <;> simp at same
          · rename_i short wet
            refine Pipe.drain_ne ?_ (by simpa using wet) (congrArg Prod.snd same)
            omega
  brisk_writes := by
    intro kernel buf pipe brisk room some here pipe' same
    have := List.length_pos_iff.mpr some
    match kernel, brisk with
    | .ready (n + 1), _ =>
        simp only [TcpTransport.io, TcpTransport.writePartial] at same
        rw [if_neg (by omega)] at same
        simp at same

theorem loopback_lawful : Lawful PipeEnd.io Deadline.Calm Deadline.Calm false where
  reads := loopback_reads
  writes := loopback_writes
  brisk_calm := id
  some_brisk := ⟨.ahead, trivial⟩
  brisk_reads := by
    intro deadline len got pipe calm ready midway got' same
    obtain rfl : deadline = .ahead := by cases deadline <;> trivial
    dsimp only [PipeEnd.io, PipeEnd.readFull] at same
    by_cases buffered : 0 < pipe.buf.length
    · rw [if_pos buffered] at same
      by_cases full : 0 < pipe.buf.length ∧
          (got ++ pipe.buf.take (min pipe.buf.length (len - got.length))).length = len
      · rw [if_pos full] at same
        simp at same
      · rw [if_neg full] at same
        have moved : 0 < min pipe.buf.length (len - got.length) := by
          rcases midway with short | fresh
          · omega
          · -- an empty buffer is full once a byte is there
            by_cases empty : len = 0
            · simp [fresh, empty, buffered] at full
            · simp only [fresh, List.length_nil]
              omega
        have wet : pipe.buf ≠ [] := List.length_pos_iff.mp buffered
        split at same
        · split at same <;> simp at same
        · exact Pipe.drain_ne moved wet (congrArg Prod.snd same)
    · have closed : pipe.writeClosed = true := by simp_all
      rw [if_neg buffered, if_neg (fun both => buffered both.1), if_pos closed] at same
      split at same <;> simp at same
  brisk_writes := by
    intro deadline buf pipe calm room some here pipe' same
    simp only [PipeEnd.io, PipeEnd.writePartial, here, room] at same
    simp at same

/-- Over TCP a `read_full` of nothing succeeds, whatever the kernel would answer. -/
theorem tcp_reads_nothing (kernel : Kernel) (pipe : Pipe) :
    TcpTransport.readFull kernel 0 [] pipe = (.filled [], pipe) := by
  simp [TcpTransport.readFull]

end Jbuu.Transport
