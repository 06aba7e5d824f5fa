/-
# Platform.Delivery — the three loops that write everything

`FileMedia::write` of `otp-book`, `write_full` of `otp-platform` and `send_frame` over the
`write_partial` of `TcpTransport`, each against any writer that keeps to the contract of
std's `Write`: short writes, reports of zero, interruptions (finitely many) and errors in
any order.

The first two take a report of zero for an error. `write_partial` hands it on, against what
`ByteIo` promises, and `send_frame` relies on the promise: it goes round again, for ever if
the stream does (`zero_report_spins`). `complete_writes` says of each loop when it returns,
delivers all and fails on a report of zero.
-/
import Jbuu.Allocator.Transaction
import Jbuu.Library.WriteLoop
import Jbuu.Platform.Write
import Jbuu.Transport.Frame

namespace Jbuu.Delivery

set_option autoImplicit false

open Jbuu.Library.BigEndian (Bytes)
open Jbuu.Library.WriteLoop
open Jbuu.Allocator (MediaError)
open Jbuu.Transport (TransportError Accepted checkFrame writeChunk)

/-! ## Errors of the system -/

/-- The kinds of `io::ErrorKind` the three look at. -/
inductive ErrorKind where
  | interrupted
  | wouldBlock
  | timedOut
  | brokenPipe
  | connectionReset
  | other
  deriving DecidableEq, Repr

/-- `io::Error`. -/
structure IoError where
  kind : ErrorKind
  rawOsError : Option Int
  deriving DecidableEq, Repr

def IoError.Interrupted (e : IoError) : Prop := e.kind = .interrupted

instance : DecidablePred IoError.Interrupted := fun _ => inferInstanceAs (Decidable (_ = _))

/-- Anything that implements std's `Write`, by its answers. -/
abbrev Writer := Schedule IoError IoError.Interrupted

/-- `libc::ENOSPC`. -/
def enospc : Int := 28

/-! ## Files -/

structure File where
  contents : Bytes
  cursor : Nat
  deriving DecidableEq, Repr

namespace File

/-- `seek(SeekFrom::Start(0))`. -/
def rewind (f : File) : File := { f with cursor := 0 }

/-- `write` at the cursor, over what is there; a gap before the cursor reads as zeros. -/
def put (bytes : Bytes) (f : File) : File :=
  if bytes = [] then f
  else
    { contents := f.contents.take f.cursor ++ List.replicate (f.cursor - f.contents.length) 0 ++ bytes ++
        f.contents.drop (f.cursor + bytes.length)
      cursor := f.cursor + bytes.length }

/-- `set_len`, which leaves the cursor where it is. -/
def setLen (len : Nat) (f : File) : File :=
  { f with contents := f.contents.take len ++ List.replicate (len - f.contents.length) 0 }

/-- What a file has before its cursor, filled up to it. -/
def before (f : File) : Bytes :=
  f.contents.take f.cursor ++ List.replicate (f.cursor - f.contents.length) 0

@[simp] theorem length_before (f : File) : f.before.length = f.cursor := by
  simp [before]
  omega

theorem put_of_ne_nil {bytes : Bytes} (some : bytes ≠ []) (f : File) :
    f.put bytes = ⟨f.before ++ bytes ++ f.contents.drop (f.cursor + bytes.length), f.cursor + bytes.length⟩ := by
  simp [put, before, some]

/-- After a write that wrote something the file reaches the cursor. -/
theorem before_put {bytes : Bytes} (some : bytes ≠ []) (f : File) : (f.put bytes).before = f.before ++ bytes := by
  rw [put_of_ne_nil some, before]
  have reach : f.cursor + bytes.length = (f.before ++ bytes).length := by simp
  have filled : f.cursor + bytes.length -
      (f.before ++ bytes ++ f.contents.drop (f.cursor + bytes.length)).length = 0 := by
    simp only [List.length_append, length_before]
    omega
  simp only [filled, List.replicate_zero, List.append_nil]
  rw [reach, List.take_left]

theorem put_append (front back : Bytes) (f : File) : f.put (front ++ back) = (f.put front).put back := by
  by_cases none_first : front = []
  · simp [none_first, put]
  by_cases none_second : back = []
  · simp [none_second, put]
  rw [put_of_ne_nil (by simp [none_first]), put_of_ne_nil none_second, before_put none_first,
    put_of_ne_nil none_first]
  have reach : f.cursor + front.length = (f.before ++ front).length := by simp
  have tail : (f.before ++ front ++ f.contents.drop (f.cursor + front.length)).drop
      (f.cursor + front.length + back.length) = f.contents.drop (f.cursor + front.length + back.length) := by
    rw [← List.drop_drop, reach, List.drop_left, ← reach, List.drop_drop]
  simp only [tail]
  simp [Nat.add_assoc]

/-- Writing from the start and cutting the file off behind leaves what was written. -/
theorem setLen_put_rewind (bytes : Bytes) (f : File) :
    (f.rewind.put bytes).setLen bytes.length = ⟨bytes, bytes.length⟩ := by
  by_cases empty : bytes = []
  · simp [empty, put, rewind, setLen]
  · simp [put_of_ne_nil empty, before, rewind, setLen]

def medium : Medium UInt8 File where
  put := put
  put_nil := fun _ => rfl
  put_append := put_append

end File

/-! ## `FileMedia::write` -/

def classifyPersistence (e : IoError) : MediaError :=
  if e.rawOsError = some enospc then .noSpace else .persistence

structure FileMedia where
  a : File
  b : File
  deriving DecidableEq, Repr

namespace FileMedia

def file (media : FileMedia) : AnchorCopy → File
  | .a => media.a
  | .b => media.b

/-- The media when one of the files changed. -/
def withFile (media : FileMedia) (copy : AnchorCopy) (file : File) : FileMedia :=
  match copy with
  | .a => { media with a := file }
  | .b => { media with b := file }

/-- The loop of `write`. -/
def loop : Loop UInt8 IoError MediaError where
  offer := id
  react := fun _ answer =>
    match answer with
    | .ok 0 => .stop .shortWrite
    | .ok (n + 1) => .advance (n + 1)
    | .error e => if e.kind = .interrupted then .again else .stop (classifyPersistence e)

/-- `FileMedia::write`, with what `seek` and `set_len` answer, when so many answers of the
file's `write` are used up. -/
def write (seek setLen : Except IoError Unit) (answers : Nat → Except IoError Nat)
    (media : FileMedia) (copy : AnchorCopy) (bytes : Bytes) (calls : Nat) :
    Option (Except MediaError Unit × FileMedia) :=
  match seek with
  | .error e => some (.error (classifyPersistence e), media)
  | .ok () =>
      (loop.call File.medium answers bytes (media.file copy).rewind calls).map fun (result, file) =>
        match result, setLen with
        | .error e, _ => (.error e, media.withFile copy file)
        | .ok (), .error e => (.error (classifyPersistence e), media.withFile copy file)
        | .ok (), .ok () => (.ok (), media.withFile copy (file.setLen bytes.length))

theorem loop_careful : loop.Careful IoError.Interrupted := by
  refine Loop.careful_of_reactions (fun _ => ⟨.shortWrite, rfl⟩) (fun _ _ => .inl rfl) fun _ e => ?_
  by_cases interrupted : e.kind = .interrupted
  · exact .inl ⟨by simp [interrupted], interrupted⟩
  · exact .inr ⟨classifyPersistence e, by simp [interrupted]⟩

end FileMedia

/-! ## `write_full` -/

/-- `PlatformError::from_io`. -/
def fromIo (e : IoError) : PlatformError :=
  if e.rawOsError = some enospc then .noSpace else .io

/-- The loop of `write_full`. -/
def fullLoop : Loop UInt8 IoError PlatformError where
  offer := id
  react := fun data answer =>
    match answer with
    | .ok 0 => .stop .writeZero
    | .ok (n + 1) => if n + 1 ≤ data.length then .advance (n + 1) else .stop .io
    | .error e => if e.kind = .interrupted then .again else .stop (fromIo e)

/-- `write_full`, with what the writer had got before. -/
def writeFull (answers : Nat → Except IoError Nat) (data : Bytes) (written : Bytes) (calls : Nat) :
    Option (Except PlatformError Unit × Bytes) :=
  fullLoop.call (.stream UInt8) answers data written calls

theorem fullLoop_careful : fullLoop.Careful IoError.Interrupted := by
  refine Loop.careful_of_reactions (fun _ => ⟨.writeZero, rfl⟩) (fun data n => ?_) fun _ e => ?_
  · by_cases fits : n + 1 ≤ data.length
    · exact .inl (by simp [fits])
    · exact .inr ⟨.io, by simp [fits]⟩
  · by_cases interrupted : e.kind = .interrupted
    · exact .inl ⟨by simp [interrupted], interrupted⟩
    · exact .inr ⟨fromIo e, by simp [interrupted]⟩

/-- What `write_some` comes back with, as `Platform.Write` has it. -/
def reported (data : Bytes) (answer : Except IoError Nat) : WriteSome :=
  match report data answer with
  | .ok n => .wrote n
  | .error e => if e.kind = .interrupted then .interrupted else .failed (fromIo e)

/-- What the first calls come back with. -/
def reports : Nat → (Nat → Except IoError Nat) → Bytes → List WriteSome
  | 0, _, _ => []
  | calls + 1, answers, data =>
      reported data (answers 0) ::
        reports calls (fun k => answers (k + 1)) (data.drop (took data (answers 0)).length)

section

variable {data : Bytes} (more : data ≠ []) (written : Bytes)

include more

theorem fullLoop_runs : (State.start data written : State UInt8 PlatformError Bytes).result = none :=
  result_eq_none.mpr ⟨rfl, more⟩

theorem fullLoop_zero : fullLoop.turn (.stream UInt8) (.ok 0) (.start data written) =
    ⟨data, written, some .writeZero⟩ := by
  have reacts : fullLoop.react data (report data (.ok 0)) = .stop .writeZero := by simp [fullLoop]
  rw [turn_stop (fullLoop_runs more written) reacts]
  simp [State.start, Medium.stream]

theorem fullLoop_wrote (n : Nat) : fullLoop.turn (.stream UInt8) (.ok (n + 1)) (.start data written) =
    .start (data.drop (min (n + 1) data.length)) (written ++ data.take (n + 1)) := by
  have moved := List.length_pos_iff.mpr more
  have reacts : fullLoop.react data (report data (.ok (n + 1))) = .advance (min (n + 1) data.length) := by
    obtain ⟨k, eq⟩ : ∃ k, min (n + 1) data.length = k + 1 := ⟨min (n + 1) data.length - 1, by omega⟩
    have fits : k + 1 ≤ data.length := by omega
    rw [report_ok, eq]
    exact if_pos fits
  rw [turn_advance (fullLoop_runs more written) reacts]
  simp [State.start, Medium.stream, fullLoop]

theorem fullLoop_interrupted {e : IoError} (interrupted : e.kind = .interrupted) :
    fullLoop.turn (.stream UInt8) (.error e) (.start data written) = .start data written := by
  have reacts : fullLoop.react data (report data (.error e)) = .again := by simp [fullLoop, interrupted]
  rw [turn_again (fullLoop_runs more written) reacts]
  simp [State.start, Medium.stream]

theorem fullLoop_failed {e : IoError} (real : e.kind ≠ .interrupted) :
    fullLoop.turn (.stream UInt8) (.error e) (.start data written) = ⟨data, written, some (fromIo e)⟩ := by
  have reacts : fullLoop.react data (report data (.error e)) = .stop (fromIo e) := by simp [fullLoop, real]
  rw [turn_stop (fullLoop_runs more written) reacts]
  simp [State.start, Medium.stream]

end

/-- A call of `write_full` that returns is the one of `Platform.Write` on what its writer
reported. -/
theorem writeFull_agrees {answers : Nat → Except IoError Nat} {data written left : Bytes} {calls : Nat}
    {result : Except PlatformError Unit}
    (returns : writeFull answers data written calls = some (result, left)) :
    ∃ taken, left = written ++ taken ∧
      Jbuu.writeFull (reports calls answers data) data = (result, taken) := by
  simp only [writeFull, Loop.call] at returns
  induction calls generalizing answers data written with
  | zero =>
      cases data with
      | nil =>
          obtain ⟨rfl, rfl⟩ : .ok () = result ∧ written = left := by
            simpa [Loop.after, State.start, State.result] using returns
          exact ⟨[], by simp, by simp [reports, Jbuu.writeFull]⟩
      | cons byte rest => simp [Loop.after, State.start, State.result] at returns
  | succ calls ih =>
      by_cases empty : data = []
      · subst empty
        rw [after_of_result rfl] at returns
        obtain ⟨rfl, rfl⟩ : .ok () = result ∧ written = left := by simpa [State.start] using returns
        exact ⟨[], by simp, by simp [reports, Jbuu.writeFull]⟩
      rw [after_succ] at returns
      rw [reports, reported]
      cases answer : answers 0 with
      | ok count =>
          cases count with
          | zero =>
              rw [answer, fullLoop_zero empty, after_of_result rfl] at returns
              obtain ⟨rfl, rfl⟩ : .error .writeZero = result ∧ written = left := by simpa using returns
              exact ⟨[], by simp, by simp [Jbuu.writeFull]⟩
          | succ n =>
              rw [answer, fullLoop_wrote empty] at returns
              obtain ⟨taken, rfl, same⟩ := ih returns
              refine ⟨data.take (n + 1) ++ taken, by simp, ?_⟩
              have moved : ¬min (n + 1) data.length = 0 := by
                have := List.length_pos_iff.mpr empty
                omega
              have front : data.take (n + 1) = data.take (min (n + 1) data.length) :=
                @took_of_report _ IoError data (.ok (n + 1)) _ rfl
              rw [took_ok, List.length_take, report_ok, front]
              simp only [Jbuu.writeFull, if_neg moved, if_pos (Nat.min_le_right _ _), same]
      | error e =>
          by_cases interrupted : e.kind = .interrupted
          · rw [answer, fullLoop_interrupted empty written interrupted] at returns
            obtain ⟨taken, rfl, same⟩ := ih returns
            refine ⟨taken, rfl, ?_⟩
            simpa [interrupted, Jbuu.writeFull, empty] using same
          · rw [answer, fullLoop_failed empty written interrupted, after_of_result rfl] at returns
            obtain ⟨rfl, rfl⟩ : .error (fromIo e) = result ∧ written = left := by simpa using returns
            exact ⟨[], by simp, by simp [interrupted, Jbuu.writeFull]⟩

/-! ## `send_frame` over TCP -/

/-- `TcpTransport::write_partial`: what the stream's `write` answers, as the framing sees it. -/
def writePartial : Except IoError Nat → Except TransportError Nat
  | .ok n => .ok n
  | .error e =>
      match e.kind with
      | .wouldBlock | .timedOut => .error .timeout
      | .brokenPipe | .connectionReset => .error .closedByPeer
      | .interrupted | .other => .error .io

/-- The loop of `send_frame`. -/
def sendLoop : Loop UInt8 IoError TransportError where
  offer := List.take writeChunk
  react := fun _ answer =>
    match writePartial answer with
    | .ok n => .advance n
    | .error e => .stop e

/-- `send_frame` on a `TcpTransport`, with what was sent before. -/
def sendFrame (answers : Nat → Except IoError Nat) (frame : Bytes) (sent : Bytes) (calls : Nat) :
    Option (Except TransportError Unit × Bytes) :=
  match checkFrame frame with
  | .error e => some (.error e, sent)
  | .ok () => sendLoop.call (.stream UInt8) answers frame sent calls

theorem writePartial_error (e : IoError) : ∃ e', writePartial (.error e) = .error e' := by
  cases kind : e.kind <;> simp [writePartial, kind]

theorem sendLoop_trusting : sendLoop.Trusting writeChunk where
  positive := by decide
  chunks := fun _ => rfl
  believes := fun _ _ => rfl
  gives_up := by
    intro offered e
    obtain ⟨e', fails⟩ := writePartial_error e
    exact ⟨e', by simp [sendLoop, fails]⟩

/-! ## Which of them are complete -/

theorem FileMedia.write_complete (writer : Writer) (seek setLen : Except IoError Unit) (media : FileMedia)
    (copy : AnchorCopy) (data : Bytes) :
    Complete writer.answers (· = media.withFile copy ⟨data, data.length⟩)
      (media.write seek setLen writer.answers copy data) := by
  cases seek with
  | error e => exact complete_of_error (classifyPersistence e) media
  | ok _ =>
      have written := careful_complete loop_careful writer File.medium data (media.file copy).rewind
      refine written.map (fun _ _ _ => by simp) fun file media' whole finished => ?_
      cases setLen with
      | error e => simp at finished
      | ok _ =>
          have cut : media.withFile copy (file.setLen data.length) = media' := by simpa using finished
          rw [← cut, whole]
          exact congrArg (media.withFile copy) (File.setLen_put_rewind data _)

theorem writeFull_complete (writer : Writer) (data written : Bytes) :
    Complete writer.answers (· = written ++ data) (writeFull writer.answers data written) :=
  careful_complete fullLoop_careful writer (.stream UInt8) data written

theorem sendFrame_complete_iff (writer : Writer) (frame sent : Bytes) :
    Complete writer.answers (· = sent ++ frame) (sendFrame writer.answers frame sent) ↔
      ¬Accepted frame ∨ Spared writeChunk writer.answers frame.length := by
  cases checked : checkFrame frame with
  | error e =>
      have refused : ¬Accepted frame := by simp [Accepted, checked]
      have call : sendFrame writer.answers frame sent = fun _ => some (.error e, sent) := by
        funext calls
        simp [sendFrame, checked]
      rw [call]
      exact iff_of_true (complete_of_error e sent) (.inl refused)
  | ok =>
      have accepted : Accepted frame := checked
      have call : sendFrame writer.answers frame sent =
          sendLoop.call (.stream UInt8) writer.answers frame sent := by
        funext calls
        simp [sendFrame, checked]
      rw [call]
      simp only [accepted, not_true_eq_false, false_or]
      exact trusting_complete_iff sendLoop_trusting writer.answers (.stream UInt8) frame sent

/-- Against every writer: `FileMedia::write` and `write_full` return, deliver all where they
return `Ok`, and fail on a report of zero; `send_frame` does exactly where it refuses the frame
or the stream fails before its last byte or no report before that is zero. -/
theorem complete_writes (writer : Writer) (data : Bytes) :
    (∀ (seek setLen : Except IoError Unit) (media : FileMedia) (copy : AnchorCopy),
      Complete writer.answers (· = media.withFile copy ⟨data, data.length⟩)
        (media.write seek setLen writer.answers copy data)) ∧
    (∀ written, Complete writer.answers (· = written ++ data) (writeFull writer.answers data written)) ∧
    ∀ sent, Complete writer.answers (· = sent ++ data) (sendFrame writer.answers data sent) ↔
      ¬Accepted data ∨
        (∃ k e, writer.answers k = .error e ∧ covered writeChunk writer.answers k < data.length) ∨
          ∀ k, covered writeChunk writer.answers k < data.length → writer.answers k ≠ .ok 0 := by
  refine ⟨?_, ?_, ?_⟩
  · intro seek setLen media copy
    exact FileMedia.write_complete writer seek setLen media copy data
  · exact writeFull_complete writer data
  · exact sendFrame_complete_iff writer data

/-- A stream that reports zero again and again. -/
def stuckWriter : Writer where
  answers := fun _ => .ok 0
  settles := ⟨0, by simp⟩

/-- A report of zero is no error to `write_partial`: over such a stream `send_frame` never
returns. -/
theorem zero_report_spins :
    let frame : Bytes := [0, 2, 0, 6, 0, 0, 0, 1, 7]
    Accepted frame ∧ (∀ calls, sendFrame stuckWriter.answers frame [] calls = none) ∧
      ¬Complete stuckWriter.answers (· = [] ++ frame) (sendFrame stuckWriter.answers frame []) := by
  intro frame
  have accepted : Accepted frame := by decide
  have checked : checkFrame frame = .ok () := accepted
  have still : ∀ calls, covered writeChunk stuckWriter.answers calls = 0 := by
    intro calls
    induction calls with
    | zero => rfl
    | succ k ih =>
        rw [covered, ih]
        rfl
  have spins : ∀ calls, sendFrame stuckWriter.answers frame [] calls = none := by
    intro calls
    simp only [sendFrame, checked]
    exact sendLoop_trusting.running_iff.mpr ⟨fun _ _ => ⟨0, rfl⟩, by simp [still, frame]⟩
  refine ⟨accepted, spins, fun complete => ?_⟩
  obtain ⟨calls, ended⟩ := complete.ends
  exact ended (spins calls)

end Jbuu.Delivery
