/-
# Terminal.Hub — a terminal: its PTY, its lease, and what its methods do

`PtyHub` of `otp-terminal/src/hub.rs` over `PtyMaster` of `otp-platform/src/pty.rs`. Every
method is one step under its locks. A write and a resize run in the gate of the lease; a
drain and a poll for the exit ask no token.

Of the kernel there is what the code sees of it: the bytes the terminal has given out and
nobody has read (the child's, with what the line discipline echoes), whether the last slave
end is closed, how the child ended. The child is the terminal's only writer, so nothing is
given out after its end. As ghosts a PTY keeps all it ever gave out, what was written to
it under each token, and of each read under which token it was and whether that was current.
-/
import Jbuu.Terminal.Frame

namespace Jbuu.Terminal

set_option autoImplicit false

open Jbuu.Library.BigEndian (Bytes)

/-- `PTY_WRITE_SLICE`. -/
def ptyWriteSlice : Nat := 2048

/-- The buffer of a drain. -/
def outBufLen : Nat := 16 * 1024

structure WindowSize where
  rows : UInt16
  cols : UInt16
  deriving DecidableEq, Repr

structure ExitStatus where
  code : Int32
  deriving DecidableEq, Repr

/-- `std::process::ExitStatus`: a code, or the signal that ended the child. -/
inductive ChildEnd where
  | exited (code : Int32)
  | signaled (signal : Int32)
  deriving DecidableEq, Repr

/-- `status.code().unwrap_or(128 + signal_of(&status))`. -/
def ChildEnd.code : ChildEnd → Int32
  | .exited code => code
  | .signaled signal => 128 + signal

/-- What a read of the master gives. -/
inductive PtyRead where
  | data (bytes : Bytes)
  | eof
  | timeout
  deriving DecidableEq, Repr

/-- A read: the bytes that left the terminal, the token of the reader, and whether that
token was the current one. -/
structure Drain where
  token : FencingToken
  bytes : Bytes
  current : Bool
  deriving DecidableEq, Repr

/-- `PtySlot`. -/
structure Pty where
  output : Bytes
  hungUp : Bool
  child : Option ChildEnd
  /-- the exit code as it was observed -/
  exit : Option Int32
  emitted : Bytes
  writes : List (FencingToken × Bytes)
  drains : List Drain
  deriving DecidableEq, Repr

structure PtyHub where
  lease : LeaseManager
  pty : Pty
  granted : List FencingToken

/-! ## The master -/

/-- A round of the loop in `write_all_bounded`. -/
inductive WriteRound where
  /-- `EINTR` or `EAGAIN` -/
  | again
  | failed
  | wrote (n : Nat)
  deriving DecidableEq, Repr

/-- `write_all_bounded`: whether all was written, and what reached the terminal. The budget
is used up where the rounds end. -/
def writeAllBounded : List WriteRound → Bytes → Bool × Bytes
  | _, [] => (true, [])
  | [], _ :: _ => (false, [])
  | .again :: rounds, data => writeAllBounded rounds data
  | .failed :: _, _ => (false, [])
  | .wrote n :: rounds, data =>
      if n = 0 then (false, [])
      else ((writeAllBounded rounds (data.drop n)).1, data.take n ++ (writeAllBounded rounds (data.drop n)).2)

/-- What reaches the terminal is a prefix, and all of it where the write succeeds. -/
theorem writeAllBounded_prefix (rounds : List WriteRound) (data : Bytes) :
    (writeAllBounded rounds data).2 <+: data ∧
      ((writeAllBounded rounds data).1 = true → (writeAllBounded rounds data).2 = data) := by
  induction rounds generalizing data with
  | nil =>
      cases data with
      | nil => exact ⟨List.prefix_rfl, fun _ => rfl⟩
      | cons b rest => exact ⟨List.nil_prefix, nofun⟩
  | cons round rounds ih =>
      cases data with
      | nil =>
          have done : writeAllBounded (round :: rounds) [] = (true, []) := by
            simp [writeAllBounded]
          rw [done]
          exact ⟨List.prefix_rfl, fun _ => rfl⟩
      | cons b rest =>
          cases round with
          | again =>
              simp only [writeAllBounded]
              exact ih (b :: rest)
          | failed =>
              simp only [writeAllBounded]
              exact ⟨List.nil_prefix, nofun⟩
          | wrote n =>
              simp only [writeAllBounded]
              split
              · exact ⟨List.nil_prefix, nofun⟩
              · obtain ⟨within, whole⟩ := ih ((b :: rest).drop n)
                constructor
                · have both := (List.prefix_append_right_inj ((b :: rest).take n)).mpr within
                  rwa [List.take_append_drop] at both
                · intro all
                  show (b :: rest).take n ++ _ = b :: rest
                  rw [whole all, List.take_append_drop]

namespace Pty

/-- A terminal with a new child. -/
def new : Pty where
  output := []
  hungUp := false
  child := none
  exit := none
  emitted := []
  writes := []
  drains := []

/-- `read_timeout` with no time to wait; `n` is how much the kernel hands over at once. -/
def readTimeout (n : Nat) (p : Pty) : PtyRead × Pty :=
  let bytes := p.output.take (min (max n 1) outBufLen)
  if bytes = [] then (if p.hungUp then .eof else .timeout, p)
  else (.data bytes, { p with output := p.output.drop bytes.length })

/-- `poll_exit`; `waited` is false where `try_wait` fails. -/
def pollExit (waited : Bool) (p : Pty) : Option ExitStatus × Pty :=
  match p.exit with
  | some code => (some ⟨code⟩, p)
  | none =>
      match p.child, waited with
      | some status, true => (some ⟨status.code⟩, { p with exit := some status.code })
      | _, _ => (none, p)

/-- The terminal gives something out. -/
def emit (bytes : Bytes) (p : Pty) : Pty :=
  if p.child = none ∧ p.hungUp = false then
    { p with output := p.output ++ bytes, emitted := p.emitted ++ bytes }
  else p

/-- The last slave end is closed. -/
def hangUp (p : Pty) : Pty := { p with hungUp := true }

/-- The child ends. -/
def ends (status : ChildEnd) (p : Pty) : Pty :=
  if p.child = none then { p with child := some status } else p

/-- What was written under a token. -/
def writtenBy (token : FencingToken) (p : Pty) : Bytes :=
  (p.writes.filter (·.1 = token)).flatMap (·.2)

/-- What a read comes to. -/
theorem readTimeout_cases (n : Nat) (p : Pty) :
    (p.output = [] ∧ p.readTimeout n = (if p.hungUp then .eof else .timeout, p)) ∨
      ∃ bytes rest, bytes ≠ [] ∧ p.output = bytes ++ rest ∧
        p.readTimeout n = (.data bytes, { p with output := rest }) := by
  unfold readTimeout
  dsimp only
  split
  · rename_i none_
    left
    refine ⟨?_, rfl⟩
    rcases List.take_eq_nil_iff.mp none_ with zero | empty
    · have positive : 0 < outBufLen := by decide
      omega
    · exact empty
  · rename_i some_
    right
    refine ⟨_, _, some_, ?_, rfl⟩
    exact (List.prefix_iff_eq_append.mp (List.take_prefix _ p.output)).symm

end Pty

/-! ## The terminal -/

namespace PtyHub

/-- `from_parts`; `none` is the failed assertion on the lease's timeout. -/
def fromParts (leaseTimeout now : Nat) : Option PtyHub :=
  (LeaseManager.new leaseTimeout now).map fun lease => { lease, pty := .new, granted := [] }

def acquire (now : Nat) (conn : ConnId) (h : PtyHub) : Option (Except LeaseDenied LeaseGrant) × PtyHub :=
  match h.lease.acquire now conn with
  | (some (.ok grant), lease) => (some (.ok grant), { h with lease, granted := h.granted ++ [grant.token] })
  | (result, lease) => (result, { h with lease })

def heartbeat (now : Nat) (token : FencingToken) (h : PtyHub) : Except TerminalError Unit × PtyHub :=
  ((h.lease.heartbeat now token).1, { h with lease := (h.lease.heartbeat now token).2 })

def leaseIsCurrent (now : Nat) (token : FencingToken) (h : PtyHub) : Bool := h.lease.isCurrent now token

/-- What a write does once it is through the gate. -/
def writeMaster (token : FencingToken) (data : Bytes) (rounds : List WriteRound) (p : Pty) :
    Except TerminalError Unit × Pty :=
  if p.exit.isSome then (.error .closed, p)
  else
    (if (writeAllBounded rounds data).1 then .ok () else .error .io,
      { p with writes := p.writes ++ [(token, (writeAllBounded rounds data).2)] })

def writeInput (now : Nat) (token : FencingToken) (data : Bytes) (rounds : List WriteRound) (h : PtyHub) :
    Except TerminalError Unit × PtyHub :=
  let out := h.lease.withWriteGate now token (writeMaster token data rounds) h.pty
  (out.1, { h with pty := out.2 })

/-- `resize`; `set` is whether the window could be set. -/
def resize (now : Nat) (token : FencingToken) (set : Bool) (h : PtyHub) : Except TerminalError Unit :=
  (h.lease.withWriteGate now token (fun p : Pty =>
    if p.exit.isSome then (.error .closed, p)
    else (if set then .ok () else .error .io, p)) h.pty).1

def drainOutput (n : Nat) (h : PtyHub) : PtyRead × PtyHub :=
  ((h.pty.readTimeout n).1, { h with pty := (h.pty.readTimeout n).2 })

def pollExit (waited : Bool) (h : PtyHub) : Option ExitStatus × PtyHub :=
  ((h.pty.pollExit waited).1, { h with pty := (h.pty.pollExit waited).2 })

def hasExited (h : PtyHub) : Bool := h.pty.exit.isSome

/-- The grant is dropped. -/
def dropGrant (token : FencingToken) (h : PtyHub) : PtyHub := { h with lease := h.lease.drop ⟨token⟩ }

/-- Who read what is noted. -/
def noteDrain (now : Nat) (token : FencingToken) (read : PtyRead) (h : PtyHub) : PtyHub :=
  match read with
  | .data bytes =>
      { h with pty := { h.pty with drains := h.pty.drains ++ [⟨token, bytes, h.leaseIsCurrent now token⟩] } }
  | _ => h

/-- The token is current on this terminal. -/
def Current (now : Nat) (token : FencingToken) (h : PtyHub) : Prop := h.leaseIsCurrent now token = true

instance (now : Nat) (token : FencingToken) (h : PtyHub) : Decidable (h.Current now token) :=
  inferInstanceAs (Decidable (_ = _))

end PtyHub

end Jbuu.Terminal
