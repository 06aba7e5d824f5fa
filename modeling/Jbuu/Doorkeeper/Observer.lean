/-
# Doorkeeper.Observer — the version line of a client

`VersionObserver` of `otp-doorkeeper/src/obs.rs`. It is given the client's bytes chunk by chunk and
keeps those it has not scanned yet; a line is looked at once it is ended, and given up with
everything else where its end lies outside the scan window.

What comes out is a function of the whole stream (`reference`), however it is cut:
`observer_ignores_chunks`. The invariant (`Follows`) is that the bytes kept, with the position of
the first, still decide what the stream will come to, whatever follows.
-/
import Jbuu.Library.Lines
import Jbuu.Library.Utf8
import Jbuu.Types
import Jbuu.Doorkeeper.Log

namespace Jbuu.Doorkeeper

set_option autoImplicit false

open Jbuu.Library.BigEndian (Bytes)
open Jbuu.Library
open Jbuu.Library.Json (Text)
open Event (newline)

/-- `SCAN_WINDOW`. -/
def scanWindow : Nat := 8 * 1024

/-- `VERSION_MAX_BYTES`. -/
def versionMaxBytes : Nat := 128

def carriageReturn : UInt8 := 13

/-- `b"SSH-"`. -/
def sshPrefix : Bytes := [0x53, 0x53, 0x48, 0x2d]

structure VersionObserver where
  /-- what is not scanned yet -/
  buf : Bytes
  scanned : Nat
  /-- where the first byte of `buf` stands in the stream -/
  base : Nat
  done : Bool
  version : Option Text
  truncated : Bool
  deriving DecidableEq, Repr

/-- A line without the carriage return at its end. -/
def chomp (line : Bytes) : Bytes := if line.getLast? = some carriageReturn then line.dropLast else line

namespace VersionObserver

def new : VersionObserver where
  buf := []
  scanned := 0
  base := 0
  done := false
  version := none
  truncated := false

def finishNone (o : VersionObserver) : VersionObserver :=
  { o with done := true, version := none, buf := [] }

/-- The loop of `observe`. There are no more lines in the buffer than the count allows. -/
def scanLines : Nat → VersionObserver → VersionObserver
  | 0, o => o
  | count + 1, o =>
      match o.buf.findIdx? (· = newline) with
      | none => if o.scanned ≥ scanWindow then o.finishNone else o
      | some i =>
          let lineEndAbs := o.base + i
          if lineEndAbs ≥ scanWindow then o.finishNone
          else
            let line := (o.buf.take (i + 1)).dropLast
            let o := { o with buf := o.buf.drop (i + 1), base := o.base + (i + 1) }
            let line := chomp line
            if sshPrefix.isPrefixOf line then
              { o with
                truncated := line.length > versionMaxBytes
                version := some (Utf8.decodeLossy (line.take versionMaxBytes))
                done := true
                buf := [] }
            else scanLines count o

def observe (o : VersionObserver) (chunk : Bytes) : VersionObserver :=
  if o.done then o
  else
    let o := { o with scanned := o.scanned + chunk.length, buf := o.buf ++ chunk }
    scanLines (o.buf.length + 1) o

/-- `take_result`, and what it leaves. -/
def takeResult (o : VersionObserver) : (Option Text × Bool) × VersionObserver :=
  let o := if o.done then o else o.finishNone
  ((o.version, o.truncated), { o with version := none })

end VersionObserver

/-! ## The reference -/

/-- Lines, each with the position of its newline. -/
def ended : Nat → List Bytes → List (Nat × Bytes)
  | _, [] => []
  | start, line :: lines => (start + line.length, line) :: ended (start + line.length + 1) lines

/-- What is reported of a line. -/
def reported (line : Bytes) : Option Text × Bool :=
  (some (Utf8.decodeLossy ((chomp line).take versionMaxBytes)), (chomp line).length > versionMaxBytes)

/-- A line that counts: it starts with `SSH-`, and ends inside the window. -/
def Counts (line : Nat × Bytes) : Prop := line.1 < scanWindow ∧ sshPrefix <+: line.2

instance : DecidablePred Counts := fun line =>
  inferInstanceAs (Decidable (line.1 < scanWindow ∧ sshPrefix <+: line.2))

/-- What bytes come to that stand at a position of the stream. -/
def referenceAt (start : Nat) (stream : Bytes) : Option Text × Bool :=
  match (ended start (completeLines newline stream)).find? Counts with
  | some line => reported line.2
  | none => (none, false)

/-- **The reference**: the first line that counts. -/
def reference (stream : Bytes) : Option Text × Bool := referenceAt 0 stream

/-! ### Its laws -/

/-- A line that is the UTF-8 of a text is reported as the text. -/
theorem reported_text {text : Text} (short : (text.flatMap String.utf8EncodeChar).length ≤ versionMaxBytes)
    (clean : (text.flatMap String.utf8EncodeChar).getLast? ≠ some carriageReturn) :
    reported (text.flatMap String.utf8EncodeChar) = (some text, false) := by
  simp only [reported, chomp, if_neg clean, List.take_of_length_le short, Utf8.decodeLossy_encode]
  rw [decide_eq_false (Nat.not_lt.mpr short)]

section Reference

variable {start : Nat} {line front : Bytes}

theorem referenceAt_open (open_ : newline ∉ line) : referenceAt start line = (none, false) := by
  simp [referenceAt, completeLines, splitLines_tail open_, ended]

theorem referenceAt_line (whole : newline ∉ line) (rest : Bytes) :
    referenceAt start (line ++ newline :: rest) =
      if Counts (start + line.length, line) then reported line
      else referenceAt (start + line.length + 1) rest := by
  simp only [referenceAt, completeLines_line whole, ended]
  by_cases counts : Counts (start + line.length, line)
  · simp [counts]
  · simp [counts]

theorem start_le_of_mem_ended {lines : List Bytes} {p : Nat × Bytes} (mem : p ∈ ended start lines) :
    start ≤ p.1 := by
  induction lines generalizing start with
  | nil => nomatch mem
  | cons line lines ih =>
      rcases List.mem_cons.mp mem with rfl | later
      · exact Nat.le_add_right _ _
      · have := ih later
        omega

/-- An end outside the window, and every end behind it. -/
theorem referenceAt_late (open_ : newline ∉ front) (late : scanWindow ≤ start + front.length)
    (more : Bytes) : referenceAt start (front ++ more) = (none, false) := by
  have none_ : (ended start (completeLines newline (front ++ more))).find? Counts = none := by
    rw [List.find?_eq_none, completeLines_append open_]
    intro p mem
    have outside : scanWindow ≤ p.1 := by
      cases lines : completeLines newline more with
      | nil =>
          rw [lines] at mem
          nomatch mem
      | cons line lines' =>
          rw [lines, List.modifyHead_cons, ended, List.length_append] at mem
          rcases List.mem_cons.mp mem with rfl | later
          · simp only
            omega
          · have := start_le_of_mem_ended later
            omega
    rw [decide_eq_true_eq]
    exact fun counts => absurd counts.1 (Nat.not_lt.mpr outside)
  simp only [referenceAt, none_]

/-- The carriage return is not a part of `SSH-`. -/
theorem prefix_chomp (line : Bytes) : sshPrefix <+: chomp line ↔ sshPrefix <+: line := by
  simp only [chomp]
  split
  · rename_i last
    constructor
    · exact fun begins => begins.trans (List.dropLast_prefix line)
    · rintro ⟨rest, rfl⟩
      have some_ : rest ≠ [] := by
        rintro rfl
        exact absurd last (by decide)
      rw [List.dropLast_append_of_ne_nil some_]
      exact List.prefix_append _ _
  · exact Iff.rfl

end Reference

/-! ## The invariant -/

/-- What bytes at a position have come to, `scanned` counting the whole stream: an answer that
nothing which follows can change, or an unfinished line that still decides. -/
inductive Comes (start : Nat) (stream : Bytes) (scanned : Nat) : VersionObserver → Prop where
  | settled (o : VersionObserver) (done : o.done = true)
      (always : ∀ more, referenceAt start (stream ++ more) = (o.version, o.truncated)) :
      Comes start stream scanned o
  | waiting (base : Nat) (buf : Bytes) (inside : scanned < scanWindow) (open_ : newline ∉ buf)
      (whole : base + buf.length = start + stream.length)
      (decides : ∀ more, referenceAt start (stream ++ more) = referenceAt base (buf ++ more)) :
      Comes start stream scanned ⟨buf, scanned, base, false, none, false⟩

theorem split_at_newline {buf : Bytes} {i : Nat} (found : buf.findIdx? (· = newline) = some i) :
    ∃ line rest, buf = line ++ newline :: rest ∧ line.length = i ∧ newline ∉ line := by
  induction buf generalizing i with
  | nil => nomatch found
  | cons b buf ih =>
      rw [List.findIdx?_cons] at found
      by_cases here : b = newline
      · simp only [here, decide_true, if_true, Option.some.injEq] at found
        exact ⟨[], buf, by simp [here], found, by simp⟩
      · simp only [here, decide_false, Bool.false_eq_true, if_false, Option.map_eq_some_iff] at found
        obtain ⟨j, later, rfl⟩ := found
        obtain ⟨line, rest, rfl, rfl, whole⟩ := ih later
        exact ⟨b :: line, rest, rfl, rfl, by simp [whole, Ne.symm here]⟩

/-- Bytes that come to the same come to the same again. -/
theorem Comes.of_rest {start base scanned : Nat} {stream buf : Bytes} {o : VersionObserver}
    (comes : Comes base buf scanned o) (whole : base + buf.length = start + stream.length)
    (decides : ∀ more, referenceAt start (stream ++ more) = referenceAt base (buf ++ more)) :
    Comes start stream scanned o := by
  cases comes with
  | settled o done always => exact .settled o done fun more => (decides more).trans (always more)
  | waiting base' buf' inside open_ kept later =>
      exact .waiting base' buf' inside open_ (kept.trans whole) fun more => (decides more).trans (later more)

namespace VersionObserver

/-- **The loop** gives up, finds the line, or waits with an unfinished one. -/
theorem scanLines_comes {count : Nat} {start scanned : Nat} {buf : Bytes} (enough : buf.length < count)
    (known : scanned = start + buf.length) :
    Comes start buf scanned (scanLines count ⟨buf, scanned, start, false, none, false⟩) := by
  induction count generalizing start buf with
  | zero => omega
  | succ count ih =>
      simp only [scanLines]
      split
      · rename_i none_
        have open_ : newline ∉ buf := by
          intro mem
          have := List.findIdx?_eq_none_iff.mp none_ newline mem
          simp at this
        by_cases full : scanned ≥ scanWindow
        · rw [if_pos full]
          exact .settled _ rfl (referenceAt_late open_ (by omega))
        · rw [if_neg full]
          exact .waiting start buf (by omega) open_ rfl (fun _ => rfl)
      · rename_i i found
        obtain ⟨line, rest, rfl, rfl, whole⟩ := split_at_newline found
        have taken : ((line ++ newline :: rest).take (line.length + 1)).dropLast = line := by
          rw [List.take_length_add_append, List.take_succ_cons, List.take_zero, List.dropLast_concat]
        have left : (line ++ newline :: rest).drop (line.length + 1) = rest := by simp
        by_cases outside : start + line.length ≥ scanWindow
        · rw [if_pos outside]
          refine .settled _ rfl fun more => ?_
          rw [List.append_assoc]
          exact referenceAt_late whole outside _
        · rw [if_neg outside, taken, left]
          simp only [List.length_append, List.length_cons] at enough known
          by_cases begins : sshPrefix <+: line
          · -- the line is found
            rw [if_pos (by simpa [prefix_chomp] using begins)]
            refine .settled _ rfl fun more => ?_
            rw [List.append_assoc, List.cons_append, referenceAt_line whole, if_pos ⟨by omega, begins⟩]
            rfl
          · rw [if_neg (by simpa [prefix_chomp] using begins)]
            have lengths : scanned = start + line.length + 1 + rest.length := by omega
            -- a line before the one that counts, if there is one
            refine (ih (by omega) lengths).of_rest (by simp; omega) fun more => ?_
            rw [List.append_assoc, List.cons_append, referenceAt_line whole, if_neg fun counts => begins counts.2]

theorem new_comes : Comes 0 [] 0 new := .waiting 0 [] (by decide) (by decide) rfl (fun _ => rfl)

/-- **One chunk** more. -/
theorem observe_comes {stream : Bytes} {o : VersionObserver} (chunk : Bytes)
    (comes : Comes 0 stream stream.length o) :
    Comes 0 (stream ++ chunk) (stream ++ chunk).length (o.observe chunk) := by
  cases comes with
  | settled o done always =>
      rw [observe, if_pos done]
      refine .settled o done fun more => ?_
      rw [List.append_assoc]
      exact always (chunk ++ more)
  | waiting base buf inside open_ whole decides =>
      have known : stream.length + chunk.length = base + (buf ++ chunk).length := by
        rw [List.length_append]
        omega
      rw [List.length_append]
      refine (scanLines_comes (Nat.lt_succ_self _) known).of_rest (by simp; omega) fun more => ?_
      rw [List.append_assoc, decides, ← List.append_assoc]

theorem observe_all {stream : Bytes} {o : VersionObserver} (chunks : List Bytes)
    (comes : Comes 0 stream stream.length o) :
    Comes 0 (stream ++ chunks.flatten) (stream ++ chunks.flatten).length (chunks.foldl observe o) := by
  induction chunks generalizing stream o with
  | nil => simpa using comes
  | cons chunk chunks ih =>
      have next := ih (observe_comes chunk comes)
      rwa [List.append_assoc, ← List.flatten_cons] at next

end VersionObserver

/-- **The observer does not depend on the chunks**: what it is asked for in the end is the
reference of the stream, and before it is done it holds less than a window. -/
theorem observer_ignores_chunks (chunks : List Bytes) :
    (chunks.foldl VersionObserver.observe .new).takeResult.1 = reference chunks.flatten ∧
      ((chunks.foldl VersionObserver.observe .new).done = false →
        (chunks.foldl VersionObserver.observe .new).buf.length < scanWindow) := by
  have comes := VersionObserver.observe_all chunks VersionObserver.new_comes
  rw [List.nil_append] at comes
  generalize chunks.foldl VersionObserver.observe .new = o at comes ⊢
  cases comes with
  | settled o done always =>
      have whole := always []
      rw [List.append_nil] at whole
      simp [VersionObserver.takeResult, done, reference, whole]
  | waiting base buf inside open_ kept decides =>
      have whole := decides []
      simp only [List.append_nil] at whole
      simp only [VersionObserver.takeResult, reference, whole, referenceAt_open open_]
      exact ⟨rfl, fun _ => by omega⟩

/-- A line before the one that counts, which is cut in its `SSH-` and before its newline. -/
example : ([ascii "hello\r\nSS", ascii "H-2.0-a\r", ascii "\nSSH-2.0-b\n"].foldl
    VersionObserver.observe .new).takeResult.1 = (some "SSH-2.0-a".toList, false) := by decide

end Jbuu.Doorkeeper
