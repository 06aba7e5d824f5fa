/-
# Doorkeeper.LogFile — many writers and a handle that is swapped

`JsonlLog` of `otp-doorkeeper/src/log.rs` as it runs: any number of threads in `event` and
`reopen`. No lock is held while a line is written; a thread takes its own reference to the
handle and appends, in one `write` where the file takes all of it, else in more. A `write`
takes any part of what it is given, or fails.

A line that is cut short is finished by a later append, and what others append in between
lands inside it (`cut_line_is_split`). In every run in which an append goes to the start of
a line or continues its own (`Uncut`), the lines of a file are the events it took, one line
each (`lines_are_whole`).
-/
import Jbuu.Library.Runs
import Jbuu.Doorkeeper.Log

namespace Jbuu.Doorkeeper

set_option autoImplicit false

open Jbuu.Library.BigEndian (Bytes)
open Jbuu.Library
open Jbuu.Library.Json (Text)

abbrev FileId := Nat
abbrev ThreadId := Nat

/-- An open file, and how many were open before it. -/
structure Handle where
  place : Nat
  file : FileId
  deriving DecidableEq, Repr

/-- A call of `event`. -/
structure Call where
  event : Event
  /-- the latest handle whose `reopen` had returned when the call began -/
  since : Nat
  /-- the handle of the `reopen` that returns with this call -/
  reopens : Option Nat
  deriving DecidableEq, Repr

/-- What a thread is in the middle of. -/
inductive Doing where
  | idle
  /-- in `event`, with the line built -/
  | built (call : Call)
  /-- in `event`, with a handle; `again` once the first write was short -/
  | writing (call : Call) (handle : Handle) (written : Nat) (again : Bool)
  /-- in `reopen` -/
  | reopening
  /-- in `reopen`, with the new file open -/
  | opened (file : FileId)
  deriving DecidableEq, Repr

/-- A piece of a line that a file took. -/
structure Append where
  call : Call
  handle : Handle
  piece : Bytes
  deriving DecidableEq, Repr

/-- The log, its files and its threads; as ghosts, what was appended and the events whose
lines were taken in full, by file. -/
structure LogState where
  path : Text
  handles : List FileId
  reopened : Nat
  disk : FileId → Bytes
  threads : ThreadId → Doing
  appends : List Append
  whole : FileId → List Event

inductive WriteResult where
  | accepted (n : Nat)
  | interrupted
  | failed
  deriving DecidableEq, Repr

/-- One step of one thread. -/
inductive Act where
  | event (t : ThreadId) (now : Clock) (level kind : Text) (fields : List (Text × Field))
  | reopen (t : ThreadId)
  | openAppend (t : ThreadId) (result : Option FileId)
  | swap (t : ThreadId) (now : Clock)
  | take (t : ThreadId)
  | write (t : ThreadId) (result : WriteResult)

namespace LogState

def start (path : Text) (file : FileId) (old : FileId → List Event) : LogState where
  path := path
  handles := [file]
  reopened := 0
  disk f := (old f).flatMap Event.bytes
  threads _ := .idle
  appends := []
  whole := old

def doing (s : LogState) (t : ThreadId) (d : Doing) : LogState :=
  { s with threads := Function.update s.threads t d }

/-- The handle in the lock. -/
def current (s : LogState) : Option Handle :=
  s.handles.getLast?.map fun file => ⟨s.handles.length - 1, file⟩

/-- `event` returns, and with it the `reopen` that called it. -/
def finish (s : LogState) (t : ThreadId) (call : Call) : LogState :=
  { s with
    threads := Function.update s.threads t .idle
    reopened := max s.reopened (call.reopens.getD 0) }

/-- The file takes the next `n` bytes of a line. -/
def append (s : LogState) (call : Call) (handle : Handle) (written n : Nat) : LogState :=
  let piece := (call.event.bytes.drop written).take n
  { s with
    disk := Function.update s.disk handle.file (s.disk handle.file ++ piece)
    appends := s.appends ++ [{ call, handle, piece }]
    whole :=
      if call.event.bytes.length ≤ written + n then
        Function.update s.whole handle.file (s.whole handle.file ++ [call.event])
      else s.whole }

def step (act : Act) (s : LogState) : LogState :=
  match act with
  | .event t now level kind fields =>
      match s.threads t with
      | .idle => s.doing t (.built ⟨⟨now, level, kind, fields⟩, s.reopened, none⟩)
      | _ => s
  | .reopen t =>
      match s.threads t with
      | .idle => s.doing t .reopening
      | _ => s
  | .openAppend t result =>
      match s.threads t, result with
      | .reopening, some file => s.doing t (.opened file)
      | .reopening, none => s.doing t .idle
      | _, _ => s
  | .swap t now =>
      match s.threads t with
      | .opened file =>
          -- the line of the new file is built behind the lock
          { s with handles := s.handles ++ [file] }.doing t
            (.built ⟨.logReopened now s.path, s.reopened, some s.handles.length⟩)
      | _ => s
  | .take t =>
      match s.threads t, s.current with
      | .built call, some handle => s.doing t (.writing call handle 0 false)
      | _, _ => s
  | .write t result =>
      match s.threads t with
      | .writing call handle written again =>
          match result with
          | .accepted n =>
              let s' := s.append call handle written n
              if call.event.bytes.length ≤ written + n then s'.finish t call
              -- `write_all` gives up on a write that takes nothing, `write` does not
              else if again = true ∧ n = 0 then s'.finish t call
              else s'.doing t (.writing call handle (written + n) true)
          | .interrupted => if again then s else s.finish t call
          | .failed => s.finish t call
      | _ => s

end LogState

/-! ## The condition -/

/-- What is appended next starts a line. -/
def AtLineStart (content : Bytes) : Prop :=
  content.getLast? = none ∨ content.getLast? = some Event.newline

instance (content : Bytes) : Decidable (AtLineStart content) :=
  inferInstanceAs (Decidable (_ ∨ _))

/-- The part of its line that a thread has in a file. -/
def Doing.part (f : FileId) : Doing → Bytes
  | .writing call handle written _ => if handle.file = f then call.event.bytes.take written else []
  | _ => []

/-- Where a thread is writing, and how much of its line is written. -/
def Doing.place : Doing → Option (FileId × Nat)
  | .writing _ handle written _ => some (handle.file, written)
  | _ => none

/-- An append goes to the start of a line, or continues the line of the same thread. -/
def Uncut (s : LogState) : Act → Prop
  | .write t (.accepted n) =>
      ∀ w ∈ (s.threads t).place, n = 0 ∨ 0 < w.2 ∨ AtLineStart (s.disk w.1)
  | _ => True

instance (s : LogState) : DecidablePred (Uncut s)
  | .write _ (.accepted _) => inferInstanceAs (Decidable (∀ w ∈ _, _))
  | .write _ .interrupted => .isTrue trivial
  | .write _ .failed => .isTrue trivial
  | .event .. => .isTrue trivial
  | .reopen .. => .isTrue trivial
  | .openAppend .. => .isTrue trivial
  | .swap .. => .isTrue trivial
  | .take .. => .isTrue trivial

/-! ## The handle -/

/-- A call goes to no handle older than those whose `reopen` it followed. -/
def Doing.Current (s : LogState) : Doing → Prop
  | .built call => call.since < s.handles.length ∧ call.reopens.getD 0 < s.handles.length
  | .writing call handle _ _ =>
      call.since ≤ handle.place ∧ call.reopens.getD 0 < s.handles.length ∧
        s.handles[handle.place]? = some handle.file
  | _ => True

structure Handles (s : LogState) : Prop where
  reopened : s.reopened < s.handles.length
  threads : ∀ t, (s.threads t).Current s
  appends : ∀ a ∈ s.appends, a.call.since ≤ a.handle.place ∧ s.handles[a.handle.place]? = some a.handle.file

namespace Handles

variable {s : LogState}

theorem start (path : Text) (file : FileId) (old : FileId → List Event) :
    Handles (.start path file old) where
  reopened := Nat.zero_lt_one
  threads _ := trivial
  appends := nofun

/-- A thread goes on to something that suits the handles. -/
theorem doing (handles : Handles s) {t : ThreadId} {d : Doing} (suits : d.Current s) :
    Handles (s.doing t d) where
  reopened := handles.reopened
  threads u := by
    show Doing.Current s (Function.update s.threads t d u)
    by_cases same : u = t
    · rw [same, Function.update_self]
      exact suits
    · rw [Function.update_of_ne same]
      exact handles.threads u
  appends := handles.appends

theorem finish (handles : Handles s) {t : ThreadId} {call : Call}
    (suits : call.reopens.getD 0 < s.handles.length) : Handles (s.finish t call) where
  reopened := Nat.max_lt.mpr ⟨handles.reopened, suits⟩
  threads u := by
    show Doing.Current s (Function.update s.threads t .idle u)
    by_cases same : u = t
    · rw [same, Function.update_self]
      trivial
    · rw [Function.update_of_ne same]
      exact handles.threads u
  appends := handles.appends

theorem append (handles : Handles s) {call : Call} {handle : Handle} {written n : Nat} {again : Bool}
    (suits : (Doing.writing call handle written again).Current s) :
    Handles (s.append call handle written n) where
  reopened := handles.reopened
  threads := handles.threads
  appends a mem := by
    rcases List.mem_append.mp mem with old | new
    · exact handles.appends a old
    · rw [List.mem_singleton.mp new]
      exact ⟨suits.1, suits.2.2⟩

/-- One more handle; those before it keep their places. -/
theorem more (handles : Handles s) (file : FileId) :
    Handles { s with handles := s.handles ++ [file] } where
  reopened := by
    have := handles.reopened
    simp
    omega
  threads u := by
    have before := handles.threads u
    show Doing.Current _ (s.threads u)
    cases doing : s.threads u with
    | built call =>
        rw [doing] at before
        simp only [Doing.Current, List.length_append, List.length_singleton] at *
        omega
    | writing call handle written again =>
        rw [doing] at before
        obtain ⟨since, reopens, place⟩ := before
        refine ⟨since, ?_, List.getElem?_append_left (List.getElem?_eq_some_iff.mp place).1 ▸ place⟩
        simp only [List.length_append, List.length_singleton]
        omega
    | idle => trivial
    | reopening => trivial
    | opened file => trivial
  appends a mem := by
    obtain ⟨since, place⟩ := handles.appends a mem
    exact ⟨since, List.getElem?_append_left (List.getElem?_eq_some_iff.mp place).1 ▸ place⟩

theorem step (act : Act) (s : LogState) (handles : Handles s) : Handles (LogState.step act s) := by
  cases act with
  | event t now level kind fields =>
      unfold LogState.step
      dsimp only
      split
      · have some_ := handles.reopened
        exact handles.doing ⟨some_, Nat.zero_lt_of_lt some_⟩
      · exact handles
  | reopen t =>
      unfold LogState.step
      dsimp only
      split
      · exact handles.doing trivial
      · exact handles
  | openAppend t result =>
      unfold LogState.step
      dsimp only
      split
      · exact handles.doing trivial
      · exact handles.doing trivial
      · exact handles
  | swap t now =>
      unfold LogState.step
      dsimp only
      split
      · rename_i file _
        have older := handles.reopened
        refine (handles.more file).doing ⟨?_, ?_⟩
        · simp
          omega
        · simp
      · exact handles
  | take t =>
      have before := handles.threads t
      unfold LogState.step
      dsimp only
      split
      · rename_i call handle built current
        rw [built] at before
        obtain ⟨file, last, rfl⟩ := Option.map_eq_some_iff.mp current
        refine handles.doing ⟨?_, before.2, ?_⟩
        · have := before.1
          show call.since ≤ s.handles.length - 1
          omega
        · exact (List.getLast?_eq_getElem? ▸ last)
      · exact handles
  | write t result =>
      have before := handles.threads t
      unfold LogState.step
      dsimp only
      split
      · rename_i call handle written again writing
        rw [writing] at before
        cases result with
        | accepted n =>
            have appended : Handles (s.append call handle written n) := handles.append before
            dsimp only
            split
            · exact appended.finish before.2.1
            split
            · exact appended.finish before.2.1
            · exact appended.doing before
        | interrupted =>
            dsimp only
            split
            · exact handles
            · exact handles.finish before.2.1
        | failed => exact handles.finish before.2.1
      · exact handles

end Handles

/-! ## The lines -/

/-- A file holds the lines of the events it took, and the part of at most one more. -/
structure Lines (s : LogState) (f : FileId) (tail : Bytes) : Prop where
  disk : s.disk f = (s.whole f).flatMap Event.bytes ++ tail
  open_ : Event.newline ∉ tail
  part : ∀ t, (s.threads t).part f ≠ [] → (s.threads t).part f = tail
  alone : ∀ t u, (s.threads t).part f ≠ [] → (s.threads u).part f ≠ [] → t = u

/-- A thread that is writing has not written all of its line. -/
def Short (s : LogState) : Prop :=
  ∀ t call handle written again, s.threads t = .writing call handle written again →
    written < call.event.bytes.length

theorem Event.length_bytes_pos (e : Event) : 0 < e.bytes.length := by
  simp [Event.bytes]

/-- A part of a line that is not all of it has no end of line. -/
theorem Event.newline_take (e : Event) {n : Nat} (short : n < e.bytes.length) :
    newline ∉ e.bytes.take n := by
  rw [Event.bytes, List.length_append, List.length_singleton] at short
  rw [Event.bytes, List.take_append_of_le_length (by omega)]
  exact fun mem => e.json_whole (List.mem_of_mem_take mem)

namespace Lines

variable {s s' : LogState} {f : FileId} {tail : Bytes}

theorem start (path : Text) (file : FileId) (old : FileId → List Event) (f : FileId) :
    Lines (.start path file old) f [] where
  disk := (List.append_nil _).symm
  open_ := nofun
  part _ some_ := absurd rfl some_
  alone _ _ some_ := absurd rfl some_

/-- Where the file stays and no thread has a part that it did not have. -/
theorem moves (lines : Lines s f tail) (disk : s'.disk f = s.disk f) (whole : s'.whole f = s.whole f)
    (parts : ∀ t, (s'.threads t).part f ≠ [] → (s'.threads t).part f = (s.threads t).part f) :
    Lines s' f tail where
  disk := by rw [disk, whole, lines.disk]
  open_ := lines.open_
  part t some_ := by
    have same := parts t some_
    rw [same] at some_ ⊢
    exact lines.part t some_
  alone t u some_ other := by
    rw [parts t some_] at some_
    rw [parts u other] at other
    exact lines.alone t u some_ other

/-- A thread goes on to something with no part of a line in the file. -/
theorem doing (lines : Lines s f tail) {t : ThreadId} {d : Doing} (none_ : d.part f = []) :
    Lines (s.doing t d) f tail := by
  refine lines.moves rfl rfl ?_
  intro u some_
  show (Function.update s.threads t d u).part f = _
  by_cases same : u = t
  · subst same
    exact absurd ((congrArg (Doing.part f) (Function.update_self ..)).trans none_) some_
  · rw [Function.update_of_ne same]

theorem finish (lines : Lines s f tail) {t : ThreadId} {call : Call} :
    Lines (s.finish t call) f tail :=
  (lines.doing (t := t) (d := .idle) rfl).moves rfl rfl fun _ _ => rfl

/-- At the start of a line no thread has a part. -/
theorem tail_nil (lines : Lines s f tail) (level : AtLineStart (s.disk f)) : tail = [] := by
  rcases List.eq_nil_or_concat tail with none_ | ⟨front, last, rfl⟩
  · exact none_
  · rw [List.concat_eq_append] at *
    rw [lines.disk, ← List.append_assoc] at level
    unfold AtLineStart at level
    rw [List.getLast?_concat] at level
    rcases level with none_ | same
    · nomatch none_
    · have here : Event.newline ∈ front ++ [last] := by simp [Option.some.inj same]
      exact absurd here lines.open_

section Append

variable {t : ThreadId} {call : Call} {handle : Handle} {written n : Nat} {again : Bool}

theorem part_writing (writing : s.threads t = .writing call handle written again) :
    (s.threads t).part handle.file = call.event.bytes.take written := by
  rw [writing, Doing.part, if_pos rfl]

/-- A thread that may append stands where the file ends, and no other has a part there. -/
theorem stands (lines : Lines s handle.file tail) (writing : s.threads t = .writing call handle written again)
    (here : 0 < written ∨ AtLineStart (s.disk handle.file)) :
    tail = call.event.bytes.take written ∧ ∀ u, u ≠ t → (s.threads u).part handle.file = [] := by
  have part := part_writing writing
  rcases Nat.eq_zero_or_pos written with rfl | some_
  · have none_ := lines.tail_nil (here.resolve_left (Nat.lt_irrefl 0))
    refine ⟨by rw [none_, List.take_zero], ?_⟩
    intro u _
    by_contra other
    exact other ((lines.part u other).trans none_)
  · have filled : (s.threads t).part handle.file ≠ [] := by
      rw [part]
      intro none_
      have long_ := congrArg List.length none_
      have positive := call.event.length_bytes_pos
      simp only [List.length_take, List.length_nil] at long_
      omega
    refine ⟨by rw [← part, lines.part t filled], ?_⟩
    intro u other
    by_contra also
    exact other (lines.alone u t also filled)

/-- What the file is after a piece of the line, from its start on. -/
theorem disk_append (lines : Lines s handle.file tail) (here : tail = call.event.bytes.take written) :
    (s.append call handle written n).disk handle.file =
      (s.whole handle.file).flatMap Event.bytes ++ call.event.bytes.take (written + n) := by
  show Function.update s.disk handle.file _ handle.file = _
  rw [Function.update_self, lines.disk, here, List.append_assoc, List.take_add]

/-- The line is complete. -/
theorem append_all (lines : Lines s handle.file tail)
    (writing : s.threads t = .writing call handle written again)
    (here : 0 < written ∨ AtLineStart (s.disk handle.file))
    (all : call.event.bytes.length ≤ written + n) :
    Lines ((s.append call handle written n).finish t call) handle.file [] := by
  obtain ⟨stands, alone⟩ := lines.stands writing here
  have no_part : ∀ u, ((((s.append call handle written n).finish t call).threads u).part handle.file) = [] := by
    intro u
    show (Function.update s.threads t .idle u).part handle.file = []
    by_cases same : u = t
    · rw [same, Function.update_self]
      rfl
    · rw [Function.update_of_ne same]
      exact alone u same
  refine ⟨?_, nofun, fun u some_ => absurd (no_part u) some_, fun u _ some_ => absurd (no_part u) some_⟩
  have disk : (s.append call handle written n).disk handle.file = _ := lines.disk_append stands
  have whole : (s.append call handle written n).whole handle.file = s.whole handle.file ++ [call.event] := by
    show (if _ then _ else _ : FileId → List Event) handle.file = _
    rw [if_pos all, Function.update_self]
  show (s.append call handle written n).disk handle.file = _
  rw [disk]
  show _ = ((s.append call handle written n).whole handle.file).flatMap Event.bytes ++ []
  rw [whole, List.take_of_length_le all, List.flatMap_append, List.flatMap_singleton, List.append_nil]

/-- A part of the line is there. -/
theorem append_part (lines : Lines s handle.file tail)
    (writing : s.threads t = .writing call handle written again)
    (here : 0 < written ∨ AtLineStart (s.disk handle.file))
    (more : written + n < call.event.bytes.length) :
    Lines ((s.append call handle written n).doing t (.writing call handle (written + n) true))
      handle.file (call.event.bytes.take (written + n)) := by
  obtain ⟨stands, alone⟩ := lines.stands writing here
  have own : ∀ u, ((((s.append call handle written n).doing t
      (.writing call handle (written + n) true)).threads u).part handle.file) ≠ [] → u = t := by
    intro u some_
    by_contra other
    apply some_
    show (Function.update s.threads t _ u).part handle.file = []
    rw [Function.update_of_ne other]
    exact alone u other
  refine ⟨?_, call.event.newline_take more, ?_, ?_⟩
  · have whole : (s.append call handle written n).whole = s.whole := if_neg (Nat.not_le.mpr more)
    show (s.append call handle written n).disk handle.file =
      ((s.append call handle written n).whole handle.file).flatMap Event.bytes ++ _
    rw [lines.disk_append stands, whole]
  · intro u some_
    obtain rfl := own u some_
    exact part_writing (Function.update_self ..)
  · intro u v some_ other
    rw [own u some_, own v other]

/-- Nothing was taken. -/
theorem append_none (lines : Lines s f tail) (more : written < call.event.bytes.length) :
    Lines (s.append call handle written 0) f tail := by
  have disk : (s.append call handle written 0).disk = s.disk := by
    show Function.update s.disk handle.file _ = s.disk
    rw [List.take_zero, List.append_nil, Function.update_eq_self]
  have whole : (s.append call handle written 0).whole = s.whole := if_neg (Nat.not_le.mpr more)
  exact lines.moves (congrFun disk f) (congrFun whole f) fun _ _ => rfl

/-- Another file does not change. -/
theorem append_other (lines : Lines s f tail) (other : f ≠ handle.file) :
    Lines (s.append call handle written n) f tail := by
  refine lines.moves (Function.update_of_ne other ..) ?_ fun _ _ => rfl
  show (if _ then _ else _ : FileId → List Event) f = _
  split
  · exact Function.update_of_ne other ..
  · rfl

end Append

/-- What one step makes of the lines of a file. -/
theorem step (lines : Lines s f tail) (short : Short s) (act : Act) (uncut : Uncut s act) :
    ∃ tail', Lines (LogState.step act s) f tail' := by
  cases act with
  | event t now level kind fields =>
      unfold LogState.step
      dsimp only
      split
      · exact ⟨tail, lines.doing rfl⟩
      · exact ⟨tail, lines⟩
  | reopen t =>
      unfold LogState.step
      dsimp only
      split
      · exact ⟨tail, lines.doing rfl⟩
      · exact ⟨tail, lines⟩
  | openAppend t result =>
      unfold LogState.step
      dsimp only
      split
      · exact ⟨tail, lines.doing rfl⟩
      · exact ⟨tail, lines.doing rfl⟩
      · exact ⟨tail, lines⟩
  | swap t now =>
      unfold LogState.step
      dsimp only
      split
      · rename_i file _
        have more : Lines { s with handles := s.handles ++ [file] } f tail :=
          lines.moves rfl rfl fun _ _ => rfl
        exact ⟨tail, more.doing rfl⟩
      · exact ⟨tail, lines⟩
  | take t =>
      unfold LogState.step
      dsimp only
      split
      · refine ⟨tail, lines.doing ?_⟩
        rw [Doing.part]
        split <;> rfl
      · exact ⟨tail, lines⟩
  | write t result =>
      unfold LogState.step
      dsimp only
      split
      · rename_i call handle written again writing
        have more := short t call handle written again writing
        cases result with
        | accepted n =>
            have uncut : n = 0 ∨ 0 < written ∨ AtLineStart (s.disk handle.file) := by
              refine uncut (handle.file, written) ?_
              rw [writing]
              rfl
            dsimp only
            by_cases here : f = handle.file
            · subst here
              rcases uncut with rfl | here
              · rw [if_neg (by omega)]
                have none_ : Lines (s.append call handle written 0) handle.file tail :=
                  lines.append_none more
                split
                · exact ⟨tail, none_.finish⟩
                · refine ⟨tail, none_.moves rfl rfl ?_⟩
                  intro u _
                  show (Function.update s.threads t _ u).part _ = (s.threads u).part _
                  by_cases same : u = t
                  · subst same
                    rw [Function.update_self, writing]
                    rfl
                  · rw [Function.update_of_ne same]
              · split
                · rename_i all
                  exact ⟨[], lines.append_all writing here all⟩
                split
                · rename_i gives
                  obtain ⟨-, rfl⟩ := gives
                  exact ⟨tail, (lines.append_none more).finish⟩
                · rename_i part _
                  exact ⟨_, lines.append_part writing here (by omega)⟩
            · have kept : Lines (s.append call handle written n) f tail := lines.append_other here
              split
              · exact ⟨tail, kept.finish⟩
              split
              · exact ⟨tail, kept.finish⟩
              · refine ⟨tail, kept.doing ?_⟩
                rw [Doing.part, if_neg (Ne.symm here)]
        | interrupted =>
            dsimp only
            split
            · exact ⟨tail, lines⟩
            · exact ⟨tail, lines.finish⟩
        | failed => exact ⟨tail, lines.finish⟩
      · exact ⟨tail, lines⟩

end Lines

namespace Short

variable {s : LogState}

/-- A thread goes on to something in which its line is not written in full. -/
theorem doing (short : Short s) {t : ThreadId} {d : Doing}
    (suits : ∀ call handle written again, d = .writing call handle written again →
      written < call.event.bytes.length) : Short (s.doing t d) := by
  intro u call handle written again writing
  by_cases same : u = t
  · subst same
    exact suits call handle written again ((Function.update_self ..).symm.trans writing)
  · exact short u call handle written again ((Function.update_of_ne same ..).symm.trans writing)

theorem finish (short : Short s) {t : ThreadId} {call : Call} : Short (s.finish t call) :=
  short.doing (t := t) (d := .idle) nofun

theorem step (act : Act) (s : LogState) (short : Short s) : Short (LogState.step act s) := by
  cases act with
  | event t now level kind fields =>
      unfold LogState.step
      dsimp only
      split
      · exact short.doing nofun
      · exact short
  | reopen t =>
      unfold LogState.step
      dsimp only
      split
      · exact short.doing nofun
      · exact short
  | openAppend t result =>
      unfold LogState.step
      dsimp only
      split
      · exact short.doing nofun
      · exact short.doing nofun
      · exact short
  | swap t now =>
      unfold LogState.step
      dsimp only
      split
      · exact Short.doing short nofun
      · exact short
  | take t =>
      unfold LogState.step
      dsimp only
      split
      · refine short.doing ?_
        rintro call' handle' written' again' ⟨⟩
        exact Event.length_bytes_pos _
      · exact short
  | write t result =>
      unfold LogState.step
      dsimp only
      split
      · rename_i call handle written again writing
        cases result with
        | accepted n =>
            have appended : Short (s.append call handle written n) := short
            dsimp only
            split
            · exact appended.finish
            rename_i part
            split
            · exact appended.finish
            · refine appended.doing ?_
              rintro call' handle' written' again' ⟨⟩
              exact Nat.not_le.mp part
        | interrupted =>
            dsimp only
            split
            · exact short
            · exact short.finish
        | failed => exact short.finish
      · exact short

end Short

/-- **The lines of the log.** In every run in which an append goes to the start of a line or
continues its own: the ended lines of a file are the events it took in full, one line each
and in the order they were finished, and each is read back as what was logged; and a call
writes to no handle older than the last one whose `reopen` had returned when it began. -/
theorem lines_are_whole (path : Text) (file : FileId) (old : FileId → List Event) (acts : List Act)
    (uncut : Along LogState.step Uncut acts (.start path file old)) :
    (∀ f, completeLines Event.newline ((run LogState.step acts (.start path file old)).disk f) =
        ((run LogState.step acts (.start path file old)).whole f).map Event.json) ∧
    (∀ e : Event, readLine e.json = some e.members) ∧
    ∀ a ∈ (run LogState.step acts (.start path file old)).appends, a.call.since ≤ a.handle.place ∧
      (run LogState.step acts (.start path file old)).handles[a.handle.place]? = some a.handle.file := by
  have preserved : ∀ act s, Uncut s act → (∀ f, ∃ tail, Lines s f tail) ∧ Short s →
      (∀ f, ∃ tail, Lines (LogState.step act s) f tail) ∧ Short (LogState.step act s) := by
    rintro act s uncut ⟨lines, short⟩
    refine ⟨?_, short.step act s⟩
    intro f
    obtain ⟨tail, lines⟩ := lines f
    exact lines.step short act uncut
  have kept := run_invariant_along LogState.step preserved acts uncut
    ⟨fun f => ⟨[], .start path file old f⟩, nofun⟩
  have handles : Handles (run LogState.step acts (.start path file old)) :=
    run_invariant LogState.step Handles.step acts (.start path file old)
  refine ⟨?_, readLine_json, handles.appends⟩
  intro f
  obtain ⟨tail, lines⟩ := kept.1 f
  have split_ : ∀ events : List Event, events.flatMap Event.bytes =
      (events.map Event.json).flatMap (· ++ [Event.newline]) := by
    intro events
    rw [List.flatMap_map]
    rfl
  rw [lines.disk, split_]
  refine completeLines_flatMap ?_ lines.open_
  intro line mem
  obtain ⟨e, -, rfl⟩ := List.mem_map.mp mem
  exact e.json_whole

/-! ## A line that is cut short -/

/-- Two threads log; the first has `first` bytes of its line taken before the second's line
is, and the rest afterwards. -/
def twoWriters (first : Nat) : List Act :=
  [.event 0 ⟨0, 0⟩ ['a'] ['b'] [], .event 1 ⟨0, 0⟩ ['c'] ['d'] [], .take 0, .take 1,
    .write 0 (.accepted first), .write 1 (.accepted 1000), .write 0 (.accepted 1000)]

/-- Where the first line is taken in one piece, there are two lines. -/
theorem lines_are_whole_two :
    Along LogState.step Uncut (twoWriters 1000) (.start [] 0 fun _ => []) ∧
    (completeLines Event.newline
      ((run LogState.step (twoWriters 1000) (.start [] 0 fun _ => [])).disk 0)).length = 2 := by
  have uncut : Along LogState.step Uncut (twoWriters 1000) (.start [] 0 fun _ => []) := by
    decide +kernel
  refine ⟨uncut, ?_⟩
  rw [(lines_are_whole [] 0 (fun _ => []) (twoWriters 1000) uncut).1 0, List.length_map]
  decide +kernel

/-- Every line starts with a brace and a quote. -/
theorem Event.json_front (e : Event) : e.json.take 2 = [123, 34] := by
  have front : "\x7b\"ts\":\"".toList = '\x7b' :: '"' :: ['t', 's', '"', ':', '"'] := by decide
  have shape : ∃ rest, e.line = "\x7b\"ts\":\"".toList ++ rest := by
    unfold line
    exact ⟨_, rfl⟩
  obtain ⟨rest, shape⟩ := shape
  rw [json, shape, front, List.cons_append, List.cons_append, List.flatMap_cons, List.flatMap_cons]
  rfl

/-- **Cut behind its first byte**, a line ends up around another: what is then a line is the
line of no event. -/
theorem cut_line_is_split : ¬∀ (path : Text) (file : FileId) (old : FileId → List Event) (acts : List Act),
    ∀ f, ∀ line ∈ completeLines Event.newline ((run LogState.step acts (.start path file old)).disk f),
      ∃ e : Event, line = e.json := by
  intro whole
  have line := whole [] 0 (fun _ => []) (twoWriters 1) 0
  have front : ((completeLines Event.newline
      ((run LogState.step (twoWriters 1) (.start [] 0 fun _ => [])).disk 0)).map (·.take 2)).head? =
        some [123, 123] := by
    decide +kernel
  cases lines : completeLines Event.newline
      ((run LogState.step (twoWriters 1) (.start [] 0 fun _ => [])).disk 0) with
  | nil =>
      rw [lines] at front
      nomatch front
  | cons first rest =>
      rw [lines] at front line
      obtain ⟨e, rfl⟩ := line first (List.mem_cons_self ..)
      rw [List.map_cons, List.head?_cons, e.json_front] at front
      exact absurd front (by decide)

end Jbuu.Doorkeeper
