/-
# Terminal.Client — the client of a terminal, from its first frame to the end of its pump

`TerminalSession::attach` and `run_interactive` of `otp-terminal/src/client.rs`, cut at every
call of the transport and of the session. A thread of its own reads the input and queues what
it read; the pump takes one block a turn and sends it in chunks. A send that fails ends the
pump, and what is queued then is never sent.

So what a client sealed as input is a prefix of what it read, and what is left of that is in
its hands as long as the pump goes on (`Types`).
-/
import Jbuu.Terminal.Input

namespace Jbuu.Terminal

set_option autoImplicit false

open Jbuu.Library.BigEndian (Bytes)
open Jbuu.Transport (TransportError)

inductive AttachMode where
  | new (window : WindowSize)
  | recover (handle : UInt64) (window : WindowSize)

/-- The frame that asks for it. -/
def AttachMode.first : AttachMode → TerminalFrame
  | .new window => .open window.rows window.cols
  | .recover handle window => .attach handle window.rows window.cols

structure ClientOptions where
  mode : AttachMode
  attachTimeout : Nat
  pingInterval : Nat

/-- `DETACH_GRACE`, in milliseconds. -/
def detachGrace : Nat := 800

/-- Where the client is in `attach`, and then in `run_interactive`. -/
inductive ClientStage where
  | starting
  | attaching
  | waiting (deadline : Nat)
  /-- attached, the pump not yet started -/
  | attached
  | turning
  /-- the deadline of a ping is set -/
  | slowing
  | pinging
  | taking
  | typing (chunk : Bytes) (rest : List Bytes)
  | probing
  | resizing (window : WindowSize)
  | polling
  | receiving
  | delivering (data : Bytes)
  /-- the session and the transport are closed -/
  | closing (result : Except TerminalError ExitStatus)
  | ended (result : Except TerminalError ExitStatus)

structure Client where
  opts : ClientOptions
  stage : ClientStage
  handle : UInt64
  token : UInt64
  /-- what the thread read of the input -/
  read : Bytes
  /-- what it queued for the pump; `none` is the end of the input -/
  queue : List (Option Bytes)
  /-- the thread is running -/
  reading : Bool
  eofAt : Option Nat
  lastPing : Nat
  lastWindow : Option WindowSize
  output : Bytes

/-- What a step gets from outside. -/
inductive ClientAct where
  | go
  | set (result : Except TransportError Unit)
  | probe (window : Option WindowSize)
  | wrote (ok : Bool)
  /-- the result of a send -/
  | done (result : Except TerminalError Unit)
  /-- the result of `recv_raw` -/
  | heard (result : Except TerminalError (Option TerminalFrame))

namespace ClientStage

/-- The pump may still send. -/
def live : ClientStage → Bool
  | .closing _ => false
  | .ended _ => false
  | _ => true

/-- The first frame is not yet sent. -/
def unasked : ClientStage → Bool
  | .starting => true
  | .attaching => true
  | _ => false

def listens : ClientStage → Bool
  | .waiting _ => true
  | .receiving => true
  | _ => false

/-- What is left of the block the pump took. -/
def held : ClientStage → Bytes
  | .typing chunk rest => chunk ++ rest.flatten
  | _ => []

end ClientStage

namespace Client

def start (opts : ClientOptions) : Client where
  opts := opts
  stage := .starting
  handle := 0
  token := 0
  read := []
  queue := []
  reading := false
  eofAt := none
  lastPing := 0
  lastWindow := none
  output := []

def at_ (c : Client) (stage : ClientStage) : Client := { c with stage }

/-- Out of the pump, or out of `attach` with the session closed. -/
def fails (c : Client) (e : TerminalError) : Client := c.at_ (.closing (.error e))

/-- `ensure_open` before a send. -/
def opens (c : Client) (active : Bool) (stage : ClientStage) : Client :=
  if active then c.at_ stage else c.fails .closed

/-- What `attach` makes of a denial. -/
def deniedError : DenyReason → TerminalError
  | .busy => .leaseHeldByOther 0
  | .gone => .terminalGone
  | .fenced => .staleWriter

/-- The chunks of a block, one after the other. -/
def goOn (now : Nat) (chunks : List Bytes) (c : Client) : Client :=
  match chunks with
  | [] => { c with lastPing := now }.at_ .probing
  | chunk :: rest => c.at_ (.typing chunk rest)

/-- Time is up after the end of the input. -/
def detaches (now : Nat) (c : Client) : Bool :=
  match c.eofAt with
  | some at_ => detachGrace ≤ now - at_
  | none => false

/-- The frame that is sent now. -/
def saying (c : Client) : Option TerminalFrame :=
  match c.stage with
  | .attaching => some c.opts.mode.first
  | .pinging => some .ping
  | .typing chunk _ => some (.input chunk)
  | .resizing window => some (.resize window.rows window.cols)
  | _ => none

/-- One step; `active` says whether the session is. -/
def step (now : Nat) (active : Bool) (act : ClientAct) (c : Client) : Client :=
  match c.stage, act with
  | .starting, .set (.ok ()) => c.at_ .attaching
  | .starting, .set (.error e) => c.at_ (.ended (.error (.transport e)))
  | .attaching, .done (.ok ()) => c.at_ (.waiting (now + c.opts.attachTimeout))
  | .attaching, .done (.error e) => c.at_ (.ended (.error e))
  | .waiting _, .heard (.ok (some (.granted handle token))) => { c with handle, token }.at_ .attached
  | .waiting _, .heard (.ok (some (.denied reason))) => c.fails (deniedError reason)
  | .waiting _, .heard (.ok (some _)) => c.fails .protocol
  | .waiting deadline, .heard (.ok none) => if deadline ≤ now then c.fails .timeout else c
  | .waiting _, .heard (.error e) => c.at_ (.ended (.error e))
  | .attached, .probe window => { c with reading := true, lastPing := now, lastWindow := window }.at_ .turning
  | .turning, .go =>
      if c.detaches now then c.at_ (.closing (.ok ⟨0⟩))
      else if c.opts.pingInterval ≤ now - c.lastPing then c.at_ .slowing
      else c.at_ .taking
  | .slowing, .set (.ok ()) => c.opens active .pinging
  | .slowing, .set (.error e) => c.fails (.transport e)
  | .pinging, .done (.ok ()) => { c with lastPing := now }.at_ .taking
  | .pinging, .done (.error e) => c.fails e
  | .taking, .go =>
      match c.queue with
      | [] => c.at_ .probing
      | none :: queue => { c with queue, eofAt := some (c.eofAt.getD now) }.at_ .probing
      | some block :: queue =>
          if active then { c with queue }.goOn now (chunkInput block) else { c with queue }.fails .closed
  | .typing _ rest, .done (.ok ()) => c.goOn now rest
  | .typing _ _, .done (.error e) => c.fails e
  | .probing, .probe current =>
      if current = c.lastWindow then c.at_ .polling
      else
        match current with
        | some window => c.opens active (.resizing window)
        | none => { c with lastWindow := none }.at_ .polling
  | .resizing window, .done (.ok ()) => { c with lastWindow := some window }.at_ .polling
  | .resizing _, .done (.error e) => c.fails e
  | .polling, .set (.ok ()) => c.at_ .receiving
  | .polling, .set (.error e) => c.fails (.transport e)
  | .receiving, .heard (.ok (some (.output data))) => c.at_ (.delivering data)
  | .receiving, .heard (.ok (some (.exit code))) => c.at_ (.closing (.ok ⟨code⟩))
  | .receiving, .heard (.ok (some _)) => c.fails .protocol
  | .receiving, .heard (.ok none) => c.at_ .turning
  | .receiving, .heard (.error e) => c.fails e
  | .delivering data, .wrote true => { c with output := c.output ++ data }.at_ .turning
  | .delivering _, .wrote false => c.fails .io
  | .closing result, .go => c.at_ (.ended result)
  | _, _ => c

/-- The reading thread read a block; `none` is the end of the input, or an error. After the
end of `run_interactive` nobody takes what it queues, and it stops. -/
def reads (block : Option Bytes) (c : Client) : Client :=
  if c.reading then
    match c.stage, block with
    | _, none => { c with queue := c.queue ++ [none], reading := false }
    | .ended _, some block => { c with read := c.read ++ block, reading := false }
    | _, some block => { c with read := c.read ++ block, queue := c.queue ++ [some block] }
  else c

/-! ## What was read and not yet sealed -/

/-- What the thread read and the pump has not taken. -/
def queued (c : Client) : Bytes := c.queue.flatMap (·.getD [])

end Client

/-- What a client sealed, of what it read. -/
structure Types (c : Client) (frames : List TerminalFrame) : Prop where
  some_ : inputs frames <+: c.read
  all : c.stage.live = true → inputs frames ++ (c.stage.held ++ c.queued) = c.read
  /-- The first frame asks for a terminal. -/
  first : inputs (frames.take 1) = []
  asked : c.stage.live = true → c.stage.unasked = false → frames ≠ []

namespace Types

variable {c c' : Client} {frames : List TerminalFrame} {now : Nat} {active : Bool}

theorem start (opts : ClientOptions) : Types (.start opts) [] where
  some_ := List.nil_prefix
  all _ := rfl
  first := rfl
  asked _ := nofun

/-- Nothing was sealed, and the pump has what it had. -/
theorem keeps (types : Types c frames) (read : c'.read = c.read)
    (live : c'.stage.live = true → c.stage.live = true ∧ c'.stage.held ++ c'.queued = c.stage.held ++ c.queued)
    (asked : c'.stage.unasked = false → c.stage.unasked = false) : Types c' frames where
  some_ := by
    rw [read]
    exact types.some_
  all running := by
    obtain ⟨before, same⟩ := live running
    rw [read, same]
    exact types.all before
  first := types.first
  asked running past := types.asked (live running).1 (asked past)

/-- From one stage with nothing in hand to another. -/
theorem goes (types : Types c frames) (live : c.stage.live = true) (before : c.stage.held = [])
    (after : c'.stage.held = []) (asked : c'.stage.unasked = false → c.stage.unasked = false)
    (read : c'.read = c.read) (queue : c'.queue = c.queue) : Types c' frames :=
  types.keeps read (fun _ => ⟨live, by rw [before, after, Client.queued, queue, Client.queued]⟩) asked

/-- Out of the pump. -/
theorem stops (types : Types c frames) (read : c'.read = c.read) (ended : c'.stage.live = false) : Types c' frames where
  some_ := by
    rw [read]
    exact types.some_
  all running := nomatch ended.symm.trans running
  first := types.first
  asked running := nomatch ended.symm.trans running

/-- On with chunks that are what is left. -/
theorem goOn {chunks : List Bytes} (types : Types c frames) (live : c.stage.live = true)
    (past : c.stage.unasked = false) (read : c'.read = c.read)
    (left_ : chunks.flatten ++ c'.queued = c.stage.held ++ c.queued) : Types (c'.goOn now chunks) frames := by
  cases chunks with
  | nil => exact types.keeps read (fun _ => ⟨live, left_⟩) fun _ => past
  | cons chunk rest => exact types.keeps read (fun _ => ⟨live, left_⟩) fun _ => past

theorem opens {stage : ClientStage} (types : Types c frames) (live : c.stage.live = true)
    (past : c.stage.unasked = false) (before : c.stage.held = []) (after : stage.held = []) :
    Types (c.opens active stage) frames := by
  unfold Client.opens
  split
  · exact types.goes live before after (fun _ => past) rfl rfl
  · exact types.stops rfl rfl

/-- **No step but a send changes what is still to be sealed.** -/
theorem step (types : Types c frames) (act : ClientAct) (quiet : ∀ result, act ≠ .done result) :
    Types (c.step now active act) frames := by
  have goes {c' : Client} (live : c.stage.live = true) (before : c.stage.held = []) (after : c'.stage.held = [])
      (asked : c'.stage.unasked = false → c.stage.unasked = false) (read : c'.read = c.read)
      (queue : c'.queue = c.queue) : Types c' frames := types.goes live before after asked read queue
  unfold Client.step
  split
  case h_1 was => exact goes (by rw [was]; rfl) (by rw [was]; rfl) rfl nofun rfl rfl
  case h_2 => exact types.stops rfl rfl
  case h_3 => exact absurd rfl (quiet _)
  case h_4 => exact absurd rfl (quiet _)
  case h_5 was => exact goes (by rw [was]; rfl) (by rw [was]; rfl) rfl (fun _ => by rw [was]; rfl) rfl rfl
  case h_6 => exact types.stops rfl rfl
  case h_7 => exact types.stops rfl rfl
  case h_8 =>
    split
    · exact types.stops rfl rfl
    · exact types
  case h_9 => exact types.stops rfl rfl
  case h_10 was => exact goes (by rw [was]; rfl) (by rw [was]; rfl) rfl (fun _ => by rw [was]; rfl) rfl rfl
  case h_11 was =>
    split
    · exact types.stops rfl rfl
    · split
      · exact goes (by rw [was]; rfl) (by rw [was]; rfl) rfl (fun _ => by rw [was]; rfl) rfl rfl
      · exact goes (by rw [was]; rfl) (by rw [was]; rfl) rfl (fun _ => by rw [was]; rfl) rfl rfl
  case h_12 was => exact types.opens (by rw [was]; rfl) (by rw [was]; rfl) (by rw [was]; rfl) rfl
  case h_13 => exact types.stops rfl rfl
  case h_14 => exact absurd rfl (quiet _)
  case h_15 => exact absurd rfl (quiet _)
  case h_16 was =>
    have live : c.stage.live = true := by rw [was]; rfl
    have past : c.stage.unasked = false := by rw [was]; rfl
    have nothing : c.stage.held = [] := by rw [was]; rfl
    split
    · exact goes live nothing rfl (fun _ => past) rfl rfl
    · rename_i queue here
      have left_ : c.queued = (none :: queue).flatMap (·.getD []) := by rw [Client.queued, here]
      refine types.keeps rfl (fun _ => ⟨live, ?_⟩) fun _ => past
      rw [nothing, left_]
      rfl
    · rename_i block queue here
      split
      · refine types.goOn live past rfl ?_
        have left_ : c.queued = (some block :: queue).flatMap (·.getD []) := by rw [Client.queued, here]
        rw [nothing, left_, chunkInput, flatten_chunks]
        rfl
      · exact types.stops rfl rfl
  case h_17 => exact absurd rfl (quiet _)
  case h_18 => exact absurd rfl (quiet _)
  case h_19 was =>
    have live : c.stage.live = true := by rw [was]; rfl
    have past : c.stage.unasked = false := by rw [was]; rfl
    have nothing : c.stage.held = [] := by rw [was]; rfl
    split
    · exact goes live nothing rfl (fun _ => past) rfl rfl
    · split
      · exact types.opens live past nothing rfl
      · exact goes live nothing rfl (fun _ => past) rfl rfl
  case h_20 => exact absurd rfl (quiet _)
  case h_21 => exact absurd rfl (quiet _)
  case h_22 was => exact goes (by rw [was]; rfl) (by rw [was]; rfl) rfl (fun _ => by rw [was]; rfl) rfl rfl
  case h_23 => exact types.stops rfl rfl
  case h_24 was => exact goes (by rw [was]; rfl) (by rw [was]; rfl) rfl (fun _ => by rw [was]; rfl) rfl rfl
  case h_25 => exact types.stops rfl rfl
  case h_26 => exact types.stops rfl rfl
  case h_27 was => exact goes (by rw [was]; rfl) (by rw [was]; rfl) rfl (fun _ => by rw [was]; rfl) rfl rfl
  case h_28 => exact types.stops rfl rfl
  case h_29 was => exact goes (by rw [was]; rfl) (by rw [was]; rfl) rfl (fun _ => by rw [was]; rfl) rfl rfl
  case h_30 => exact types.stops rfl rfl
  case h_31 => exact types.stops rfl rfl
  case h_32 => exact types

end Types

/-! ## Sends -/

/-- The frame that is sent is the front of what the pump has in hand, and with it sent the rest
is: or the pump is over. -/
structure Client.Sends (c : Client) (f : TerminalFrame) (rest : Bytes) : Prop where
  live : c.stage.live = true
  first : c.stage.unasked = true → inputs [f] = []
  held : c.stage.held = inputs [f] ++ rest
  sent (now : Nat) (active : Bool) : (c.step now active (.done (.ok ()))).stage.held = rest
  ends (now : Nat) (active : Bool) (e : TerminalError) : (c.step now active (.done (.error e))).stage.live = false
  same (now : Nat) (active : Bool) (result : Except TerminalError Unit) :
    (c.step now active (.done result)).read = c.read ∧ (c.step now active (.done result)).queue = c.queue

theorem Client.sends_of_saying {c : Client} {f : TerminalFrame} (saying : c.saying = some f) : ∃ rest, c.Sends f rest := by
  unfold Client.saying at saying
  split at saying
  · rename_i was
    obtain rfl := Option.some.inj saying
    have nothing : inputs [c.opts.mode.first] = [] := by cases c.opts.mode <;> rfl
    refine ⟨[], by rw [was]; rfl, fun _ => nothing, by rw [was, nothing]; rfl, ?_, ?_, ?_⟩
    all_goals
      intros
      unfold Client.step
      rw [was]
    · rfl
    · rfl
    · rename_i result
      cases result <;> exact ⟨rfl, rfl⟩
  · rename_i was
    obtain rfl := Option.some.inj saying
    refine ⟨[], by rw [was]; rfl, fun _ => rfl, by rw [was]; rfl, ?_, ?_, ?_⟩
    all_goals
      intros
      unfold Client.step
      rw [was]
    · rfl
    · rfl
    · rename_i result
      cases result <;> exact ⟨rfl, rfl⟩
  · rename_i chunk rest was
    obtain rfl := Option.some.inj saying
    refine ⟨rest.flatten, by rw [was]; rfl, by rw [was]; nofun, ?_, ?_, ?_, ?_⟩
    · rw [was]
      exact congrArg (· ++ rest.flatten) (List.append_nil chunk).symm
    all_goals
      intros
      unfold Client.step
      rw [was]
    · cases rest <;> rfl
    · rfl
    · rename_i result
      cases result with
      | error e => exact ⟨rfl, rfl⟩
      | ok => cases rest <;> exact ⟨rfl, rfl⟩
  · rename_i window was
    obtain rfl := Option.some.inj saying
    refine ⟨[], by rw [was]; rfl, fun _ => rfl, by rw [was]; rfl, ?_, ?_, ?_⟩
    all_goals
      intros
      unfold Client.step
      rw [was]
    · rfl
    · rfl
    · rename_i result
      cases result <;> exact ⟨rfl, rfl⟩
  · nomatch saying

namespace Types

variable {c : Client} {frames : List TerminalFrame} {now : Nat} {active : Bool}

/-- **The frame was sealed**, whatever became of it then. -/
theorem seals (types : Types c frames) {f : TerminalFrame} (saying : c.saying = some f)
    (result : Except TerminalError Unit) : Types (c.step now active (.done result)) (frames ++ [f]) := by
  obtain ⟨rest, sends⟩ := Client.sends_of_saying saying
  obtain ⟨read, queue⟩ := sends.same now active result
  have all := types.all sends.live
  rw [sends.held, List.append_assoc, ← List.append_assoc, ← inputs_append] at all
  refine ⟨?_, ?_, ?_, fun _ _ => List.append_ne_nil_of_right_ne_nil _ (List.cons_ne_nil f [])⟩
  · rw [read, ← all]
    exact List.prefix_append ..
  · intro live
    cases result with
    | error e => nomatch (sends.ends now active e).symm.trans live
    | ok =>
        rw [sends.sent, read, Client.queued, queue]
        exact all
  · cases frames with
    | nil =>
        refine sends.first ?_
        by_contra past
        exact types.asked sends.live (Bool.eq_false_iff.mpr past) rfl
    | cons first more => exact types.first

/-- The frame was not sealed. -/
theorem refused (types : Types c frames) {f : TerminalFrame} (saying : c.saying = some f) (e : TerminalError) :
    Types (c.step now active (.done (.error e))) frames := by
  obtain ⟨rest, sends⟩ := Client.sends_of_saying saying
  exact types.stops (sends.same now active _).1 (sends.ends now active e)

/-- The thread reads more, and it is queued or lost. -/
theorem reads (types : Types c frames) (block : Option Bytes) : Types (c.reads block) frames := by
  unfold Client.reads
  split
  · split
    · exact types.keeps rfl (fun live => ⟨live, by simp [Client.queued]⟩) id
    · rename_i was
      refine ⟨types.some_.trans (List.prefix_append ..), ?_, types.first, types.asked⟩
      intro live
      rw [show c.stage.live = false by rw [was]; rfl] at live
      nomatch live
    · rename_i block _
      refine ⟨types.some_.trans (List.prefix_append ..), ?_, types.first, types.asked⟩
      intro live
      have all := types.all live
      have more : (c.queue ++ [some block]).flatMap (·.getD []) = c.queued ++ block := by
        simp [Client.queued]
      show inputs frames ++ (c.stage.held ++ (c.queue ++ [some block]).flatMap (·.getD [])) = c.read ++ block
      rw [more, ← all]
      simp only [List.append_assoc]
  · exact types

/-- What was sealed after the first frame is what was sealed as input. -/
theorem inputs_tail (types : Types c frames) : inputs frames.tail = inputs frames := by
  cases frames with
  | nil => rfl
  | cons first more =>
      have nothing : inputs [first] = [] := types.first
      show inputs more = inputs ([first] ++ more)
      rw [inputs_append, nothing, List.nil_append]

end Types

end Jbuu.Terminal
