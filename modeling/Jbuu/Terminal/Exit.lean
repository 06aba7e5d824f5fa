/-
# Terminal.Exit — whether the output is all there before the Exit

A drain stops at a full chunk, the status is asked for afterwards, and the child runs next to
both. So the Exit may go out over what a drain left, or over what was written since
(`late_output_is_lost`). And a drain between slices whose send fails keeps `pending`, though
part of it may have gone out: the drain of the turn sends it again, or, after the end of the
output, never.

What went out, what is still to go out and what is unread is what the terminal has given out
since the lease was granted (`Delivers.flows`). Where the exit is only seen with nothing
unread, and a send between slices fails only with all of `pending` still to go, the Exit comes
after all output (`output_precedes_exit`).
-/
import Jbuu.Terminal.Drains

namespace Jbuu.Terminal

set_option autoImplicit false

open Jbuu.Library.BigEndian (Bytes)
open Jbuu.Library

/-- The data of the Output frames. -/
def outputs (sent : List TerminalFrame) : Bytes :=
  sent.flatMap fun f => match f with
    | .output data => data
    | _ => []

def TerminalFrame.isExit : TerminalFrame → Bool
  | .exit _ => true
  | _ => false

@[simp] theorem outputs_append (sent more : List TerminalFrame) :
    outputs (sent ++ more) = outputs sent ++ outputs more := List.flatMap_append ..

namespace Drive

/-- What was read and has not gone out. -/
def unsent (c : Drive) : Bytes :=
  match c.stage with
  | .sending chunk rest _ => chunk ++ rest.flatten
  | _ => c.pending

end Drive

/-! ## The condition -/

/-- Nothing is unread when the connection sees the exit, and a send between slices fails
before anything of `pending` went out. -/
def Drive.Complete (c : Drive) (act : DriveAct) (h : PtyHub) : Prop :=
  match c.stage, act with
  | .polling true, .waited ok => (h.pty.exit.isSome || h.pty.child.isSome && ok) = true → h.pty.output = []
  | .sending chunk rest (some _), .done (.error _) => c.ptyEof = false ∧ chunk ++ rest.flatten = c.pending
  | _, _ => True

/-- A read of the other connection's takes nothing. -/
def Drive.Spares (c : Drive) (act : DriveAct) (h : PtyHub) : Prop :=
  match c.stage, act with
  | .draining _, .read (some _) => h.pty.output = []
  | _, _ => True

/-- Until the connection has seen the exit, its own steps are complete, and no other reads
its terminal. -/
def Whole (k : Nat) (w : World) : WorldEvent → Prop
  | .conn j act => ∀ c ∈ w.conns[k]?, c.stage.holds = true → c.exit = none → ∀ h ∈ w.hub c.handle,
      ∀ other ∈ w.conns[j]?, if j = k then c.Complete act h else other.handle = c.handle → other.Spares act h
  | _ => True

instance (c : Drive) (act : DriveAct) (h : PtyHub) : Decidable (c.Complete act h) := by
  unfold Drive.Complete
  split <;> infer_instance

instance (c : Drive) (act : DriveAct) (h : PtyHub) : Decidable (c.Spares act h) := by
  unfold Drive.Spares
  split <;> infer_instance

instance (k : Nat) (w : World) : DecidablePred (Whole k w)
  | .conn _ _ => inferInstanceAs (Decidable (∀ c ∈ _, _))
  | .connect | .pass _ | .emit _ _ | .hangUp _ | .exits _ _ => inferInstanceAs (Decidable True)

/-! ## Stages -/

namespace DriveStage

/-- The Exit may yet be sent. -/
def relays : DriveStage → Bool
  | .leaving => false
  | .failing _ => false
  | stage => stage.holds

/-- In the loop, in no drain. -/
def tidy : DriveStage → Bool
  | .draining _ => false
  | .sending _ _ _ => false
  | stage => stage.relays

theorem holds_of_relays {stage : DriveStage} (relays : stage.relays = true) : stage.holds = true := by
  cases stage <;> first | exact relays | rfl

end DriveStage

namespace Drive

/-- A stage that the loop goes on to, from no drain and to no send. -/
structure Plain (c : Drive) (stage : DriveStage) : Prop where
  sending : ∀ chunk rest next, stage ≠ .sending chunk rest next
  exiting : ∀ status, stage ≠ .exiting status
  draining : ∀ next, stage = .draining next → c.ptyEof = false
  polling : ∀ second, stage = .polling second → c.exit = none

variable {c : Drive}

theorem plain_again : Plain c c.again := by
  unfold again
  split <;> exact ⟨nofun, nofun, nofun, nofun⟩

theorem plain_check : Plain c c.check := by
  unfold check
  split
  · exact ⟨nofun, nofun, nofun, nofun⟩
  · exact plain_again

theorem plain_grace : Plain c c.grace := by
  unfold grace
  split
  · exact ⟨nofun, nofun, nofun, nofun⟩
  · exact plain_check

theorem plain_turn : Plain c c.turn := by
  unfold turn
  split
  · rename_i running
    exact ⟨nofun, nofun, nofun, fun _ _ => running⟩
  · exact plain_grace

theorem plain_drainTurn : Plain c c.drainTurn := by
  unfold drainTurn
  split
  · exact plain_turn
  · rename_i more
    exact ⟨nofun, nofun, fun _ _ => by simpa using more, nofun⟩

theorem plain_goOn (slices : List Bytes) : Plain c (c.goOn slices) := by
  cases slices with
  | nil => exact plain_drainTurn
  | cons slice rest => exact ⟨nofun, nofun, nofun, nofun⟩

theorem plain_drainBetween (rest : List Bytes) : Plain c (c.drainBetween rest) := by
  unfold drainBetween
  split
  · exact plain_goOn rest
  · rename_i more
    exact ⟨nofun, nofun, fun _ _ => by simpa using more, nofun⟩

theorem plain_drained (next : Option (List Bytes)) : Plain c (c.drained next) := by
  cases next with
  | none => exact plain_turn
  | some rest => exact plain_goOn rest

end Drive

/-! ## One connection -/

/-- Of what a terminal has given out since the lease was granted, what a connection has sent. -/
structure Delivers (c : Drive) (h : PtyHub) : Prop where
  base : c.base ≤ h.pty.emitted.length
  /-- what went out before an Exit, and the child has ended -/
  told : ∀ pre code post, c.sent = pre ++ .exit code :: post →
    outputs pre = h.pty.emitted.drop c.base ∧ h.pty.child.isSome = true
  flows : c.stage.relays = true → c.exit = none →
    outputs c.sent ++ (c.unsent ++ h.pty.output) = h.pty.emitted.drop c.base ∧
      ∀ f ∈ c.sent, f.isExit = false
  tidy : c.stage.tidy = true → c.exit = none → c.pending = []
  draining : ∀ next, c.stage = .draining next → c.ptyEof = false
  polling : ∀ second, c.stage = .polling second → c.exit = none
  exiting : ∀ status, c.stage = .exiting status → c.exit ≠ none ∧
    outputs c.sent = h.pty.emitted.drop c.base ∧ h.pty.child.isSome = true ∧ ∀ f ∈ c.sent, f.isExit = false

namespace Delivers

variable {c c' : Drive} {h h' : PtyHub}

/-- What a step that sends nothing leaves of a connection. -/
structure Keeps (c' c : Drive) : Prop where
  sent : c'.sent = c.sent
  base : c'.base = c.base
  exit : c'.exit = c.exit
  pending : c'.pending = c.pending

theorem Keeps.rfl_ (c : Drive) : Keeps c c := ⟨rfl, rfl, rfl, rfl⟩

/-- The terminal has given out no more, and its child is as it was. -/
structure Still (h' h : PtyHub) : Prop where
  emitted : h'.pty.emitted = h.pty.emitted
  child : h'.pty.child = h.pty.child

theorem Still.rfl_ (h : PtyHub) : Still h h := ⟨rfl, rfl⟩

/-- What went out before an Exit is not changed by another frame. -/
theorem told_sends {sent pre post : List TerminalFrame} {f : TerminalFrame} {code : Int32}
    (other : f.isExit = false) (split : sent ++ [f] = pre ++ .exit code :: post) :
    ∃ post', sent = pre ++ .exit code :: post' := by
  rcases List.eq_nil_or_concat post with rfl | ⟨post', last, rfl⟩
  · obtain ⟨-, same⟩ := List.append_inj' split rfl
    rw [(List.cons.inj same).1] at other
    nomatch other
  · refine ⟨post', ?_⟩
    have split : sent ++ [f] = (pre ++ .exit code :: post') ++ [last] := by simpa using split
    exact (List.append_inj' split rfl).1

theorem no_exit {sent pre post : List TerminalFrame} {code : Int32} (none_ : ∀ f ∈ sent, f.isExit = false)
    (split : sent = pre ++ .exit code :: post) : False := by
  have exit := none_ (.exit code) (by rw [split]; exact List.mem_append_right _ List.mem_cons_self)
  nomatch exit

theorem relays_of_tidy {stage : DriveStage} (tidy : stage.tidy = true) : stage.relays = true := by
  cases stage <;> first | exact tidy | rfl

/-- On to a stage of the loop, or out of it. -/
theorem of_plain {stage : DriveStage} (base : c.base ≤ h.pty.emitted.length)
    (told : ∀ pre code post, c.sent = pre ++ .exit code :: post →
      outputs pre = h.pty.emitted.drop c.base ∧ h.pty.child.isSome = true)
    (flows : stage.relays = true → c.exit = none →
      outputs c.sent ++ (c.pending ++ h.pty.output) = h.pty.emitted.drop c.base ∧
        ∀ f ∈ c.sent, f.isExit = false)
    (tidy : stage.tidy = true → c.exit = none → c.pending = []) (plain : Drive.Plain c stage) :
    Delivers (c.at_ stage) h := by
  refine ⟨base, told, ?_, tidy, plain.draining, plain.polling, fun status was => absurd was (plain.exiting status)⟩
  intro relays running
  have unsent : (c.at_ stage).unsent = c.pending := by
    unfold Drive.unsent
    split
    · rename_i chunk rest next was
      exact absurd was (plain.sending chunk rest next)
    · rfl
  rw [unsent]
  exact flows relays running

/-- A step within the loop that reads nothing and sends nothing. -/
theorem on {stage : DriveStage} (delivers : Delivers c h) (was : c.stage.tidy = true) (keeps : Keeps c' c)
    (still : Still h' h) (output : h'.pty.output = h.pty.output) (plain : Drive.Plain c' stage) :
    Delivers (c'.at_ stage) h' := by
  have unsent : c.unsent = c.pending := by
    unfold Drive.unsent
    split
    · rename_i at_
      rw [at_] at was
      nomatch was
    · rfl
  refine of_plain ?_ ?_ ?_ ?_ plain
  · rw [still.emitted, keeps.base]
    exact delivers.base
  · rw [keeps.sent, still.emitted, still.child, keeps.base]
    exact delivers.told
  · intro _ running
    rw [keeps.exit] at running
    rw [keeps.sent, keeps.pending, keeps.base, still.emitted, output, ← unsent]
    exact delivers.flows (relays_of_tidy was) running
  · intro _ running
    rw [keeps.exit] at running
    rw [keeps.pending]
    exact delivers.tidy was running

/-- A step out of the loop, or outside of it. -/
theorem off {stage : DriveStage} (delivers : Delivers c h) (keeps : Keeps c' c) (still : Still h' h)
    (gone : stage.relays = false) (plain : Drive.Plain c' stage) : Delivers (c'.at_ stage) h' := by
  refine of_plain ?_ ?_ ?_ ?_ plain
  · rw [still.emitted, keeps.base]
    exact delivers.base
  · rw [keeps.sent, still.emitted, still.child, keeps.base]
    exact delivers.told
  · intro relays
    rw [gone] at relays
    nomatch relays
  · intro tidy
    rw [relays_of_tidy tidy] at gone
    nomatch gone

/-- What is pending goes out, or there is nothing. -/
theorem flush (base : c.base ≤ h.pty.emitted.length)
    (told : ∀ pre code post, c.sent = pre ++ .exit code :: post →
      outputs pre = h.pty.emitted.drop c.base ∧ h.pty.child.isSome = true)
    (flows : c.exit = none → outputs c.sent ++ (c.pending ++ h.pty.output) = h.pty.emitted.drop c.base ∧
      ∀ f ∈ c.sent, f.isExit = false)
    (next : Option (List Bytes)) : Delivers (c.goes (Drive.flush next)) h := by
  have whole : (chunkInput c.pending).flatten = c.pending := flatten_chunks _ _
  unfold Drive.goes Drive.flush
  split
  · rename_i empty
    rw [empty, List.flatten_nil] at whole
    exact of_plain base told (fun _ => flows) (fun _ _ => whole.symm) (Drive.plain_drained next)
  · rename_i chunk rest cut
    rw [cut, List.flatten_cons] at whole
    refine ⟨base, told, ?_, nofun, nofun, nofun, nofun⟩
    intro _ running
    show outputs c.sent ++ ((chunk ++ rest.flatten) ++ h.pty.output) = _ ∧ _
    rw [whole]
    exact flows running

/-- A frame that is neither Output nor Exit. -/
theorem sends_quiet (delivers : Delivers c h) {f : TerminalFrame} (other : f.isExit = false)
    (silent : outputs [f] = []) : Delivers (c.sends f) h := by
  have unsent : (c.sends f).unsent = c.unsent := rfl
  have same : outputs (c.sends f).sent = outputs c.sent := by
    show outputs (c.sent ++ [f]) = _
    rw [outputs_append, silent, List.append_nil]
  have exits : (∀ g ∈ c.sent, g.isExit = false) → ∀ g ∈ (c.sends f).sent, g.isExit = false := by
    intro none_ g mem
    rcases List.mem_append.mp mem with old | new
    · exact none_ g old
    · rw [List.mem_singleton.mp new]
      exact other
  refine ⟨delivers.base, ?_, ?_, delivers.tidy, delivers.draining, delivers.polling, ?_⟩
  · intro pre code post split
    obtain ⟨post', split'⟩ := told_sends other split
    exact delivers.told pre code post' split'
  · intro relays running
    obtain ⟨flow, none_⟩ := delivers.flows relays running
    rw [unsent, same]
    exact ⟨flow, exits none_⟩
  · intro status was
    obtain ⟨seen, out, ended, none_⟩ := delivers.exiting status was
    rw [same]
    exact ⟨seen, out, ended, exits none_⟩

/-- A read of more. -/
theorem reads {now : Nat} (delivers : Delivers c h) {next : Option (List Bytes)} {n : Nat} {bytes : Bytes}
    (was : c.stage = .draining next) (out : (h.drainOutput n).1 = .data bytes) :
    Delivers (if dataChunkMax ≤ (c.pending ++ bytes).length
        then { c with pending := c.pending ++ bytes }.goes (Drive.flush next)
        else { c with pending := c.pending ++ bytes })
      ((h.drainOutput n).2.noteDrain now c.token (.data bytes)) := by
  have out : (h.pty.readTimeout n).1 = .data bytes := out
  obtain ⟨rest, whole, same⟩ : ∃ rest, h.pty.output = bytes ++ rest ∧
      (h.pty.readTimeout n).2 = { h.pty with output := rest } := by
    rcases h.pty.readTimeout_cases n with ⟨-, same⟩ | ⟨bytes', rest, -, whole, same⟩
    · rw [same] at out
      dsimp only at out
      split at out <;> nomatch out
    · rw [same] at out
      obtain rfl := PtyRead.data.inj out
      exact ⟨rest, whole, by rw [same]⟩
  have pty : ((h.drainOutput n).2.noteDrain now c.token (.data bytes)).pty.output = rest ∧
      ((h.drainOutput n).2.noteDrain now c.token (.data bytes)).pty.emitted = h.pty.emitted ∧
      ((h.drainOutput n).2.noteDrain now c.token (.data bytes)).pty.child = h.pty.child := by
    show (h.pty.readTimeout n).2.output = rest ∧ (h.pty.readTimeout n).2.emitted = h.pty.emitted ∧
      (h.pty.readTimeout n).2.child = h.pty.child
    rw [same]
    exact ⟨rfl, rfl, rfl⟩
  generalize (h.drainOutput n).2.noteDrain now c.token (.data bytes) = h' at pty
  obtain ⟨output, emitted, child⟩ := pty
  have base : c.base ≤ h'.pty.emitted.length := by
    rw [emitted]
    exact delivers.base
  have told : ∀ pre code post, c.sent = pre ++ .exit code :: post →
      outputs pre = h'.pty.emitted.drop c.base ∧ h'.pty.child.isSome = true := by
    rw [emitted, child]
    exact delivers.told
  have flows : c.exit = none → outputs c.sent ++ ((c.pending ++ bytes) ++ h'.pty.output) =
      h'.pty.emitted.drop c.base ∧ ∀ f ∈ c.sent, f.isExit = false := by
    intro running
    obtain ⟨flow, none_⟩ := delivers.flows (by rw [was]; rfl) running
    have unsent : c.unsent = c.pending := by rw [Drive.unsent, was]
    rw [unsent, whole] at flow
    rw [output, emitted, List.append_assoc]
    exact ⟨flow, none_⟩
  split
  · exact @flush { c with pending := c.pending ++ bytes } h' base told flows next
  · have plain : Drive.Plain { c with pending := c.pending ++ bytes } c.stage := by
      rw [was]
      exact ⟨nofun, nofun, fun _ _ => delivers.draining next was, nofun⟩
    have untidy : c.stage.tidy = true → c.exit = none → c.pending ++ bytes = [] := by
      rw [was]
      nofun
    exact @of_plain { c with pending := c.pending ++ bytes } h' c.stage base told (fun _ => flows) untidy plain

/-- A chunk goes out. -/
theorem sends_chunk (delivers : Delivers c h) {chunk : Bytes} {rest : List Bytes} {next : Option (List Bytes)}
    (was : c.stage = .sending chunk rest next) :
    (∀ pre code post, c.sent ++ [.output chunk] = pre ++ .exit code :: post →
      outputs pre = h.pty.emitted.drop c.base ∧ h.pty.child.isSome = true) ∧
    (c.exit = none → outputs (c.sent ++ [.output chunk]) ++ (rest.flatten ++ h.pty.output) =
      h.pty.emitted.drop c.base ∧ ∀ f ∈ c.sent ++ [.output chunk], f.isExit = false) := by
  constructor
  · intro pre code post split
    obtain ⟨post', split'⟩ := told_sends rfl split
    exact delivers.told pre code post' split'
  · intro running
    obtain ⟨flow, none_⟩ := delivers.flows (by rw [was]; rfl) running
    have unsent : c.unsent = chunk ++ rest.flatten := by rw [Drive.unsent, was]
    have out : outputs [.output chunk] = chunk := List.append_nil _
    rw [unsent] at flow
    rw [outputs_append, out]
    refine ⟨by simpa using flow, ?_⟩
    intro f mem
    rcases List.mem_append.mp mem with old | new
    · exact none_ f old
    · rw [List.mem_singleton.mp new]
      rfl

/-- **What one step of the connection delivers.** -/
theorem moves {opts : ServeOptions} {now : Nat} {act : DriveAct} {out : Drive × PtyHub}
    (delivers : Delivers c h) (late : c.stage.early = false) (complete : c.exit = none → c.Complete act h)
    (proper : h.pty.exit.isSome = true → h.pty.child.isSome = true)
    (moves : Drive.Moves opts now act c h out) : Delivers out.1 out.2 := by
  have keeps := Keeps.rfl_ c
  have still := Still.rfl_ h
  cases moves with
  | stays => exact delivers
  | panics was => rw [was] at late; nomatch late
  | busy denied was => rw [was] at late; nomatch late
  | granted grant was => rw [was] at late; nomatch late
  | announces was =>
      have sent := delivers.sends_quiet (f := .granted c.handle c.token.get) rfl rfl
      refine sent.on (by rw [Drive.sends, was]; rfl) (.rfl_ _) still rfl ⟨nofun, nofun, nofun, nofun⟩
  | fails e was => exact delivers.off keeps still rfl ⟨nofun, nofun, nofun, nofun⟩
  | aligns was => exact delivers.on (by rw [was]; rfl) keeps still rfl ⟨nofun, nofun, nofun, nofun⟩
  | receives f was => exact delivers.on (by rw [was]; rfl) ⟨rfl, rfl, rfl, rfl⟩ still rfl ⟨nofun, nofun, nofun, nofun⟩
  | idles was => exact delivers.on (by rw [was]; rfl) keeps still rfl Drive.plain_drainTurn
  | hangsUp ends was =>
      exact delivers.on (by rw [was]; rfl) ⟨rfl, rfl, rfl, rfl⟩ still rfl ⟨nofun, nofun, nofun, nofun⟩
  | beats f was =>
      have tidy : c.stage.tidy = true := by rw [was]; rfl
      have on {c' : Drive} {stage : DriveStage} (keeps : Keeps c' c) (plain : Drive.Plain c' stage) :
          Delivers (c'.at_ stage) (h.heartbeat now c.token).2 :=
        delivers.on tidy keeps ⟨rfl, rfl⟩ rfl plain
      refine c.handles_cases (p := fun c' => Delivers c' (h.heartbeat now c.token).2) _ f ?_ ?_ ?_ ?_
      · exact fun data _ _ => on keeps (Drive.plain_goOn (Drive.slices data))
      · exact fun _ _ _ => on ⟨rfl, rfl, rfl, rfl⟩ ⟨nofun, nofun, nofun, nofun⟩
      · exact fun _ => on keeps Drive.plain_drainTurn
      · exact fun _ => on ⟨rfl, rfl, rfl, rfl⟩ ⟨nofun, nofun, nofun, nofun⟩
  | writes slice rest rounds was =>
      obtain ⟨output, emitted, child⟩ := h.writeInput_output now c.token slice rounds
      exact delivers.on (by rw [was]; rfl) ⟨rfl, rfl, rfl, rfl⟩ ⟨emitted, child⟩ output (Drive.plain_drainBetween rest)
  | rejected slice rest rounds ends was =>
      obtain ⟨output, emitted, child⟩ := h.writeInput_output now c.token slice rounds
      exact delivers.on (by rw [was]; rfl) ⟨rfl, rfl, rfl, rfl⟩ ⟨emitted, child⟩ output Drive.plain_drainTurn
  | resizes set was => exact delivers.on (by rw [was]; rfl) keeps still rfl Drive.plain_drainTurn
  | outdated was => exact delivers.on (by rw [was]; rfl) ⟨rfl, rfl, rfl, rfl⟩ still rfl ⟨nofun, nofun, nofun, nofun⟩
  | readFails next was =>
      cases next with
      | none => exact delivers.off ⟨rfl, rfl, rfl, rfl⟩ still rfl ⟨nofun, nofun, nofun, nofun⟩
      | some slices =>
          have more : c.ptyEof = false := delivers.draining _ was
          have unsent : c.unsent = c.pending := by rw [Drive.unsent, was]
          have stage : (c.ending (.failed .io)).drainTurn = .draining none := if_neg (by
            show ¬c.ptyEof = true
            rw [more]
            nofun)
          have plain : Drive.Plain (c.ending (.failed .io)) (c.ending (.failed .io)).drainTurn := Drive.plain_drainTurn
          refine of_plain delivers.base delivers.told ?_ ?_ plain
          · intro _ running
            have flow := delivers.flows (by rw [was]; rfl) running
            rwa [unsent] at flow
          · intro tidy
            have tidy : (c.ending (.failed .io)).drainTurn.tidy = true := tidy
            rw [stage] at tidy
            nomatch tidy
  | reads next n bytes was came out => exact delivers.reads was out
  | readsNothing next n eof was out =>
      have out : (h.pty.readTimeout n).1 = if eof then .eof else .timeout := out
      have same : (h.pty.readTimeout n).2 = h.pty := by
        rcases h.pty.readTimeout_cases n with ⟨-, same⟩ | ⟨bytes, rest, -, whole, same⟩
        · rw [same]
        · rw [same] at out
          dsimp only at out
          split at out <;> nomatch out
      have same : (h.drainOutput n).2 = h := by
        show { h with pty := (h.pty.readTimeout n).2 } = h
        rw [same]
      have unsent : c.unsent = c.pending := by rw [Drive.unsent, was]
      dsimp only
      rw [same]
      refine @flush { c with ptyEof := c.ptyEof || eof } h delivers.base delivers.told ?_ next
      intro running
      have flow := delivers.flows (by rw [was]; rfl) running
      rwa [unsent] at flow
  | sendsLast chunk next was =>
      obtain ⟨told, flows⟩ := delivers.sends_chunk was
      exact of_plain delivers.base told (fun _ => flows) (fun _ _ => rfl) (Drive.plain_drained next)
  | sendsMore chunk other rest next was =>
      obtain ⟨told, flows⟩ := delivers.sends_chunk was
      exact ⟨delivers.base, told, fun _ => flows, nofun, nofun, nofun, nofun⟩
  | sendFails chunk rest next e was came =>
      cases next with
      | none => exact delivers.off ⟨rfl, rfl, rfl, rfl⟩ still rfl ⟨nofun, nofun, nofun, nofun⟩
      | some slices =>
          -- all of `pending` is still to go, and the drain of the turn begins
          have held : c.exit = none → c.ptyEof = false ∧ chunk ++ rest.flatten = c.pending := by
            intro running
            have complete := complete running
            unfold Drive.Complete at complete
            rwa [was, came] at complete
          have plain : Drive.Plain (c.ending (.failed e)) (c.ending (.failed e)).drainTurn := Drive.plain_drainTurn
          refine of_plain delivers.base delivers.told ?_ ?_ plain
          · intro _ running
            have flow := delivers.flows (by rw [was]; rfl) running
            have unsent : c.unsent = c.pending := by
              rw [Drive.unsent, was]
              exact (held running).2
            rwa [unsent] at flow
          · intro tidy running
            have more := (held running).1
            have stage : (c.ending (.failed e)).drainTurn = .draining none := if_neg (by
              show ¬c.ptyEof = true
              rw [more]
              nofun)
            have tidy : (c.ending (.failed e)).drainTurn.tidy = true := tidy
            rw [stage] at tidy
            nomatch tidy
  | pollsRunning second ok was =>
      obtain ⟨output, emitted, child⟩ := h.pty.output_pollExit ok
      exact delivers.on (by rw [was]; rfl) keeps ⟨emitted, child⟩ output Drive.plain_grace
  | pollsFirst ok was =>
      obtain ⟨output, emitted, child⟩ := h.pty.output_pollExit ok
      refine delivers.on (by rw [was]; rfl) keeps ⟨emitted, child⟩ output ⟨nofun, nofun, nofun, ?_⟩
      exact fun _ _ => delivers.polling false was
  | pollsExit ok status was came out =>
      obtain ⟨output, emitted, child⟩ := h.pty.output_pollExit ok
      have running := delivers.polling true was
      have seen : (h.pty.exit.isSome || h.pty.child.isSome && ok) = true := h.pty.seen_of_pollExit out
      have complete := complete running
      unfold Drive.Complete at complete
      rw [was, came] at complete
      have nothing := complete seen
      have ended : h.pty.child.isSome = true := by
        rcases Bool.or_eq_true_iff.mp seen with exited | both
        · exact proper exited
        · exact (Bool.and_eq_true_iff.mp both).1
      obtain ⟨flow, none_⟩ := delivers.flows (by rw [was]; rfl) running
      have pending := delivers.tidy (by rw [was]; rfl) running
      have unsent : c.unsent = c.pending := by rw [Drive.unsent, was]
      rw [unsent, pending, nothing, List.append_nil, List.append_nil] at flow
      have emitted : (h.pollExit ok).2.pty.emitted = h.pty.emitted := emitted
      have child : (h.pollExit ok).2.pty.child = h.pty.child := child
      refine ⟨?_, ?_, nofun, nofun, nofun, nofun, ?_⟩
      · rw [emitted]
        exact delivers.base
      · rw [emitted, child]
        exact delivers.told
      · intro _ _
        rw [emitted, child]
        exact ⟨nofun, flow, ended, none_⟩
  | exits status was =>
      obtain ⟨seen, out, ended, none_⟩ := delivers.exiting status was
      refine ⟨delivers.base, ?_, fun _ running => absurd running seen, fun _ running => absurd running seen,
        nofun, nofun, nofun⟩
      intro pre code post split
      have split : c.sent ++ [.exit status.code] = pre ++ .exit code :: post := split
      -- it is the first Exit
      rcases List.eq_nil_or_concat post with rfl | ⟨post', last, rfl⟩
      · obtain ⟨same, -⟩ := List.append_inj' split rfl
        rw [← same]
        exact ⟨out, ended⟩
      · have split : c.sent ++ [.exit status.code] = (pre ++ .exit code :: post') ++ [last] := by simpa using split
        exact (no_exit none_ (List.append_inj' split rfl).1).elim
  | graceOver ends was =>
      exact delivers.on (by rw [was]; rfl) ⟨rfl, rfl, rfl, rfl⟩ still rfl ⟨nofun, nofun, nofun, nofun⟩
  | graceGoes was => exact delivers.on (by rw [was]; rfl) keeps still rfl Drive.plain_check
  | checks was => exact delivers.on (by rw [was]; rfl) keeps still rfl Drive.plain_again
  | lapses was => exact delivers.on (by rw [was]; rfl) keeps still rfl ⟨nofun, nofun, nofun, nofun⟩
  | judged ends was => exact delivers.on (by rw [was]; rfl) ⟨rfl, rfl, rfl, rfl⟩ still rfl ⟨nofun, nofun, nofun, nofun⟩
  | leaves was => exact delivers.off keeps ⟨rfl, rfl⟩ rfl ⟨nofun, nofun, nofun, nofun⟩
  | retires was =>
      refine delivers.off keeps still ?_ ?_
      · split <;> rfl
      · split <;> exact ⟨nofun, nofun, nofun, nofun⟩
  | returns e was => exact delivers.off keeps ⟨rfl, rfl⟩ rfl ⟨nofun, nofun, nofun, nofun⟩

end Delivers

/-! ## The terminal's side -/

namespace Delivers

variable {c : Drive} {h h' : PtyHub}

/-- What the terminal does on its own, or with another connection that takes nothing. -/
theorem beside (delivers : Delivers c h) (still : Still h' h)
    (output : c.stage.relays = true → c.exit = none → h'.pty.output = h.pty.output) : Delivers c h' := by
  refine ⟨?_, ?_, ?_, delivers.tidy, delivers.draining, delivers.polling, ?_⟩
  · rw [still.emitted]
    exact delivers.base
  · rw [still.emitted, still.child]
    exact delivers.told
  · intro relays running
    rw [still.emitted, output relays running]
    exact delivers.flows relays running
  · rw [still.emitted, still.child]
    exact delivers.exiting

/-- The child writes. -/
theorem emit (delivers : Delivers c h) (bytes : Bytes) : Delivers c { h with pty := h.pty.emit bytes } := by
  unfold Pty.emit
  split
  · rename_i runs
    have alive : h.pty.child.isSome = false := by rw [runs.1]; rfl
    have longer : (h.pty.emitted ++ bytes).drop c.base = h.pty.emitted.drop c.base ++ bytes :=
      List.drop_append_of_le_length delivers.base
    refine ⟨?_, ?_, ?_, delivers.tidy, delivers.draining, delivers.polling, ?_⟩
    · show c.base ≤ (h.pty.emitted ++ bytes).length
      rw [List.length_append]
      exact delivers.base.trans (Nat.le_add_right ..)
    · -- after an Exit there is no child to write
      intro pre code post split
      have ended := (delivers.told pre code post split).2
      rw [alive] at ended
      nomatch ended
    · intro relays running
      obtain ⟨flow, none_⟩ := delivers.flows relays running
      refine ⟨?_, none_⟩
      show outputs c.sent ++ (c.unsent ++ (h.pty.output ++ bytes)) = (h.pty.emitted ++ bytes).drop c.base
      rw [longer, ← flow]
      simp only [List.append_assoc]
    · intro status was
      have ended := (delivers.exiting status was).2.2.1
      rw [alive] at ended
      nomatch ended
  · exact delivers

theorem ends (delivers : Delivers c h) (status : ChildEnd) :
    Delivers c { h with pty := h.pty.ends status } := by
  unfold Pty.ends
  split
  · rename_i alive
    have alive : h.pty.child.isSome = false := by rw [alive]; rfl
    refine ⟨delivers.base, ?_, delivers.flows, delivers.tidy, delivers.draining, delivers.polling, ?_⟩
    · intro pre code post split
      exact ⟨(delivers.told pre code post split).1, rfl⟩
    · intro status' was
      obtain ⟨seen, out, -, none_⟩ := delivers.exiting status' was
      exact ⟨seen, out, rfl, none_⟩
  · exact delivers

end Delivers

/-- There is nothing to complete without a grant. -/
theorem Drive.complete_of_not_holds {c : Drive} (none_ : c.stage.holds = false) (act : DriveAct) (h : PtyHub) :
    c.Complete act h := by
  unfold Complete
  split
  · rename_i was
    rw [was] at none_
    nomatch none_
  · rename_i was
    rw [was] at none_
    nomatch none_
  · trivial

/-- A step of another connection takes nothing but what it reads. -/
theorem Drive.Moves.spares {opts : ServeOptions} {now : Nat} {act : DriveAct} {c : Drive} {h : PtyHub}
    {out : Drive × PtyHub} (moves : Moves opts now act c h out) :
    Delivers.Still out.2 h ∧ (c.Spares act h → out.2.pty.output = h.pty.output) := by
  have still := Delivers.Still.rfl_ h
  have same {h' : PtyHub} (pty : h'.pty = h.pty) :
      Delivers.Still h' h ∧ (c.Spares act h → h'.pty.output = h.pty.output) :=
    ⟨⟨by rw [pty], by rw [pty]⟩, fun _ => by rw [pty]⟩
  cases moves with
  | panics => exact same (PtyHub.acquire_pty _)
  | busy => exact same (PtyHub.acquire_pty _)
  | granted => exact same (PtyHub.acquire_pty _)
  | writes slice rest rounds =>
      obtain ⟨output, emitted, child⟩ := h.writeInput_output now c.token slice rounds
      exact ⟨⟨emitted, child⟩, fun _ => output⟩
  | rejected slice rest rounds =>
      obtain ⟨output, emitted, child⟩ := h.writeInput_output now c.token slice rounds
      exact ⟨⟨emitted, child⟩, fun _ => output⟩
  | reads next n bytes was came out =>
      show Delivers.Still ⟨h.lease, { (h.pty.readTimeout n).2 with drains := _ }, h.granted⟩ h ∧ (_ →
        (h.pty.readTimeout n).2.output = h.pty.output)
      rcases h.pty.readTimeout_cases n with ⟨-, same⟩ | ⟨bytes', rest, some_, whole, same⟩
      · rw [same]
        exact ⟨⟨rfl, rfl⟩, fun _ => rfl⟩
      · rw [same]
        refine ⟨⟨rfl, rfl⟩, fun spares => ?_⟩
        unfold Spares at spares
        rw [was, came] at spares
        rw [show h.pty.output = [] from spares] at whole
        exact absurd (List.append_eq_nil_iff.mp whole.symm).1 some_
  | readsNothing next n eof was out =>
      have out : (h.pty.readTimeout n).1 = if eof then .eof else .timeout := out
      rcases h.pty.readTimeout_cases n with ⟨-, nothing⟩ | ⟨bytes, rest, -, -, nothing⟩
      · exact same (by rw [show (h.drainOutput n).2.pty = (h.pty.readTimeout n).2 from rfl, nothing])
      · rw [nothing] at out
        dsimp only at out
        split at out <;> nomatch out
  | pollsRunning second ok =>
      obtain ⟨output, emitted, child⟩ := h.pty.output_pollExit ok
      exact ⟨⟨emitted, child⟩, fun _ => output⟩
  | pollsFirst ok =>
      obtain ⟨output, emitted, child⟩ := h.pty.output_pollExit ok
      exact ⟨⟨emitted, child⟩, fun _ => output⟩
  | pollsExit ok =>
      obtain ⟨output, emitted, child⟩ := h.pty.output_pollExit ok
      exact ⟨⟨emitted, child⟩, fun _ => output⟩
  | _ => exact ⟨⟨rfl, rfl⟩, fun _ => rfl⟩

/-- An exit that was observed is the child's. -/
theorem World.exit_of_child :
    World.HubInvariant fun h => h.pty.exit.isSome = true → h.pty.child.isSome = true where
  new timeout now h made := by
    obtain ⟨lease, -, rfl⟩ := Option.map_eq_some_iff.mp made
    nofun
  moved opts now act c h out moves proper := by
    have seen : ∀ ok, (h.pty.pollExit ok).2.exit.isSome = true → (h.pty.pollExit ok).2.child.isSome = true := by
      intro ok
      unfold Pty.pollExit
      split
      · exact proper
      · split
        · rename_i ended
          rw [ended]
          exact fun _ => rfl
        · exact proper
    cases moves with
    | panics => rwa [PtyHub.acquire_pty]
    | busy => rwa [PtyHub.acquire_pty]
    | granted => rwa [PtyHub.acquire_pty]
    | writes slice rest rounds =>
        rcases h.writeInput_cases now c.token slice rounds with ⟨-, same⟩ | ⟨-, same⟩ | ⟨-, same⟩ <;>
          rw [same] <;> exact proper
    | rejected slice rest rounds =>
        rcases h.writeInput_cases now c.token slice rounds with ⟨-, same⟩ | ⟨-, same⟩ | ⟨-, same⟩ <;>
          rw [same] <;> exact proper
    | reads next n =>
        show (h.pty.readTimeout n).2.exit.isSome = true → (h.pty.readTimeout n).2.child.isSome = true
        rcases h.pty.readTimeout_cases n with ⟨-, same⟩ | ⟨_, _, -, -, same⟩ <;> rw [same] <;> exact proper
    | readsNothing next n =>
        show (h.pty.readTimeout n).2.exit.isSome = true → (h.pty.readTimeout n).2.child.isSome = true
        rcases h.pty.readTimeout_cases n with ⟨-, same⟩ | ⟨_, _, -, -, same⟩ <;> rw [same] <;> exact proper
    | pollsRunning second ok => exact seen ok
    | pollsFirst ok => exact seen ok
    | pollsExit ok => exact seen ok
    | _ => exact proper
  emits h bytes proper := by
    unfold Pty.emit
    split <;> exact proper
  hangsUp _ := id
  ends h status proper := by
    unfold Pty.ends
    split
    · exact fun _ => rfl
    · exact proper

/-! ## All connections -/

namespace World

/-- The connection `k` delivers what its terminal gives out. -/
structure Delivering (k : Nat) (w : World) : Prop where
  leased : Leased w
  accounted : ∀ handle h, w.hub handle = some h → h.pty.Accounted
  proper : ∀ handle h, w.hub handle = some h → h.pty.exit.isSome = true → h.pty.child.isSome = true
  early : ∀ c, w.conns[k]? = some c → c.stage.early = true → c.sent = [] ∧ c.exit = none ∧ c.pending = []
  silent : ∀ c, w.conns[k]? = some c → c.token = ⟨0⟩ → ∀ f ∈ c.sent, f.isExit = false
  delivers : ∀ c, w.conns[k]? = some c → c.token ≠ ⟨0⟩ → ∀ h, w.hub c.handle = some h → Delivers c h

namespace Delivering

variable {w : World} {k j : Nat} {c : Drive} {act : DriveAct}

theorem start (opts : ServeOptions) (leaseTimeout : Nat) : Delivering k (.start opts leaseTimeout) where
  leased := .start opts leaseTimeout
  accounted _ _ here := nomatch here
  proper _ _ here := nomatch here
  early _ here := absurd (List.mem_of_getElem? here) List.not_mem_nil
  silent _ here := absurd (List.mem_of_getElem? here) List.not_mem_nil
  delivers _ here := absurd (List.mem_of_getElem? here) List.not_mem_nil

/-- A grant: nothing has gone out, and what is unread is what will be given out from now. -/
theorem grants {now : Nat} {h : PtyHub} (accounted : h.pty.Accounted) (sent : c.sent = [])
    (pending : c.pending = []) (token : FencingToken) :
    Delivers ({ c with token, base := h.pty.emitted.length - h.pty.output.length }.at_ .granting)
      (h.acquire now c.conn).2 := by
  have pty : (h.acquire now c.conn).2.pty = h.pty := PtyHub.acquire_pty _
  have accounted : h.pty.drains.flatMap (fun d : Drain => d.bytes) ++ h.pty.output = h.pty.emitted := accounted
  have unread : h.pty.emitted.drop (h.pty.emitted.length - h.pty.output.length) = h.pty.output := by
    rw [← accounted, List.length_append, Nat.add_sub_cancel, List.drop_left]
  refine ⟨?_, ?_, ?_, fun _ _ => pending, nofun, nofun, nofun⟩
  · rw [pty]
    exact Nat.sub_le ..
  · intro pre code post split
    have split : c.sent = pre ++ .exit code :: post := split
    rw [sent] at split
    simp at split
  · intro _ _
    rw [pty]
    show outputs c.sent ++ (c.pending ++ h.pty.output) = _ ∧ ∀ f ∈ c.sent, f.isExit = false
    rw [sent, pending]
    exact ⟨unread.symm, nofun⟩

/-- The connection's own step. -/
theorem own (delivering : Delivering k w) (here : w.conns[k]? = some c) {w' : World}
    (complete : ∀ h, w.hub c.handle = some h → c.stage.holds = true → c.exit = none → c.Complete act h)
    (leased : Leased w') (accounted : ∀ handle h, w'.hub handle = some h → h.pty.Accounted)
    (proper : ∀ handle h, w'.hub handle = some h → h.pty.exit.isSome = true → h.pty.child.isSome = true)
    (moves : ConnMoves w k c act w') : Delivering k w' := by
  have inside := (List.getElem?_eq_some_iff.mp here).1
  have mem := List.mem_of_getElem? here
  -- the connection that is there after the step
  have self : ∀ (c' c'' : Drive), (w.conns.set k c')[k]? = some c'' → c'' = c' := by
    intro c' c'' there
    rw [List.getElem?_set_self inside] at there
    exact (Option.some.inj there).symm
  cases moves with
  | stays => exact delivering
  | early registry c' was next token quiet same =>
      have zero := token.trans (delivering.leased.early c mem was)
      obtain ⟨sent, running, pending⟩ := delivering.early c here was
      refine ⟨leased, accounted, proper, ?_, ?_, ?_⟩
      · intro c'' there before
        obtain rfl := self c' c'' there
        rcases same.sent with sent' | ⟨late, -⟩
        · exact ⟨sent'.trans sent, same.exit.trans running, same.pending.trans pending⟩
        · rw [late] at before
          nomatch before
      · intro c'' there _
        obtain rfl := self c' c'' there
        rcases same.sent with sent' | ⟨-, reason, sent'⟩
        · rw [sent', sent]
          nofun
        · rw [sent', sent]
          intro f in_
          rw [List.mem_singleton.mp in_]
          rfl
      · intro c'' there some_
        obtain rfl := self c' c'' there
        exact absurd zero some_
  | opens registry h was next made =>
      have zero := delivering.leased.early c mem (by rw [was]; rfl)
      obtain ⟨sent, running, pending⟩ := delivering.early c here (by rw [was]; rfl)
      refine ⟨leased, accounted, proper, ?_, ?_, ?_⟩
      · intro c'' there _
        obtain rfl := self _ c'' there
        exact ⟨sent, running, pending⟩
      · intro c'' there _
        obtain rfl := self _ c'' there
        show ∀ f ∈ c.sent, f.isExit = false
        rw [sent]
        nofun
      · intro c'' there some_
        obtain rfl := self _ c'' there
        exact absurd zero some_
  | drives h out hub moves =>
      have at_ : ∀ h', ((w.setHub c.handle out.2).setConn k out.1).hub out.1.handle = some h' → h' = out.2 := by
        intro h' there
        have there : Function.update w.hub c.handle (some out.2) out.1.handle = some h' := there
        rw [moves.handle, Function.update_self] at there
        exact (Option.some.inj there).symm
      have tokens := moves.tokens
      refine ⟨leased, accounted, proper, ?_, ?_, ?_⟩
      · intro c'' there before
        obtain rfl := self _ c'' there
        cases tokens with
        | kept out token granted holds early =>
            have before : c.stage.early = true := early before
            obtain ⟨sent, running, pending⟩ := delivering.early c here before
            have none_ : c.stage.holds = false := by
              by_contra held
              rw [@DriveStage.early_of_holds c.stage (by simpa using held)] at before
              nomatch before
            obtain ⟨sent', running', pending', -⟩ := moves.quiet none_
            exact ⟨sent'.trans sent, running'.trans running, pending'.trans pending⟩
        | granted grant was acquired => nomatch before
      · intro c'' there zero
        obtain rfl := self _ c'' there
        cases tokens with
        | kept out token granted holds early =>
            rw [token] at zero
            have none_ : c.stage.holds = false := by
              by_contra held
              exact delivering.leased.holds c mem (by simpa using held) zero
            rw [(moves.quiet none_).1]
            exact delivering.silent c here zero
        | granted grant was acquired =>
            have fenced := delivering.leased.fenced _ h hub
            exact absurd zero (PtyHub.acquire_granted fenced acquired).2.2.2.1
      · intro c'' there some_ h' there'
        obtain rfl := self _ c'' there
        obtain rfl := at_ h' there'
        cases tokens with
        | kept out token granted holds early =>
            rw [token] at some_
            have late : c.stage.early = false := by
              by_contra before
              exact some_ (delivering.leased.early c mem (by simpa using before))
            have complete' : c.exit = none → c.Complete act h := by
              intro running
              cases held : c.stage.holds with
              | true => exact complete h hub held running
              | false => exact Drive.complete_of_not_holds held act h
            exact (delivering.delivers c here some_ h hub).moves late complete' (delivering.proper _ h hub) moves
        | granted grant was acquired =>
            obtain ⟨sent, -, pending⟩ := delivering.early c here (by rw [was]; rfl)
            exact grants (delivering.accounted _ h hub) sent pending grant.token
  | delists registry was next =>
      refine ⟨leased, accounted, proper, ?_, ?_, ?_⟩
      · intro c'' there before
        obtain rfl := self _ c'' there
        nomatch before
      · intro c'' there zero
        obtain rfl := self _ c'' there
        exact delivering.silent c here zero
      · intro c'' there some_ h hub
        obtain rfl := self _ c'' there
        exact (delivering.delivers c here some_ h hub).off (.rfl_ c) (.rfl_ h) rfl ⟨nofun, nofun, nofun, nofun⟩

/-- A step that leaves the connection alone, and of its terminal what it delivers. -/
theorem apart (delivering : Delivering k w) {w' : World} (leased : Leased w')
    (accounted : ∀ handle h, w'.hub handle = some h → h.pty.Accounted)
    (proper : ∀ handle h, w'.hub handle = some h → h.pty.exit.isSome = true → h.pty.child.isSome = true)
    (conns : ∀ c, w'.conns[k]? = some c → w.conns[k]? = some c ∨ c = Drive.start c.conn)
    (hubs : ∀ c, w.conns[k]? = some c → c.token ≠ ⟨0⟩ → ∀ h', w'.hub c.handle = some h' →
      ∃ h, w.hub c.handle = some h ∧ (Delivers c h → Delivers c h')) : Delivering k w' := by
  refine ⟨leased, accounted, proper, ?_, ?_, ?_⟩
  · intro c there before
    rcases conns c there with here | new
    · exact delivering.early c here before
    · rw [new]
      exact ⟨rfl, rfl, rfl⟩
  · intro c there zero
    rcases conns c there with here | new
    · exact delivering.silent c here zero
    · rw [new]
      nofun
  · intro c there some_ h' hub'
    rcases conns c there with here | new
    · obtain ⟨h, hub, keeps⟩ := hubs c here some_ h' hub'
      exact keeps (delivering.delivers c here some_ h hub)
    · rw [new] at some_
      exact absurd rfl some_

/-- A step of another connection. -/
theorem other (delivering : Delivering k w) (ne : j ≠ k) {d : Drive} {w' : World}
    (spares : ∀ c, w.conns[k]? = some c → c.stage.holds = true → c.exit = none → d.handle = c.handle →
      ∀ h, w.hub c.handle = some h → d.Spares act h)
    (leased : Leased w') (accounted : ∀ handle h, w'.hub handle = some h → h.pty.Accounted)
    (proper : ∀ handle h, w'.hub handle = some h → h.pty.exit.isSome = true → h.pty.child.isSome = true)
    (moves : ConnMoves w j d act w') : Delivering k w' := by
  have alone : ∀ d' (c : Drive), (w.conns.set j d')[k]? = some c →
      w.conns[k]? = some c ∨ c = Drive.start c.conn := by
    intro d' c there
    rw [List.getElem?_set_ne ne] at there
    exact .inl there
  cases moves with
  | stays => exact delivering
  | early registry c' =>
      exact delivering.apart leased accounted proper (alone c') fun _ _ _ h' hub => ⟨h', hub, id⟩
  | opens registry h was next made =>
      refine delivering.apart leased accounted proper (alone _) fun c here some_ h' hub' => ?_
      obtain ⟨g, hub, -⟩ := delivering.leased.known c (List.mem_of_getElem? here) some_
      have below := delivering.leased.below _ g hub
      have old : c.handle ≠ w.registry.nextHandle := by
        intro same
        rw [same] at below
        omega
      have hub' : Function.update w.hub w.registry.nextHandle (some h) c.handle = some h' := hub'
      rw [Function.update_of_ne old] at hub'
      exact ⟨h', hub', id⟩
  | drives h out hub moves =>
      refine delivering.apart leased accounted proper (alone _) fun c here some_ h' hub' => ?_
      have hub' : Function.update w.hub d.handle (some out.2) c.handle = some h' := hub'
      by_cases same : c.handle = d.handle
      · rw [same, Function.update_self] at hub'
        obtain rfl := Option.some.inj hub'
        obtain ⟨still, output⟩ := moves.spares
        refine ⟨h, by rw [same]; exact hub, fun delivers => delivers.beside still fun relays running => ?_⟩
        have held : c.stage.holds = true := DriveStage.holds_of_relays relays
        exact output (spares c here held running same.symm h (by rw [same]; exact hub))
      · rw [Function.update_of_ne same] at hub'
        exact ⟨h', hub', id⟩
  | delists registry =>
      exact delivering.apart leased accounted proper (alone _) fun _ _ _ h' hub => ⟨h', hub, id⟩

/-- What the terminal does on its own. -/
theorem onPty (delivering : Delivering k w) (handle : UInt64) {f : Pty → Pty}
    (leased : Leased (w.onPty handle f))
    (accounted : ∀ handle' h, (w.onPty handle f).hub handle' = some h → h.pty.Accounted)
    (proper : ∀ handle' h, (w.onPty handle f).hub handle' = some h → h.pty.exit.isSome = true →
      h.pty.child.isSome = true)
    (keeps : ∀ (c : Drive) h, Delivers c h → Delivers c { h with pty := f h.pty }) :
    Delivering k (w.onPty handle f) := by
  unfold World.onPty at *
  cases here : w.hub handle with
  | none => exact delivering
  | some h =>
      rw [here] at leased accounted proper
      refine delivering.apart leased accounted proper (fun _ => .inl) fun c _ _ h' hub' => ?_
      have hub' : Function.update w.hub handle (some { h with pty := f h.pty }) c.handle = some h' := hub'
      by_cases same : c.handle = handle
      · rw [same, Function.update_self] at hub'
        obtain rfl := Option.some.inj hub'
        exact ⟨h, by rw [same]; exact here, keeps c h⟩
      · rw [Function.update_of_ne same] at hub'
        exact ⟨h', hub', id⟩

/-- A whole step keeps it. -/
theorem step (delivering : Delivering k w) (event : WorldEvent) (whole : Whole k w event) :
    Delivering k (World.step event w) := by
  have leased := delivering.leased.step event
  have accounted := World.accounted.step event w delivering.accounted
  have proper := World.exit_of_child.step event w delivering.proper
  cases event with
  | connect =>
      refine delivering.apart leased accounted proper (fun c there => ?_) fun _ _ _ h' hub => ⟨h', hub, id⟩
      have there : (w.conns ++ [Drive.start (w.registry.connCounter + 1)])[k]? = some c := there
      rcases Nat.lt_or_ge k w.conns.length with inside | outside
      · rw [List.getElem?_append_left inside] at there
        exact .inl there
      · rw [List.getElem?_append_right outside] at there
        rw [List.mem_singleton.mp (List.mem_of_getElem? there)]
        exact .inr rfl
  | pass time =>
      exact delivering.apart leased accounted proper (fun _ => .inl) fun _ _ _ h' hub => ⟨h', hub, id⟩
  | emit handle bytes =>
      exact delivering.onPty handle leased accounted proper fun c h delivers => delivers.emit bytes
  | hangUp handle =>
      refine delivering.onPty handle leased accounted proper fun c h delivers => ?_
      exact delivers.beside ⟨rfl, rfl⟩ fun _ _ => rfl
  | exits handle status =>
      exact delivering.onPty handle leased accounted proper fun c h delivers => delivers.ends status
  | conn j act =>
      unfold Whole at whole
      unfold World.step at leased accounted proper ⊢
      dsimp only at leased accounted proper ⊢
      cases there : w.conns[j]? with
      | none => exact delivering
      | some d =>
          rw [there] at leased accounted proper
          dsimp only at whole
          rw [there] at whole
          dsimp only at leased accounted proper ⊢
          by_cases same : j = k
          · subst same
            refine delivering.own there (fun h hub held running => ?_) leased accounted proper
              (w.connStep_moves j d act)
            have complete := whole d there held running h hub d rfl
            rwa [if_pos rfl] at complete
          · refine delivering.other same (fun c here held running handle h hub => ?_) leased accounted proper
              (w.connStep_moves j d act)
            have spares := whole c here held running h hub d rfl
            rw [if_neg same] at spares
            exact spares handle

end Delivering

end World

/-- **All output precedes the Exit**, in every run in which the connection sees the exit with
nothing unread, no send of its fails between slices with part of `pending` gone, and no other
connection reads its terminal meanwhile: what it sent before the Exit is what its terminal
gave out from what was unread at the grant. -/
theorem output_precedes_exit (opts : ServeOptions) (leaseTimeout : Nat) (events : List WorldEvent) (k : Nat)
    (whole : Along World.step (Whole k) events (.start opts leaseTimeout)) :
    ∀ c, (run World.step events (.start opts leaseTimeout)).conns[k]? = some c →
      ∀ pre code post, c.sent = pre ++ .exit code :: post →
        ∃ h, (run World.step events (.start opts leaseTimeout)).hub c.handle = some h ∧
          outputs pre = h.pty.emitted.drop c.base := by
  intro c here pre code post split
  have delivering : World.Delivering k (run World.step events (.start opts leaseTimeout)) :=
    run_invariant_along World.step (fun event _ whole delivering => delivering.step event whole)
      events whole (.start opts leaseTimeout)
  have granted : c.token ≠ ⟨0⟩ := by
    intro zero
    exact Delivers.no_exit (delivering.silent c here zero) split
  obtain ⟨h, hub, -⟩ := delivering.leased.known c (List.mem_of_getElem? here) granted
  exact ⟨h, hub, ((delivering.delivers c here granted h hub).told pre code post split).1⟩

/-- The child writes and ends, all of it goes out, and then the exit is seen. -/
def exiting : List WorldEvent :=
  opened ++ [.emit 1 [104, 105], .conn 0 (.recv .timeout), .conn 0 (.read (some 9)), .exits 1 (.exited 3),
    .conn 0 (.read (some 9)), .conn 0 (.done (.ok ())), .conn 0 (.waited true), .conn 0 (.waited true),
    .conn 0 (.done (.ok ()))]

theorem output_precedes_exit_one :
    ∃ c h, (run World.step exiting (.start briefly 10)).conns[0]? = some c ∧
      c.sent = [.granted 1 1, .output [104, 105]] ++ [.exit 3] ∧
      (run World.step exiting (.start briefly 10)).hub c.handle = some h ∧
      outputs [.granted 1 1, .output [104, 105]] = h.pty.emitted.drop c.base := by
  have sent : (run World.step exiting (.start briefly 10)).conns[0]?.map (·.sent) =
      some ([.granted 1 1, .output [104, 105]] ++ [.exit 3]) := by decide +kernel
  obtain ⟨c, here, sent⟩ := Option.map_eq_some_iff.mp sent
  obtain ⟨h, hub, same⟩ :=
    output_precedes_exit briefly 10 exiting 0 (by decide +kernel) c here [.granted 1 1, .output [104, 105]] 3 [] sent
  exact ⟨c, h, here, sent, hub, same⟩

/-- After the drain found nothing and before the status is asked for, the child writes its
last and ends: the Exit goes out, and what was written does not. -/
theorem late_output_is_lost :
    let w := run World.step (opened ++ [.conn 0 (.recv .timeout), .conn 0 (.read (some 9)),
      .emit 1 [104, 105], .exits 1 (.exited 3), .conn 0 (.waited true), .conn 0 (.waited true),
      .conn 0 (.done (.ok ()))]) (.start briefly 10)
    w.conns.map (fun c => (c.base, c.sent)) = [(0, [.granted 1 1, .exit 3])] ∧
      (w.hub 1).map (fun h => (h.pty.emitted, h.lease.inner.token)) = some ([104, 105], 1) := by
  decide +kernel

end Jbuu.Terminal
