/-
# Terminal.Retire — the handle after the exit

A connection that sees the exit sends it, waits out the grace period, drops its grant and then
takes the handle off the registry. Until it has done so the handle is there, and whoever
attaches is denied only as long as the lease is current: a lease that lapses in the grace
period, or the grant that is dropped just before, gives a terminal that has exited to the
next one (`exited_terminal_is_granted`). And a send of the Exit that fails returns past the
retirement.

Where the lease of a terminal is current whenever somebody asks for it after the exit is
known, and no send of an Exit fails, neither happens (`handles_are_retired`).
-/
import Jbuu.Terminal.Exit

namespace Jbuu.Terminal

set_option autoImplicit false

open Jbuu.Library
open LeaseWorld (Fenced)

/-! ## The condition -/

/-- The send of an Exit does not fail, and after the exit the lease is asked for only while
somebody has it. -/
def Drive.Retirable (c : Drive) (act : DriveAct) (now : Nat) (h : PtyHub) : Prop :=
  match c.stage, act with
  | .exiting _, .done (.error _) => False
  | .acquiring, .go => h.pty.exit.isSome = true → h.Current now ⟨h.lease.inner.token⟩
  | _, _ => True

def Retirable (w : World) : WorldEvent → Prop
  | .conn k act => ∀ c ∈ w.conns[k]?, ∀ h ∈ w.hub c.handle, c.Retirable act w.clock h
  | _ => True

instance (c : Drive) (act : DriveAct) (now : Nat) (h : PtyHub) : Decidable (c.Retirable act now h) :=
  decidable_of_bool
    (match c.stage, act with
      | .exiting _, .done (.error _) => false
      | .acquiring, .go => Decidable.decide (h.pty.exit.isSome = true → h.Current now ⟨h.lease.inner.token⟩)
      | _, _ => true)
    (by unfold Drive.Retirable; split <;> simp only [Bool.false_eq_true, decide_eq_true_eq])

instance (w : World) : DecidablePred (Retirable w)
  | .conn _ _ => inferInstanceAs (Decidable (∀ c ∈ _, _))
  | .connect | .pass _ | .emit _ _ | .hangUp _ | .exits _ _ => inferInstanceAs (Decidable True)

/-! ## The exit that is known -/

/-- An exit stays known. -/
theorem Drive.Moves.exit_mono {opts : ServeOptions} {now : Nat} {act : DriveAct} {c : Drive} {h : PtyHub}
    {out : Drive × PtyHub} (moves : Moves opts now act c h out) (known : h.pty.exit.isSome = true) :
    out.2.pty.exit.isSome = true := by
  have polls (ok : Bool) : (h.pty.pollExit ok).2.exit.isSome = true := by
    unfold Pty.pollExit
    split
    · exact known
    · rename_i none_
      rw [none_] at known
      nomatch known
  have reads (n : Nat) : (h.pty.readTimeout n).2.exit.isSome = true := by
    rcases h.pty.readTimeout_cases n with ⟨-, same⟩ | ⟨_, _, -, -, same⟩ <;> rw [same] <;> exact known
  have writes (slice : Library.BigEndian.Bytes) (rounds : List WriteRound) :
      (h.writeInput now c.token slice rounds).2.pty.exit.isSome = true := by
    rcases h.writeInput_cases now c.token slice rounds with ⟨-, same⟩ | ⟨-, same⟩ | ⟨-, same⟩ <;>
      rw [same] <;> exact known
  cases moves with
  | panics => rwa [PtyHub.acquire_pty]
  | busy => rwa [PtyHub.acquire_pty]
  | granted => rwa [PtyHub.acquire_pty]
  | writes slice rest rounds => exact writes slice rounds
  | rejected slice rest rounds => exact writes slice rounds
  | reads next n => exact reads n
  | readsNothing next n => exact reads n
  | pollsRunning second ok => exact polls ok
  | pollsFirst ok => exact polls ok
  | pollsExit ok => exact polls ok
  | _ => exact known

theorem Pty.exit_of_pollExit {waited : Bool} {p : Pty} {status : ExitStatus}
    (out : (p.pollExit waited).1 = some status) : (p.pollExit waited).2.exit.isSome = true := by
  unfold Pty.pollExit at *
  split at out
  · rename_i known
    rw [known]
    rfl
  · split at out
    · rfl
    · nomatch out

theorem Drive.plain_drainFailed {c : Drive} (next : Option (List Library.BigEndian.Bytes)) :
    Plain c (c.drainFailed next) := by
  cases next with
  | none => exact ⟨nofun, nofun, nofun, nofun⟩
  | some rest => exact plain_drainTurn

theorem Drive.exiting_flush {c : Drive} {next : Option (List Library.BigEndian.Bytes)} (status : ExitStatus) :
    c.flush next ≠ .exiting status := by
  unfold flush
  split
  · exact (plain_drained next).exiting status
  · nofun

/-- What a connection knows of the exit, and what it said of it. -/
structure SawExit (c : Drive) (h : PtyHub) : Prop where
  known : c.exit ≠ none → h.pty.exit.isSome = true
  told : ∀ code, .exit code ∈ c.sent → c.exit ≠ none
  exiting : ∀ status, c.stage = .exiting status → c.exit ≠ none

namespace SawExit

variable {c c' : Drive} {h h' : PtyHub}

theorem on {stage : DriveStage} (saw : SawExit c h) (exit : c'.exit = c.exit)
    (sent : ∀ code, .exit code ∈ c'.sent → .exit code ∈ c.sent)
    (mono : h.pty.exit.isSome = true → h'.pty.exit.isSome = true) (plain : ∀ status, stage ≠ .exiting status) :
    SawExit (c'.at_ stage) h' := by
  refine ⟨?_, ?_, fun status was => absurd was (plain status)⟩
  · show c'.exit ≠ none → _
    rw [exit]
    exact fun some_ => mono (saw.known some_)
  · intro code mem
    show c'.exit ≠ none
    rw [exit]
    exact saw.told code (sent code mem)

theorem beside (saw : SawExit c h) (mono : h.pty.exit.isSome = true → h'.pty.exit.isSome = true) : SawExit c h' :=
  ⟨fun some_ => mono (saw.known some_), saw.told, saw.exiting⟩

/-- What is not an Exit adds none. -/
theorem of_sends {f : TerminalFrame} (other : f.isExit = false) (code : Int32)
    (mem : .exit code ∈ (c.sends f).sent) : .exit code ∈ c.sent := by
  rcases List.mem_append.mp mem with old | new
  · exact old
  · rw [← List.mem_singleton.mp new] at other
    nomatch other

theorem moves {opts : ServeOptions} {now : Nat} {act : DriveAct} {out : Drive × PtyHub} (saw : SawExit c h)
    (moves : Drive.Moves opts now act c h out) : SawExit out.1 out.2 := by
  have mono := moves.exit_mono
  have quiet {c' : Drive} {stage : DriveStage} (exit : c'.exit = c.exit) (sent : c'.sent = c.sent)
      (plain : ∀ status, stage ≠ .exiting status) : SawExit (c'.at_ stage) out.2 :=
    saw.on exit (fun code mem => sent ▸ mem) mono plain
  cases moves with
  | stays => exact saw
  | panics => exact quiet rfl rfl nofun
  | busy => exact quiet rfl rfl nofun
  | granted => exact quiet rfl rfl nofun
  | announces => exact saw.on rfl (of_sends rfl) mono nofun
  | fails => exact quiet rfl rfl nofun
  | aligns => exact quiet rfl rfl nofun
  | receives f => exact @quiet { c with frames := c.frames ++ [f] } _ rfl rfl nofun
  | idles => exact quiet rfl rfl Drive.plain_drainTurn.exiting
  | hangsUp => exact quiet rfl rfl nofun
  | beats f =>
      refine c.handles_cases (p := fun c' => SawExit c' (h.heartbeat now c.token).2) _ f ?_ ?_ ?_ ?_
      · exact fun data _ _ => quiet rfl rfl (Drive.plain_goOn (Drive.slices data)).exiting
      · exact fun rows cols _ => @quiet { c with window := ⟨rows, cols⟩ } _ rfl rfl nofun
      · exact fun _ => quiet rfl rfl Drive.plain_drainTurn.exiting
      · exact fun ends => @quiet (c.ending ends) _ rfl rfl nofun
  | writes slice rest => exact quiet rfl rfl (Drive.plain_drainBetween rest).exiting
  | rejected => exact quiet rfl rfl Drive.plain_drainTurn.exiting
  | resizes => exact quiet rfl rfl Drive.plain_drainTurn.exiting
  | outdated => exact quiet rfl rfl nofun
  | readFails next => exact quiet rfl rfl (Drive.plain_drainFailed next).exiting
  | reads next n bytes was =>
      dsimp only
      split
      · exact @quiet { c with pending := c.pending ++ bytes } _ rfl rfl Drive.exiting_flush
      · exact @quiet { c with pending := c.pending ++ bytes } c.stage rfl rfl (by rw [was]; nofun)
  | readsNothing next n eof => exact @quiet { c with ptyEof := c.ptyEof || eof } _ rfl rfl Drive.exiting_flush
  | sendsLast chunk next => exact saw.on rfl (of_sends rfl) mono (Drive.plain_drained next).exiting
  | sendsMore => exact saw.on rfl (of_sends rfl) mono nofun
  | sendFails chunk rest next => exact quiet rfl rfl (Drive.plain_drainFailed next).exiting
  | pollsRunning => exact quiet rfl rfl Drive.plain_grace.exiting
  | pollsFirst => exact quiet rfl rfl nofun
  | pollsExit ok status was came out =>
      have known : (h.pollExit ok).2.pty.exit.isSome = true := Pty.exit_of_pollExit out
      exact ⟨fun _ => known, fun _ _ => nofun, fun _ _ => nofun⟩
  | exits status was =>
      have some_ := saw.exiting status was
      exact ⟨saw.known, fun _ _ => some_, nofun⟩
  | graceOver => exact quiet rfl rfl nofun
  | graceGoes => exact quiet rfl rfl Drive.plain_check.exiting
  | checks => exact quiet rfl rfl Drive.plain_again.exiting
  | lapses => exact quiet rfl rfl nofun
  | judged => exact quiet rfl rfl nofun
  | leaves => exact quiet rfl rfl nofun
  | retires => exact quiet rfl rfl (by split <;> nofun)
  | returns => exact quiet rfl rfl nofun

end SawExit

theorem World.sawExit : World.ConnInvariant SawExit where
  granted now c h grant fenced fresh acquired := by
    refine ⟨fun some_ => absurd fresh.exit some_, fun code mem => ?_, nofun⟩
    have mem : .exit code ∈ c.sent := mem
    rw [fresh.sent] at mem
    nomatch mem
  moved opts now act c h out moves late saw := saw.moves moves
  beside opts now act c d h out moves other saw := saw.beside moves.exit_mono
  delisted c h result was saw := saw.on rfl (fun _ => id) id nofun
  emits c h bytes saw := by
    refine saw.beside fun known => ?_
    unfold Pty.emit
    split <;> exact known
  hangsUp c h saw := saw.beside id
  ends c h status saw := by
    refine saw.beside fun known => ?_
    unfold Pty.ends
    split <;> exact known

/-! ## The registry -/

/-- The connection is on its way to the retirement. -/
def DriveStage.retires : DriveStage → Bool
  | .granting => false
  | .failing _ => false
  | .retiring => true
  | .delisting => true
  | stage => stage.holds

theorem DriveStage.Loop.retires {stage : DriveStage} (loop : stage.Loop) : stage.retires = true := by
  cases loop <;> rfl

namespace Drive

variable {opts : ServeOptions} {now : Nat} {act : DriveAct} {c : Drive} {h : PtyHub} {out : Drive × PtyHub}

/-- The Exit of a connection goes out, or it is not yet sent. -/
theorem onHub_exiting {status : ExitStatus} (was : c.stage = .exiting status) (retirable : c.Retirable act now h) :
    (c.onHub opts now act h).1.stage.retires = true := by
  unfold Drive.Retirable at retirable
  rw [was] at retirable
  unfold onHub
  rw [was]
  cases act with
  | done result =>
      cases result with
      | ok => rfl
      | error e => exact retirable.elim
  | _ =>
      show c.stage.retires = true
      rw [was]
      rfl

/-- The lease is asked for in one way. -/
theorem onHub_acquiring (was : c.stage = .acquiring) (other : act ≠ .go) : c.onHub opts now act h = (c, h) := by
  unfold onHub
  rw [was]
  cases act with
  | go => exact absurd rfl other
  | _ => rfl

/-- A connection that knows the exit goes on to the retirement. -/
theorem keeps_retiring (opts : ServeOptions) (retirable : c.Retirable act now h) (saw : SawExit c h)
    (known : (c.onHub opts now act h).1.exit ≠ none) (going : c.exit ≠ none → c.stage.retires = true) :
    (c.onHub opts now act h).1.stage.retires = true := by
  by_cases exiting : ∃ status, c.stage = .exiting status
  · obtain ⟨status, was⟩ := exiting
    exact onHub_exiting was retirable
  have moves := c.onHub_moves opts now act h
  generalize c.onHub opts now act h = out at known moves
  cases moves with
  | stays => exact going known
  | panics was => nomatch (was ▸ going known : DriveStage.acquiring.retires = true)
  | busy denied was => nomatch (was ▸ going known : DriveStage.acquiring.retires = true)
  | granted grant was => nomatch (was ▸ going known : DriveStage.acquiring.retires = true)
  | announces was => rfl
  | fails e was =>
      rcases was with was | was
      · nomatch (was ▸ going known : DriveStage.granting.retires = true)
      · exact absurd was exiting
  | aligns was => rfl
  | receives f was => rfl
  | idles was => exact loop_drainTurn.retires
  | hangsUp ends was => rfl
  | beats f was =>
      refine c.handles_cases (p := fun c' => c'.stage.retires = true) _ f ?_ ?_ ?_ ?_
      · exact fun data _ _ => (loop_goOn (slices data)).retires
      · exact fun _ _ _ => rfl
      · exact fun _ => loop_drainTurn.retires
      · exact fun _ => rfl
  | writes slice rest => exact (loop_drainBetween rest).retires
  | rejected => exact loop_drainTurn.retires
  | resizes => exact loop_drainTurn.retires
  | outdated => rfl
  | readFails next => exact (loop_drainFailed next).retires
  | reads next n bytes was =>
      dsimp only
      split
      · exact (loop_flush next).retires
      · show c.stage.retires = true
        rw [was]
        rfl
  | readsNothing next => exact (loop_flush next).retires
  | sendsLast chunk next => exact (loop_drained next).retires
  | sendsMore => rfl
  | sendFails chunk rest next => exact (loop_drainFailed next).retires
  | pollsRunning => exact loop_grace.retires
  | pollsFirst => rfl
  | pollsExit => rfl
  | exits => rfl
  | graceOver => rfl
  | graceGoes => exact loop_check.retires
  | checks => exact loop_again.retires
  | lapses => rfl
  | judged => rfl
  | leaves => rfl
  | retires was =>
      have exited : h.hasExited = true := saw.known known
      rw [if_pos exited]
      rfl
  | returns e was => nomatch (was ▸ going known : (DriveStage.failing e).retires = true)

end Drive

namespace World

variable {w : World} {k : Nat} {c : Drive} {act : DriveAct}

/-- A handle on the registry is an old one, or the one that was just made. -/
theorem connStep_hubs (w : World) (k : Nat) (c : Drive) (act : DriveAct) :
    ∀ handle ∈ (w.connStep k c act).registry.hubs, handle ∈ w.registry.hubs ∨ handle = w.registry.nextHandle := by
  intro handle
  unfold connStep
  split
  case h_8 =>
    unfold open_
    cases next : checkedAdd w.registry.nextHandle 1 with
    | none => exact .inl
    | some nextHandle =>
        dsimp only
        split
        · split
          · exact .inl
          · intro mem
            exact (List.mem_append.mp mem).imp_right List.mem_singleton.mp
        · exact .inl
  case h_12 => exact fun mem => .inl (List.mem_filter.mp mem).1
  all_goals
    try split
    all_goals exact .inl

/-- The handle is off the registry once its connection is past the retirement. -/
theorem connStep_delists (was : c.stage = .delisting) :
    (w.connStep k c act).conns = w.conns ∨ (w.connStep k c act).conns = w.conns.set k c ∨
      (w.connStep k c act).conns = w.conns.set k (c.at_ (.ended (.ok c.summary))) ∧
        c.handle ∉ (w.connStep k c act).registry.hubs := by
  unfold connStep
  rw [was]
  cases act with
  | go =>
      refine .inr (.inr ⟨rfl, fun mem => ?_⟩)
      have apart := (List.mem_filter.mp mem).2
      rw [decide_eq_true_eq] at apart
      exact apart rfl
  | _ =>
      cases w.hub c.handle with
      | none => exact .inl rfl
      | some h =>
          refine .inr (.inl ?_)
          show w.conns.set k (c.onHub _ _ _ h).1 = _
          unfold Drive.onHub
          rw [was]

/-- A connection that knows the exit is on its way to the retirement, or the handle is off the
registry already. -/
structure Retired (w : World) : Prop where
  keeping : Keeping SawExit w
  settled : ∀ c ∈ w.conns, c.exit ≠ none → c.stage.retires = true ∨ c.handle ∉ w.registry.hubs

namespace Retired

theorem start (opts : ServeOptions) (leaseTimeout : Nat) : Retired (.start opts leaseTimeout) where
  keeping := ConnInvariant.start opts leaseTimeout
  settled _ mem := absurd mem List.not_mem_nil

variable {d : Drive}

theorem granted (retired : Retired w) (mem : c ∈ w.conns) (known : c.exit ≠ none) : c.token ≠ ⟨0⟩ :=
  fun zero => known (retired.keeping.unheard c mem zero).exit

/-- A handle with a connection that knows its exit is not made again. -/
theorem off (retired : Retired w) (mem : c ∈ w.conns) (known : c.exit ≠ none)
    (off : c.handle ∉ w.registry.hubs) : c.handle ∉ (w.connStep k d act).registry.hubs := by
  intro on_
  rcases w.connStep_hubs k d act c.handle on_ with old | new
  · exact off old
  · obtain ⟨h, hub, -⟩ := retired.keeping.leased.known c mem (retired.granted mem known)
    have below := retired.keeping.leased.below _ h hub
    rw [new] at below
    exact absurd below (Nat.lt_irrefl _)

/-- What a step on the terminal leaves. -/
theorem drives (retired : Retired w) (mem : c ∈ w.conns) {h : PtyHub} (hub : w.hub c.handle = some h)
    (retirable : c.Retirable act w.clock h) (known : (c.onHub w.opts w.clock act h).1.exit ≠ none) :
    (c.onHub w.opts w.clock act h).1.stage.retires = true ∨ c.exit ≠ none ∧ c.handle ∉ w.registry.hubs := by
  have held : c.token ≠ ⟨0⟩ := by
    intro zero
    have idle : c.stage.holds = false := by
      by_contra held
      exact retired.keeping.leased.holds c mem (by simpa using held) zero
    rw [((c.onHub_moves w.opts w.clock act h).quiet idle).2.1] at known
    exact retired.granted mem known zero
  have saw := retired.keeping.keeps c mem held h hub
  by_cases before : c.exit = none
  · exact .inl (Drive.keeps_retiring w.opts retirable saw known fun some_ => absurd before some_)
  · rcases retired.settled c mem before with retires | off
    · exact .inl (Drive.keeps_retiring w.opts retirable saw known fun _ => retires)
    · exact .inr ⟨before, off⟩

theorem conn (retired : Retired w) (here : w.conns[k]? = some c)
    (retirable : ∀ h ∈ w.hub c.handle, c.Retirable act w.clock h) : Retired (w.connStep k c act) := by
  have mem := List.mem_of_getElem? here
  have moves := w.connStep_moves k c act
  refine ⟨World.sawExit.conn retired.keeping here moves, ?_⟩
  have old : ∀ c' ∈ w.conns, c'.exit ≠ none →
      c'.stage.retires = true ∨ c'.handle ∉ (w.connStep k c act).registry.hubs :=
    fun c' mem' known => (retired.settled c' mem' known).imp_right (retired.off mem' known)
  -- the others are where they were
  have one : ∀ c', (w.connStep k c act).conns = w.conns.set k c' →
      (c'.exit ≠ none → c'.stage.retires = true ∨ c'.handle ∉ (w.connStep k c act).registry.hubs) →
      ∀ c'' ∈ (w.connStep k c act).conns, c''.exit ≠ none →
        c''.stage.retires = true ∨ c''.handle ∉ (w.connStep k c act).registry.hubs := by
    intro c' conns own c'' mem''
    rw [conns] at mem''
    rcases List.mem_or_eq_of_mem_set mem'' with before | rfl
    · exact old c'' before
    · exact own
  by_cases delisting : c.stage = .delisting
  · rcases @connStep_delists w k c act delisting with same | same | ⟨conns, off⟩
    · rw [same]
      exact old
    · exact one c same (old c mem)
    · exact one _ conns fun _ => .inr off
  · have off := fun known => @retired.off w k c act c mem known
    generalize w.connStep k c act = w' at *
    cases moves with
    | stays => exact retired.settled
    | early registry c' was next token quiet same =>
        refine one c' rfl fun known => ?_
        rw [same.exit, (retired.keeping.fresh c mem was).exit] at known
        exact absurd rfl known
    | opens registry h was next made =>
        refine one _ rfl fun known => ?_
        exact absurd (retired.keeping.fresh c mem (by rw [was]; rfl)).exit known
    | drives h out hub moves same =>
        refine one _ rfl fun known => ?_
        subst same
        rw [moves.handle]
        exact (retired.drives mem hub (retirable h hub) known).imp_right fun ⟨before, gone⟩ => off before gone
    | delists registry was => exact absurd was delisting

theorem onPty (retired : Retired w) {handle : UInt64} {f : Pty → Pty} (keeping : Keeping SawExit (w.onPty handle f)) :
    Retired (w.onPty handle f) := by
  refine ⟨keeping, ?_⟩
  unfold World.onPty
  cases w.hub handle with
  | none => exact retired.settled
  | some h => exact retired.settled

theorem step (event : WorldEvent) (w : World) (retirable : Retirable w event) (retired : Retired w) :
    Retired (World.step event w) := by
  have keeping := World.sawExit.step event w retired.keeping
  cases event with
  | connect =>
      refine ⟨keeping, fun c mem known => ?_⟩
      rcases List.mem_append.mp mem with older | new
      · exact retired.settled c older known
      · rw [List.mem_singleton.mp new] at known
        exact absurd rfl known
  | pass time => exact ⟨keeping, retired.settled⟩
  | emit handle bytes => exact retired.onPty keeping
  | hangUp handle => exact retired.onPty keeping
  | exits handle status => exact retired.onPty keeping
  | conn k act =>
      unfold World.step
      dsimp only
      cases here : w.conns[k]? with
      | none => exact retired
      | some c => exact retired.conn here (retirable c here)

end Retired

/-- A terminal has exited, and whoever has a grant of it was past its Attach in `mid`. -/
structure Shut (handle : UInt64) (mid w : World) : Prop where
  leased : Leased w
  exited : ∃ h, w.hub handle = some h ∧ h.pty.exit.isSome = true
  before : ∀ (j : Nat) (d : Drive), w.conns[j]? = some d → d.handle = handle → d.token ≠ ⟨0⟩ →
    ∃ d', mid.conns[j]? = some d' ∧ d'.stage.early = false

namespace Shut

variable {handle : UInt64} {mid : World} {out : Drive × PtyHub} {h : PtyHub}

/-- Nobody is granted what has exited. -/
theorem no_grant (shut : Shut handle mid w) (hub : w.hub c.handle = some h) (same : c.handle = handle)
    (retirable : c.Retirable act w.clock h) : (c.onHub w.opts w.clock act h).1.token = c.token := by
  have tokens := (c.onHub_moves w.opts w.clock act h).tokens
  have asks := @Drive.onHub_acquiring w.opts w.clock act c h
  generalize c.onHub w.opts w.clock act h = out at *
  cases tokens with
  | kept out token => exact token
  | granted grant was acquired =>
      obtain ⟨g, there, exited⟩ := shut.exited
      rw [← same, hub] at there
      obtain rfl := Option.some.inj there
      have free := (PtyHub.acquire_granted (shut.leased.fenced _ h hub) acquired).2.2.2.2.1
      by_cases going : act = .go
      · unfold Drive.Retirable at retirable
        rw [was, going] at retirable
        exact absurd (retirable exited) (free _)
      · rw [asks was going]

theorem conn (shut : Shut handle mid w) (here : w.conns[k]? = some c)
    (retirable : ∀ h ∈ w.hub c.handle, c.Retirable act w.clock h) : Shut handle mid (w.connStep k c act) := by
  have mem := List.mem_of_getElem? here
  have inside := (List.getElem?_eq_some_iff.mp here).1
  have moves := w.connStep_moves k c act
  have leased := shut.leased.conn here moves
  obtain ⟨g, there, exited⟩ := shut.exited
  have below := shut.leased.below _ g there
  -- the connection that moved has its grant from before, or none
  have one : ∀ c', (c'.handle = handle → c'.token ≠ ⟨0⟩ → c.token ≠ ⟨0⟩ ∧ c.handle = handle) →
      ∀ (j : Nat) (d : Drive), (w.conns.set k c')[j]? = some d → d.handle = handle → d.token ≠ ⟨0⟩ →
        ∃ d', mid.conns[j]? = some d' ∧ d'.stage.early = false := by
    intro c' own j d there same some_
    by_cases moved : j = k
    · rw [moved, List.getElem?_set_self inside] at there
      obtain rfl := Option.some.inj there
      obtain ⟨had, was⟩ := own same some_
      rw [moved]
      exact shut.before k c here was had
    · rw [List.getElem?_set_ne (Ne.symm moved)] at there
      exact shut.before j d there same some_
  generalize w.connStep k c act = w' at *
  cases moves with
  | stays => exact shut
  | early registry c' was next token =>
      refine ⟨leased, ⟨g, there, exited⟩, one c' fun _ some_ => ?_⟩
      exact absurd (token.trans (shut.leased.early c mem was)) some_
  | opens registry h was next made =>
      refine ⟨leased, ⟨g, ?_, exited⟩, one _ fun _ some_ => ?_⟩
      · show Function.update w.hub w.registry.nextHandle _ handle = some g
        rw [Function.update_of_ne (by rintro rfl; omega)]
        exact there
      · exact absurd (shut.leased.early c mem (by rw [was]; rfl)) some_
  | drives h out hub moves same =>
      refine ⟨leased, ?_, one _ fun at_ some_ => ?_⟩
      · show ∃ h', Function.update w.hub c.handle (some out.2) handle = some h' ∧ _
        by_cases own : handle = c.handle
        · rw [own, hub] at there
          obtain rfl := Option.some.inj there
          rw [own, Function.update_self]
          exact ⟨out.2, rfl, moves.exit_mono exited⟩
        · rw [Function.update_of_ne own]
          exact ⟨g, there, exited⟩
      · rw [moves.handle] at at_
        rw [same, shut.no_grant hub at_ (retirable h hub)] at some_
        exact ⟨some_, at_⟩
  | delists registry was => exact ⟨leased, ⟨g, there, exited⟩, one _ fun at_ some_ => ⟨some_, at_⟩⟩

theorem onPty (shut : Shut handle mid w) {handle' : UInt64} {f : Pty → Pty} (leased : Leased (w.onPty handle' f))
    (keeps : ∀ p : Pty, p.exit.isSome = true → (f p).exit.isSome = true) : Shut handle mid (w.onPty handle' f) := by
  unfold World.onPty at *
  cases here : w.hub handle' with
  | none => exact shut
  | some h =>
      rw [here] at leased
      refine ⟨leased, ?_, shut.before⟩
      obtain ⟨g, there, exited⟩ := shut.exited
      show ∃ g', Function.update w.hub handle' (some { h with pty := f h.pty }) handle = some g' ∧ _
      by_cases own : handle = handle'
      · rw [own, here] at there
        obtain rfl := Option.some.inj there
        rw [own, Function.update_self]
        exact ⟨_, rfl, keeps h.pty exited⟩
      · rw [Function.update_of_ne own]
        exact ⟨g, there, exited⟩

theorem step (event : WorldEvent) (w : World) (retirable : Retirable w event) (shut : Shut handle mid w) :
    Shut handle mid (World.step event w) := by
  have leased := shut.leased.step event
  cases event with
  | connect =>
      refine ⟨leased, shut.exited, fun j d there same some_ => ?_⟩
      have there : (w.conns ++ [Drive.start (w.registry.connCounter + 1)])[j]? = some d := there
      rcases Nat.lt_or_ge j w.conns.length with inside | outside
      · rw [List.getElem?_append_left inside] at there
        exact shut.before j d there same some_
      · rw [List.getElem?_append_right outside] at there
        rw [List.mem_singleton.mp (List.mem_of_getElem? there)] at some_
        exact absurd rfl some_
  | pass time => exact ⟨leased, shut.exited, shut.before⟩
  | emit handle' bytes =>
      refine shut.onPty leased fun p known => ?_
      unfold Pty.emit
      split <;> exact known
  | hangUp handle' => exact shut.onPty leased fun p => id
  | exits handle' status =>
      refine shut.onPty leased fun p known => ?_
      unfold Pty.ends
      split <;> exact known
  | conn k act =>
      unfold World.step
      dsimp only
      cases here : w.conns[k]? with
      | none => exact shut
      | some c => exact shut.conn here (retirable c here)

/-- A terminal whose exit a connection has sent. -/
theorem of_exit (keeping : Keeping SawExit w) (mem : c ∈ w.conns) {code : Int32} (sent : .exit code ∈ c.sent) :
    Shut c.handle w w := by
  have held : c.token ≠ ⟨0⟩ := by
    intro zero
    obtain ⟨reason, other⟩ := (keeping.unheard c mem zero).sent _ sent
    nomatch other
  obtain ⟨h, hub, -⟩ := keeping.leased.known c mem held
  have saw := keeping.keeps c mem held h hub
  refine ⟨keeping.leased, ⟨h, hub, saw.known (saw.told code sent)⟩, fun j d there same some_ => ⟨d, there, ?_⟩⟩
  by_contra before
  exact some_ (keeping.leased.early d (List.mem_of_getElem? there) (by simpa using before))

end Shut

end World

/-! ## The retirement -/

/-- **Handles are retired once the exit is known**, in every run in which no send of an Exit
fails and the lease of a terminal that has exited is current whenever it is asked for: whoever
was sent a Granted of a terminal was past its Attach before the first Exit of that terminal went
out, and whoever returns with the exit leaves the handle off the registry. -/
theorem handles_are_retired (opts : ServeOptions) (leaseTimeout : Nat) (before after : List WorldEvent)
    (retirable : Along World.step Retirable (before ++ after) (.start opts leaseTimeout)) :
    let mid := run World.step before (.start opts leaseTimeout)
    let w := run World.step (before ++ after) (.start opts leaseTimeout)
    (∀ c ∈ mid.conns, ∀ code, .exit code ∈ c.sent → ∀ (j : Nat) (d : Drive), w.conns[j]? = some d →
        d.handle = c.handle → ∀ handle token, .granted handle token ∈ d.sent →
          ∃ d', mid.conns[j]? = some d' ∧ d'.stage.early = false) ∧
      ∀ c ∈ w.conns, c.exit ≠ none → ∀ result, c.stage = .ended result → c.handle ∉ w.registry.hubs := by
  intro mid w
  have retired : World.Retired w :=
    run_invariant_along World.step World.Retired.step (before ++ after) retirable (.start opts leaseTimeout)
  constructor
  · intro c mem code exit j d there same handle token granted
    have keeping := World.sawExit.run opts leaseTimeout before
    have shut : World.Shut c.handle mid w := by
      show World.Shut c.handle mid (run World.step (before ++ after) _)
      rw [run_append]
      exact run_invariant_along World.step World.Shut.step after (Along.append World.step |>.mp retirable).2
        (.of_exit keeping mem exit)
    refine shut.before j d there same fun zero => ?_
    obtain ⟨reason, other⟩ := (retired.keeping.unheard d (List.mem_of_getElem? there) zero).sent _ granted
    nomatch other
  · intro c mem known result was
    rcases retired.settled c mem known with retires | off
    · rw [was] at retires
      nomatch retires
    · exact off

/-- The child ends, and its Exit goes out with the next turn. -/
def exited : List WorldEvent :=
  opened ++ [.pass 10, .exits 1 (.exited 3), .conn 0 (.recv .timeout), .conn 0 (.read (some 9)),
    .conn 0 (.waited true), .conn 0 (.waited true), .conn 0 (.done (.ok ()))]

/-- The grace period is over, and the connection leaves. -/
def left : List WorldEvent :=
  .pass 1 :: [.go, .recv .timeout, .read (some 9), .go, .go, .go, .go].map (WorldEvent.conn 0)

theorem handles_are_retired_left :
    ∃ c, (run World.step (exited ++ left) (.start briefly 10)).conns = [c] ∧ c.exit = some ⟨3⟩ ∧
      (∃ result, c.stage = .ended result) ∧
      c.handle ∉ (run World.step (exited ++ left) (.start briefly 10)).registry.hubs := by
  have ended : ((run World.step (exited ++ left) (.start briefly 10)).conns.map fun c => (c.exit, c.stage)) =
      [(some ⟨3⟩, .ended (.ok ⟨1, ⟨1⟩, 0, 0, some ⟨3⟩, .shellExited 3⟩))] := by decide +kernel
  obtain ⟨c, conns, same⟩ := List.map_eq_singleton_iff.mp ended
  obtain ⟨known, was⟩ := Prod.mk.inj same
  have mem : c ∈ (run World.step (exited ++ left) (.start briefly 10)).conns := by
    rw [conns]
    exact List.mem_singleton_self c
  have retired := (handles_are_retired briefly 10 exited left (by decide +kernel)).2 c mem (by rw [known]; nofun) _ was
  exact ⟨c, conns, known, ⟨_, was⟩, retired⟩

/-- The Exit is out, and in its grace period the lease lapses: a connection that comes only now
is granted the terminal. And where the Exit does not go out, its connection returns with the
handle still on the registry. -/
theorem exited_terminal_is_granted :
    (let mid := run World.step exited (.start briefly 10)
      let w := run World.step (exited ++ .pass 1 :: takenOver ++ [.conn 1 (.done (.ok ()))]) (.start briefly 10)
      mid.conns.map (·.sent) = [[.granted 1 1, .exit 3]] ∧
        w.conns.map (·.sent) = [[.granted 1 1, .exit 3], [.granted 1 2]]) ∧
      let w := run World.step (exited.dropLast ++ [.conn 0 (.done (.error .io)), .conn 0 .go]) (.start briefly 10)
      w.conns.map (fun c => (c.exit, c.stage)) = [(some ⟨3⟩, .ended (.error .io))] ∧ w.registry.hubs = [1] := by
  decide +kernel

end Jbuu.Terminal
