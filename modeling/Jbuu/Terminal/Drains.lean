/-
# Terminal.Drains — who reads a terminal's output

A drain asks for no token, so it is for the loop to be sure that the lease is held. It looks
once in a turn, after the drain, and what comes before the next one is a receive: the lease
may lapse there, or between two slices of an input, and another connection take over. The
turn then drains all the same, and after a write that was rejected as stale it does so
knowing that it is fenced (`rejected_writer_drains`).

Where a connection turns to a drain only while its lease holds, and the lease does not lapse
before the drain is done (`Held`), every byte is read by the holder (`drains_are_current`).
-/
import Jbuu.Terminal.Holders

namespace Jbuu.Terminal

set_option autoImplicit false

open Jbuu.Library.BigEndian (Bytes)
open Jbuu.Library
open LeaseWorld (Fenced)

/-! ## The condition -/

/-- In a drain, or in one of the sends of a drain between slices. -/
def DriveStage.reading : DriveStage → Bool
  | .draining _ => true
  | .sending _ _ (some _) => true
  | _ => false

theorem DriveStage.holds_of_reading {stage : DriveStage} (reads : stage.reading = true) :
    stage.holds = true := by
  cases stage with
  | draining next => rfl
  | sending chunk rest next => rfl
  | _ => nomatch reads

/-- The step leads to a drain without asking for the lease. -/
def Drive.entersDrain (c : Drive) (act : DriveAct) : Bool :=
  !c.ptyEof &&
    match c.stage, act with
    | .receiving, .recv .timeout => true
    | .receiving, .recv (.closed _) => c.exitSentAt.isSome
    | .beating .ping, .go => true
    | .writing _ _, .write _ => true
    | _, _ => false

/-- A connection turns to a drain only with a current token, and time does not run past a
lease whose connection is in one. -/
def Held (w : World) : WorldEvent → Prop
  | .conn k act => ∀ c ∈ w.conns[k]?, c.entersDrain act = true →
      ∀ h ∈ w.hub c.handle, h.Current w.clock c.token
  | .pass time => ∀ c ∈ w.conns, c.stage.reading = true →
      ∀ h ∈ w.hub c.handle, h.Current w.clock c.token → h.Current (w.clock + time) c.token
  | _ => True

instance (w : World) : DecidablePred (Held w)
  | .conn _ _ => inferInstanceAs (Decidable (∀ c ∈ _, _))
  | .pass _ => inferInstanceAs (Decidable (∀ c ∈ _, _))
  | .connect => .isTrue trivial
  | .emit _ _ => .isTrue trivial
  | .hangUp _ => .isTrue trivial
  | .exits _ _ => .isTrue trivial

/-! ## One connection -/

namespace Drive

variable {c : Drive}

theorem reading_again : c.again.reading = false := by
  unfold again
  split <;> rfl

theorem reading_check : c.check.reading = false := by
  unfold check
  split
  · rfl
  · exact reading_again

theorem reading_grace : c.grace.reading = false := by
  unfold grace
  split
  · rfl
  · exact reading_check

theorem reading_turn : c.turn.reading = false := by
  unfold turn
  split
  · rfl
  · exact reading_grace

/-- A drain that begins has not seen the end of the output. -/
theorem not_eof_of_drainTurn (reads : c.drainTurn.reading = true) : c.ptyEof = false := by
  unfold drainTurn at reads
  split at reads
  · rw [reading_turn] at reads
    nomatch reads
  · rename_i more
    simpa using more

end Drive

/-! ## The lease under a step -/

theorem Pty.drains_readTimeout (n : Nat) (p : Pty) : (p.readTimeout n).2.drains = p.drains := by
  unfold Pty.readTimeout
  dsimp only
  split <;> rfl

theorem Pty.drains_pollExit (waited : Bool) (p : Pty) : (p.pollExit waited).2.drains = p.drains := by
  unfold Pty.pollExit
  split
  · rfl
  · split <;> rfl

namespace PtyHub

variable {now : Nat} {token other : FencingToken} {h h' : PtyHub}

theorem current_congr (lease : h'.lease = h.lease) : h'.Current now token ↔ h.Current now token := by
  rw [Current, leaseIsCurrent, lease]
  rfl

/-- The gate of a resize lets nothing but the current token through. -/
theorem current_of_resize {set : Bool} (out : h.resize now token set ≠ .error .staleWriter) :
    h.Current now token := by
  unfold resize at out
  rw [LeaseManager.withWriteGate_eq] at out
  by_contra lost
  have lost : ¬h.lease.isCurrent now token = true := lost
  rw [if_neg lost] at out
  exact out rfl

theorem current_of_writeInput {data : Bytes} {rounds : List WriteRound}
    (out : (h.writeInput now token data rounds).1 = .ok ()) : h.Current now token := by
  rcases h.writeInput_cases now token data rounds with
    ⟨-, same⟩ | ⟨-, same⟩ | ⟨current, -⟩
  · rw [same] at out
    nomatch out
  · rw [same] at out
    nomatch out
  · exact current

theorem writeInput_lease (data : Bytes) (rounds : List WriteRound) :
    (h.writeInput now token data rounds).2.lease = h.lease := by
  rcases h.writeInput_cases now token data rounds with
    ⟨-, same⟩ | ⟨-, same⟩ | ⟨-, same⟩ <;> rw [same]

theorem current_of_heartbeat (fresh : (h.heartbeat now token).1.toBool = true) : h.Current now token := by
  unfold heartbeat at fresh
  rw [LeaseManager.heartbeat_eq] at fresh
  by_contra lost
  have lost : ¬h.lease.isCurrent now token = true := lost
  rw [if_neg lost] at fresh
  nomatch fresh

/-- A beat takes the lease from nobody. -/
theorem current_heartbeat (current : h.Current now other) : (h.heartbeat now token).2.Current now other := by
  have current : h.lease.isCurrent now other = true := current
  show ((h.lease.heartbeat now token).2).isCurrent now other = true
  rw [LeaseManager.heartbeat_eq]
  split
  · rw [LeaseManager.isCurrent_iff] at current ⊢
    refine ⟨current.1, current.2.1, ?_⟩
    show now - now ≤ _
    rw [Nat.sub_self]
    exact Nat.zero_le _
  · exact current

/-- While a token is current an acquire changes nothing. -/
theorem acquire_busy (fenced : Fenced (h.leaseWorld now)) (current : h.Current now other) (conn : ConnId) :
    (h.acquire now conn).2.lease = h.lease := by
  have acquires : LeaseWorld.Acquires (h.leaseWorld now) conn (h.lease.acquire now conn) := fenced.acquires conn
  unfold acquire
  generalize h.lease.acquire now conn = result at acquires
  cases acquires with
  | busy holder current => rfl
  | exhausted free => rfl
  | granted token free next => exact absurd current (free other)

theorem current_dropGrant (current : h.Current now other) (apart : token ≠ other) :
    (h.dropGrant token).Current now other := by
  have same : LeaseWorld.step (.drop ⟨token⟩) (h.leaseWorld now) = h.leaseWorld now :=
    LeaseWorld.drop_stale current apart
  have lease : (h.dropGrant token).lease = h.lease := congrArg LeaseWorld.manager same
  exact (current_congr lease).mpr current

theorem writeInput_drains (data : Bytes) (rounds : List WriteRound) :
    (h.writeInput now token data rounds).2.pty.drains = h.pty.drains := by
  rcases h.writeInput_cases now token data rounds with
    ⟨-, same⟩ | ⟨-, same⟩ | ⟨-, same⟩ <;> rw [same]

end PtyHub

namespace Drive

variable {c : Drive} {opts : ServeOptions} {now : Nat} {act : DriveAct} {h : PtyHub} {out : Drive × PtyHub}

/-- The lease of another connection is untouched. -/
theorem Moves.current_other (moves : Moves opts now act c h out) (fenced : Fenced (h.leaseWorld now))
    {other : FencingToken} (current : h.Current now other) (apart : c.token ≠ other) :
    out.2.Current now other := by
  cases moves with
  | panics => exact (PtyHub.current_congr (PtyHub.acquire_busy fenced current _)).mpr current
  | busy => exact (PtyHub.current_congr (PtyHub.acquire_busy fenced current _)).mpr current
  | granted => exact (PtyHub.current_congr (PtyHub.acquire_busy fenced current _)).mpr current
  | beats => exact PtyHub.current_heartbeat current
  | writes => exact (PtyHub.current_congr (PtyHub.writeInput_lease ..)).mpr current
  | rejected => exact (PtyHub.current_congr (PtyHub.writeInput_lease ..)).mpr current
  | reads => exact current
  | leaves => exact PtyHub.current_dropGrant current apart
  | returns => exact PtyHub.current_dropGrant current apart
  | _ => exact current

/-- A connection that is in a drain after the step has its lease, if it had it in a drain
before, and where it turned to one unasked. -/
theorem Moves.current_own (moves : Moves opts now act c h out) (reads : out.1.stage.reading = true)
    (before : c.stage.reading = true → h.Current now c.token)
    (enters : c.entersDrain act = true → h.Current now c.token) : out.2.Current now out.1.token := by
  cases moves with
  | stays => exact before reads
  | panics => nomatch reads
  | busy => nomatch reads
  | granted => nomatch reads
  | announces => nomatch reads
  | fails => nomatch reads
  | aligns => nomatch reads
  | receives => nomatch reads
  | idles was came =>
      refine enters ?_
      unfold entersDrain
      rw [not_eof_of_drainTurn reads, was]
      rcases came with rfl | ⟨e, rfl, sent⟩
      · rfl
      · exact sent
  | hangsUp => nomatch reads
  | beats f was going =>
      obtain ⟨stage, ends, window, -, same⟩ := c.handles_eq (h.heartbeat now c.token).1.toBool f
      have token : (c.handles (h.heartbeat now c.token).1.toBool f).token = c.token := by rw [same]
      rw [token]
      refine PtyHub.current_heartbeat ?_
      revert reads
      refine c.handles_cases (p := fun c' => c'.stage.reading = true → _) _ f ?_ ?_ ?_ ?_
      · exact fun data _ fresh _ => PtyHub.current_of_heartbeat fresh
      · exact fun _ _ _ => nofun
      · intro same reads
        refine enters ?_
        unfold entersDrain
        rw [not_eof_of_drainTurn reads, was, same, going]
        rfl
      · exact fun _ => nofun
  | writes slice rest rounds was came out =>
      exact (PtyHub.current_congr (PtyHub.writeInput_lease ..)).mpr (PtyHub.current_of_writeInput out)
  | rejected slice rest rounds ends was came out =>
      refine (PtyHub.current_congr (PtyHub.writeInput_lease ..)).mpr (enters ?_)
      have more : (c.ending ends).ptyEof = false := not_eof_of_drainTurn reads
      have more : c.ptyEof = false := more
      unfold entersDrain
      rw [more, was, came]
      rfl
  | resizes set was out => exact PtyHub.current_of_resize out
  | outdated => nomatch reads
  | readFails next was => exact before (by rw [was]; rfl)
  | reads next n bytes was =>
      have current := before (by rw [was]; rfl)
      dsimp only
      split <;> exact current
  | readsNothing next n eof was => exact before (by rw [was]; rfl)
  | sendsLast chunk next was =>
      cases next with
      | none =>
          have reads : (turn _).reading = true := reads
          rw [reading_turn] at reads
          nomatch reads
      | some rest => exact before (by rw [was]; rfl)
  | sendsMore chunk other rest next was =>
      cases next with
      | none => nomatch reads
      | some slices => exact before (by rw [was]; rfl)
  | sendFails chunk rest next e was =>
      cases next with
      | none => nomatch reads
      | some slices => exact before (by rw [was]; rfl)
  | pollsRunning =>
      have reads : (grace c).reading = true := reads
      rw [reading_grace] at reads
      nomatch reads
  | pollsFirst => nomatch reads
  | pollsExit => nomatch reads
  | exits => nomatch reads
  | graceOver => nomatch reads
  | graceGoes =>
      have reads : (check c).reading = true := reads
      rw [reading_check] at reads
      nomatch reads
  | checks =>
      have reads : (again c).reading = true := reads
      rw [reading_again] at reads
      nomatch reads
  | lapses => nomatch reads
  | judged => nomatch reads
  | leaves => nomatch reads
  | retires =>
      have reads : (if _ then _ else _ : DriveStage).reading = true := reads
      split at reads <;> nomatch reads
  | returns => nomatch reads

/-- What a step adds to the record of reads. -/
theorem Moves.drains (moves : Moves opts now act c h out) :
    out.2.pty.drains = h.pty.drains ∨ ∃ bytes, c.stage.reading = true ∧
      out.2.pty.drains = h.pty.drains ++ [⟨c.token, bytes, h.leaseIsCurrent now c.token⟩] := by
  cases moves with
  | panics => exact .inl (by rw [PtyHub.acquire_pty])
  | busy => exact .inl (by rw [PtyHub.acquire_pty])
  | granted => exact .inl (by rw [PtyHub.acquire_pty])
  | writes slice rest rounds => exact .inl (PtyHub.writeInput_drains ..)
  | rejected slice rest rounds => exact .inl (PtyHub.writeInput_drains ..)
  | reads next n bytes was =>
      right
      refine ⟨bytes, by rw [was]; rfl, ?_⟩
      show (h.pty.readTimeout n).2.drains ++ _ = _
      rw [Pty.drains_readTimeout]
      rfl
  | readsNothing => exact .inl (Pty.drains_readTimeout ..)
  | pollsRunning => exact .inl (Pty.drains_pollExit ..)
  | pollsFirst => exact .inl (Pty.drains_pollExit ..)
  | pollsExit => exact .inl (Pty.drains_pollExit ..)
  | _ => exact .inl rfl

end Drive

/-! ## All connections -/

namespace World

/-- Connections in a drain have their lease, and all that was read was read by a holder. -/
structure Exclusive (w : World) : Prop where
  leased : Leased w
  reading : ∀ c ∈ w.conns, c.stage.reading = true → ∀ h, w.hub c.handle = some h → h.Current w.clock c.token
  drains : ∀ handle h, w.hub handle = some h → ∀ d ∈ h.pty.drains, d.current = true

namespace Exclusive

variable {w : World} {k : Nat} {c : Drive} {act : DriveAct}

theorem start (opts : ServeOptions) (leaseTimeout : Nat) : Exclusive (.start opts leaseTimeout) where
  leased := .start opts leaseTimeout
  reading _ mem := absurd mem List.not_mem_nil
  drains _ _ here := nomatch here

/-- A step of a connection on its terminal. -/
theorem drives (exclusive : Exclusive w) (here : w.conns[k]? = some c)
    (enters : c.entersDrain act = true → ∀ h, w.hub c.handle = some h → h.Current w.clock c.token)
    {h : PtyHub} (hub : w.hub c.handle = some h) {out : Drive × PtyHub}
    (moves : Drive.Moves w.opts w.clock act c h out) :
    Exclusive ((w.setHub c.handle out.2).setConn k out.1) := by
  have leased := exclusive.leased
  have mem := List.mem_of_getElem? here
  have fenced := leased.fenced _ h hub
  have before : c.stage.reading = true → h.Current w.clock c.token :=
    fun reads => exclusive.reading c mem reads h hub
  refine ⟨leased.drives here hub moves, ?_, ?_⟩
  · intro c' mem' reads g there'
    obtain ⟨j, at_⟩ := List.getElem?_of_mem mem'
    have at_ : (w.conns.set k out.1)[j]? = some c' := at_
    have there : Function.update w.hub c.handle (some out.2) c'.handle = some g := there'
    clear there'
    by_cases same : j = k
    · subst same
      rw [List.getElem?_set_self (List.getElem?_eq_some_iff.mp here).1] at at_
      obtain rfl := Option.some.inj at_
      rw [moves.handle, Function.update_self] at there
      rw [← Option.some.inj there]
      exact moves.current_own reads before fun enters' => enters enters' h hub
    · rw [List.getElem?_set_ne (Ne.symm same)] at at_
      by_cases own : c'.handle = c.handle
      · rw [own, Function.update_self] at there
        rw [← Option.some.inj there]
        have old := List.mem_of_getElem? at_
        have token := leased.holds c' old (DriveStage.holds_of_reading reads)
        refine moves.current_other fenced (exclusive.reading c' old reads h (own ▸ hub)) fun equal => ?_
        exact same (leased.distinct j k c' c at_ here token own equal.symm)
      · rw [Function.update_of_ne own] at there
        exact exclusive.reading c' (List.mem_of_getElem? at_) reads g there
  · refine Leased.forall_update (p := fun _ h => ∀ d ∈ h.pty.drains, d.current = true) exclusive.drains ?_
    have old := exclusive.drains _ h hub
    rcases moves.drains with same | ⟨bytes, reads, same⟩
    · rw [same]
      exact old
    · rw [same]
      intro d read
      rcases List.mem_append.mp read with earlier | new
      · exact old d earlier
      · rw [List.mem_singleton.mp new]
        exact before reads

theorem conn (exclusive : Exclusive w) (here : w.conns[k]? = some c)
    (enters : c.entersDrain act = true → ∀ h, w.hub c.handle = some h → h.Current w.clock c.token)
    {w' : World} (moves : ConnMoves w k c act w') : Exclusive w' := by
  have leased := exclusive.leased.conn here moves
  -- a connection replaced by one in no drain
  have quiet : ∀ (c' : Drive), c'.stage.reading = false → ∀ c'' ∈ w.conns.set k c',
      c''.stage.reading = true → c'' ∈ w.conns := by
    intro c' none_ c'' mem reads
    rcases List.mem_or_eq_of_mem_set mem with old | rfl
    · exact old
    · rw [none_] at reads
      nomatch reads
  cases moves with
  | stays => exact exclusive
  | early registry c' was next token quiet' same =>
      refine ⟨leased, fun c'' mem reads => ?_, exclusive.drains⟩
      refine exclusive.reading c'' (quiet c' ?_ c'' mem reads) reads
      by_contra reading
      rw [DriveStage.holds_of_reading (Bool.not_eq_false _ ▸ reading)] at quiet'
      nomatch quiet'
  | opens registry h was next made =>
      refine ⟨leased, ?_, ?_⟩
      · intro c'' mem reads g there
        have old := quiet _ rfl c'' mem reads
        obtain ⟨g', at_, -⟩ := exclusive.leased.known c'' old
          (exclusive.leased.holds c'' old (DriveStage.holds_of_reading reads))
        have below := exclusive.leased.below _ g' at_
        have there : Function.update w.hub w.registry.nextHandle (some h) c''.handle = some g := there
        rw [Function.update_of_ne (by intro same; rw [same] at below; omega)] at there
        exact exclusive.reading c'' old reads g there
      · refine Leased.forall_update (p := fun _ h => ∀ d ∈ h.pty.drains, d.current = true) exclusive.drains ?_
        obtain ⟨lease, -, rfl⟩ := Option.map_eq_some_iff.mp made
        intro d mem
        exact absurd mem List.not_mem_nil
  | drives h out hub moves => exact exclusive.drives here enters hub moves
  | delists registry was next =>
      refine ⟨leased, fun c'' mem reads => ?_, exclusive.drains⟩
      exact exclusive.reading c'' (quiet _ rfl c'' mem reads) reads

/-- What happens to a PTY alone. -/
theorem onPty (exclusive : Exclusive w) (handle : UInt64) {f : Pty → Pty}
    (writes : ∀ p, (f p).writes = p.writes) (drains : ∀ p, (f p).drains = p.drains) :
    Exclusive (w.onPty handle f) := by
  have leased := exclusive.leased.onPty handle writes
  unfold World.onPty at leased ⊢
  cases here : w.hub handle with
  | none => exact exclusive
  | some h =>
      rw [here] at leased
      refine ⟨leased, ?_, ?_⟩
      · intro c mem reads
        have all : ∀ other g, w.hub other = some g → other = c.handle → g.Current w.clock c.token := by
          rintro _ g there rfl
          exact exclusive.reading c mem reads g there
        intro g there
        have there : Function.update w.hub handle (some { h with pty := f h.pty }) c.handle = some g := there
        have one : handle = c.handle → PtyHub.Current w.clock c.token { h with pty := f h.pty } :=
          fun same => all handle h here same
        exact Leased.forall_update all one c.handle g there rfl
      · refine Leased.forall_update (p := fun _ h => ∀ d ∈ h.pty.drains, d.current = true) exclusive.drains ?_
        show ∀ d ∈ (f h.pty).drains, d.current = true
        rw [drains]
        exact exclusive.drains handle h here

theorem step (event : WorldEvent) (w : World) (held : Held w event) (exclusive : Exclusive w) :
    Exclusive (World.step event w) := by
  cases event with
  | connect =>
      refine ⟨exclusive.leased.connect, fun c mem reads => ?_, exclusive.drains⟩
      rcases List.mem_append.mp mem with old | new
      · exact exclusive.reading c old reads
      · rw [List.mem_singleton.mp new] at reads
        nomatch reads
  | pass time =>
      refine ⟨exclusive.leased.pass time, ?_, exclusive.drains⟩
      intro c mem reads h here
      exact held c mem reads h here (exclusive.reading c mem reads h here)
  | emit handle bytes =>
      refine exclusive.onPty handle ?_ ?_ <;> intro p <;> unfold Pty.emit <;> split <;> rfl
  | hangUp handle => exact exclusive.onPty handle (fun _ => rfl) fun _ => rfl
  | exits handle status =>
      refine exclusive.onPty handle ?_ ?_ <;> intro p <;> unfold Pty.ends <;> split <;> rfl
  | conn k act =>
      unfold World.step
      dsimp only
      split
      · exact exclusive
      · rename_i c here
        exact exclusive.conn here (held c here) (w.connStep_moves k c act)

end Exclusive

end World

/-! ## Every run -/

/-- What was read, and after it what is unread, is all that was given out. -/
def Pty.Accounted (p : Pty) : Prop := p.drains.flatMap (·.bytes) ++ p.output = p.emitted

theorem Pty.Accounted.of_same {p p' : Pty} (accounted : p.Accounted) (drains : p'.drains = p.drains)
    (output : p'.output = p.output) (emitted : p'.emitted = p.emitted) : p'.Accounted := by
  rw [Pty.Accounted, drains, output, emitted]
  exact accounted

/-- A write and a poll for the exit leave the output alone. -/
theorem PtyHub.writeInput_output (now : Nat) (token : FencingToken) (data : Bytes) (rounds : List WriteRound)
    (h : PtyHub) : (h.writeInput now token data rounds).2.pty.output = h.pty.output ∧
      (h.writeInput now token data rounds).2.pty.emitted = h.pty.emitted ∧
      (h.writeInput now token data rounds).2.pty.child = h.pty.child := by
  rcases h.writeInput_cases now token data rounds with
    ⟨-, same⟩ | ⟨-, same⟩ | ⟨-, same⟩ <;> rw [same] <;> exact ⟨rfl, rfl, rfl⟩

theorem Pty.output_pollExit (waited : Bool) (p : Pty) :
    (p.pollExit waited).2.output = p.output ∧ (p.pollExit waited).2.emitted = p.emitted ∧
      (p.pollExit waited).2.child = p.child := by
  unfold Pty.pollExit
  split
  · exact ⟨rfl, rfl, rfl⟩
  · split <;> exact ⟨rfl, rfl, rfl⟩

/-- The exit is seen where it was before, or where the child has ended. -/
theorem Pty.seen_of_pollExit {waited : Bool} {p : Pty} {status : ExitStatus}
    (out : (p.pollExit waited).1 = some status) : (p.exit.isSome || p.child.isSome && waited) = true := by
  unfold Pty.pollExit at out
  split at out
  · rename_i seen
    rw [seen]
    rfl
  · split at out
    · rename_i ended
      rw [ended]
      exact Bool.or_true _
    · nomatch out

theorem Drive.Moves.accounted {opts : ServeOptions} {now : Nat} {act : DriveAct} {c : Drive} {h : PtyHub}
    {out : Drive × PtyHub} (moves : Moves opts now act c h out) (accounted : h.pty.Accounted) :
    out.2.pty.Accounted := by
  cases moves with
  | panics => rwa [PtyHub.acquire_pty]
  | busy => rwa [PtyHub.acquire_pty]
  | granted => rwa [PtyHub.acquire_pty]
  | writes slice rest rounds =>
      obtain ⟨output, emitted, -⟩ := h.writeInput_output now c.token slice rounds
      exact accounted.of_same (PtyHub.writeInput_drains ..) output emitted
  | rejected slice rest rounds =>
      obtain ⟨output, emitted, -⟩ := h.writeInput_output now c.token slice rounds
      exact accounted.of_same (PtyHub.writeInput_drains ..) output emitted
  | reads next n bytes was came out =>
      have out : (h.pty.readTimeout n).1 = .data bytes := out
      show ((h.pty.readTimeout n).2.drains ++ [_]).flatMap (fun d : Drain => d.bytes) ++ (h.pty.readTimeout n).2.output =
        (h.pty.readTimeout n).2.emitted
      rcases h.pty.readTimeout_cases n with ⟨-, same⟩ | ⟨bytes', rest, -, whole, same⟩
      · rw [same] at out
        dsimp only at out
        split at out <;> nomatch out
      · rw [same] at out ⊢
        obtain rfl := PtyRead.data.inj out
        have accounted : h.pty.drains.flatMap (·.bytes) ++ h.pty.output = h.pty.emitted := accounted
        rw [whole] at accounted
        simpa using accounted
  | readsNothing next n eof was out =>
      have out : (h.pty.readTimeout n).1 = if eof then .eof else .timeout := out
      show (h.pty.readTimeout n).2.Accounted
      rcases h.pty.readTimeout_cases n with ⟨-, same⟩ | ⟨bytes', rest, -, whole, same⟩
      · rw [same]
        exact accounted
      · rw [same] at out
        dsimp only at out
        split at out <;> nomatch out
  | pollsRunning second ok =>
      obtain ⟨output, emitted, -⟩ := h.pty.output_pollExit ok
      exact accounted.of_same (Pty.drains_pollExit ..) output emitted
  | pollsFirst ok =>
      obtain ⟨output, emitted, -⟩ := h.pty.output_pollExit ok
      exact accounted.of_same (Pty.drains_pollExit ..) output emitted
  | pollsExit ok =>
      obtain ⟨output, emitted, -⟩ := h.pty.output_pollExit ok
      exact accounted.of_same (Pty.drains_pollExit ..) output emitted
  | _ => exact accounted

theorem Pty.Accounted.emit {p : Pty} (accounted : p.Accounted) (bytes : Bytes) : (p.emit bytes).Accounted := by
  unfold Pty.emit
  split
  · have accounted : p.drains.flatMap (·.bytes) ++ p.output = p.emitted := accounted
    show p.drains.flatMap (·.bytes) ++ (p.output ++ bytes) = p.emitted ++ bytes
    rw [← List.append_assoc, accounted]
  · exact accounted

theorem Pty.Accounted.ends {p : Pty} (accounted : p.Accounted) (status : ChildEnd) :
    (p.ends status).Accounted := by
  unfold Pty.ends
  split <;> exact accounted

/-- Reads lose nothing and read nothing twice. -/
theorem World.accounted : World.HubInvariant fun h => h.pty.Accounted where
  new timeout now h made := by
    obtain ⟨lease, -, rfl⟩ := Option.map_eq_some_iff.mp made
    rfl
  moved _ _ _ _ _ _ moves := moves.accounted
  emits _ bytes accounted := accounted.emit bytes
  hangsUp _ := id
  ends _ status accounted := accounted.ends status

/-- **Output is drained by the holder alone**, in every run in which a connection turns to a
drain with a current token and no lease lapses in the middle of one: of every terminal each
byte that was removed was removed with the reader's token current. -/
theorem drains_are_current (opts : ServeOptions) (leaseTimeout : Nat) (events : List WorldEvent)
    (held : Along World.step Held events (.start opts leaseTimeout)) :
    ∀ handle (h : PtyHub), (run World.step events (.start opts leaseTimeout)).hub handle = some h →
      h.pty.Accounted ∧ ∀ d ∈ h.pty.drains, d.current = true := by
  intro handle h here
  have exclusive :=
    run_invariant_along World.step World.Exclusive.step events held (.start opts leaseTimeout)
  exact ⟨World.accounted.run opts leaseTimeout events handle h here, exclusive.drains handle h here⟩

/-- The first connection opens a terminal and has its lease. -/
def opened : List WorldEvent :=
  .connect :: [.done (.ok ()), .recv (.frame (.open 24 80)), .spawned true, .go, .done (.ok ()),
    .done (.ok ())].map (WorldEvent.conn 0)

/-- A second one comes back to it. -/
def takenOver : List WorldEvent :=
  .connect :: [.done (.ok ()), .recv (.frame (.attach 1 24 80)), .go, .go].map (WorldEvent.conn 1)

def briefly : ServeOptions where
  firstFrameTimeout := 30
  exitGrace := 1

/-- Something is drained, and only then the lease lapses. -/
def drained : List WorldEvent :=
  opened ++ [.emit 1 [104], .conn 0 (.recv .timeout), .conn 0 (.read (some 9)), .conn 0 (.read (some 9)),
    .pass 11] ++ takenOver

theorem drains_are_current_one :
    ∃ h, (run World.step drained (.start briefly 10)).hub 1 = some h ∧ h.pty.drains.length = 1 ∧
      ∀ d ∈ h.pty.drains, d.current = true := by
  have once : ((run World.step drained (.start briefly 10)).hub 1).map (fun h => h.pty.drains.length) = some 1 := by
    decide +kernel
  obtain ⟨h, here, one⟩ := Option.map_eq_some_iff.mp once
  exact ⟨h, here, one, (drains_are_current briefly 10 drained (by decide +kernel) 1 h here).2⟩

/-- The lease of a connection that is about to write an input lapses, and another connection
takes over. The write is rejected as stale; the turn goes on and drains what the new holder
should see. -/
theorem rejected_writer_drains :
    let w := run World.step (opened ++ [.conn 0 (.recv (.frame (.input [108]))), .conn 0 .go, .pass 11] ++
      takenOver ++ [.emit 1 [104, 105], .conn 0 (.write [.wrote 1]), .conn 0 (.read (some 9))])
      (.start briefly 10)
    (w.hub 1).map (fun h => (h.pty.drains, h.pty.writes, h.lease.inner.token)) =
        some ([⟨⟨1⟩, [104, 105], false⟩], [], 2) ∧
      w.conns.map (·.ends) = [some .fenced, none] := by
  decide +kernel

end Jbuu.Terminal
