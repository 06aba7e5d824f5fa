/-
# Terminal.Holders — tokens in the world of all connections

What every claim about the terminal server rests on. A terminal's lease goes through the
steps of the lease's own world and no others (`Moves.lease`), so it is fenced in every run;
a connection in the loop has a token of its terminal, and no two connections have the same
one (`Leased`).
-/
import Jbuu.Terminal.Drive

namespace Jbuu.Terminal

set_option autoImplicit false

open Jbuu.Library.BigEndian (Bytes)
open Jbuu.Library
open LeaseWorld (Fenced)

/-! ## The lease of a terminal -/

theorem Pty.writes_readTimeout (n : Nat) (p : Pty) : (p.readTimeout n).2.writes = p.writes := by
  unfold Pty.readTimeout
  dsimp only
  split <;> rfl

theorem Pty.writes_pollExit (waited : Bool) (p : Pty) : (p.pollExit waited).2.writes = p.writes := by
  unfold Pty.pollExit
  split
  · rfl
  · split <;> rfl

namespace PtyHub

variable {now : Nat} {token : FencingToken} {h : PtyHub}

/-- The terminal as a world of its lease. -/
def leaseWorld (now : Nat) (h : PtyHub) : LeaseWorld := ⟨h.lease, now, h.granted, h.pty.writes.map (·.1)⟩

/-- A step of the lease's world, or none. -/
def LeaseStep (now : Nat) (h h' : PtyHub) : Prop :=
  h'.leaseWorld now = h.leaseWorld now ∨ ∃ event, h'.leaseWorld now = LeaseWorld.step event (h.leaseWorld now)

theorem LeaseStep.refl : LeaseStep now h h := .inl rfl

theorem leaseStep_acquire (conn : ConnId) : LeaseStep now h (h.acquire now conn).2 := by
  right
  refine ⟨.acquire conn, ?_⟩
  unfold acquire LeaseWorld.step leaseWorld
  dsimp only
  rcases h.lease.acquire now conn with ⟨_ | _ | grant, lease⟩ <;> rfl

theorem leaseStep_heartbeat : LeaseStep now h (h.heartbeat now token).2 := .inr ⟨.heartbeat token, rfl⟩

/-- What a write does: nothing where the token is not current or the exit is known. -/
theorem writeInput_cases (now : Nat) (token : FencingToken) (data : Bytes) (rounds : List WriteRound)
    (h : PtyHub) :
    (¬h.Current now token ∧ h.writeInput now token data rounds = (.error .staleWriter, h)) ∨
      (h.pty.exit.isSome = true ∧ h.writeInput now token data rounds = (.error .closed, h)) ∨
      (h.Current now token ∧ h.writeInput now token data rounds =
        (if (writeAllBounded rounds data).1 then .ok () else .error .io,
          { h with pty := { h.pty with
            writes := h.pty.writes ++ [(token, (writeAllBounded rounds data).2)] } })) := by
  unfold writeInput
  rw [LeaseManager.withWriteGate_eq]
  by_cases current : h.lease.isCurrent now token = true
  · rw [if_pos current]
    unfold writeMaster
    split
    · rename_i exited
      exact .inr (.inl ⟨exited, rfl⟩)
    · exact .inr (.inr ⟨current, rfl⟩)
  · rw [if_neg current]
    exact .inl ⟨current, rfl⟩

theorem leaseStep_writeInput (data : Bytes) (rounds : List WriteRound) :
    LeaseStep now h (h.writeInput now token data rounds).2 := by
  rcases h.writeInput_cases now token data rounds with
    ⟨-, same⟩ | ⟨-, same⟩ | ⟨current, same⟩
  · rw [same]
    exact .refl
  · rw [same]
    exact .refl
  · right
    refine ⟨.gate token (.ok ()), ?_⟩
    rw [same]
    simp only [leaseWorld, LeaseWorld.step, LeaseManager.withWriteGate_eq, LeaseWorld.write,
      List.map_append, List.map_cons, List.map_nil]
    rw [if_pos (show h.lease.isCurrent now token = true from current)]

theorem leaseStep_dropGrant : LeaseStep now h (h.dropGrant token) := .inr ⟨.drop ⟨token⟩, rfl⟩

/-- What touches neither the lease nor the writes. -/
theorem leaseStep_of_same {h' : PtyHub} (lease : h'.lease = h.lease) (granted : h'.granted = h.granted)
    (writes : h'.pty.writes = h.pty.writes) : LeaseStep now h h' := by
  left
  rw [leaseWorld, lease, granted, writes]
  rfl

theorem LeaseStep.fenced {h' : PtyHub} (step : LeaseStep now h h') (fenced : Fenced (h.leaseWorld now)) :
    Fenced (h'.leaseWorld now) := by
  rcases step with same | ⟨event, same⟩
  · rw [same]
    exact fenced
  · rw [same]
    exact fenced.step event

theorem acquire_pty (conn : ConnId) : (h.acquire now conn).2.pty = h.pty := by
  unfold acquire
  rcases h.lease.acquire now conn with ⟨_ | _ | grant, lease⟩ <;> rfl

theorem acquire_next (fenced : Fenced (h.leaseWorld now)) {conn : ConnId} {grant : LeaseGrant}
    (out : (h.acquire now conn).1 = some (.ok grant)) :
    grant.token.get.toNat = h.lease.inner.token.toNat + 1 := by
  have acquires : LeaseWorld.Acquires (h.leaseWorld now) conn (h.lease.acquire now conn) := fenced.acquires conn
  unfold acquire at out
  generalize h.lease.acquire now conn = result at acquires out
  cases acquires with
  | busy holder current => nomatch out
  | exhausted free => nomatch out
  | granted token free next =>
      obtain rfl : (⟨⟨token⟩⟩ : LeaseGrant) = grant := Except.ok.inj (Option.some.inj out)
      exact next

/-- A grant hands out the token after the last one. -/
theorem acquire_granted (fenced : Fenced (h.leaseWorld now)) {conn : ConnId} {grant : LeaseGrant}
    (out : (h.acquire now conn).1 = some (.ok grant)) :
    (h.acquire now conn).2.granted = h.granted ++ [grant.token] ∧ (h.acquire now conn).2.pty = h.pty ∧
      (∀ t ∈ h.granted, t.get < grant.token.get) ∧ grant.token ≠ ⟨0⟩ ∧
      (∀ t, ¬h.Current now t) ∧ (h.acquire now conn).2.Current now grant.token := by
  have acquires : LeaseWorld.Acquires (h.leaseWorld now) conn (h.lease.acquire now conn) := fenced.acquires conn
  unfold acquire at out ⊢
  generalize h.lease.acquire now conn = result at acquires out ⊢
  cases acquires with
  | busy holder current => nomatch out
  | exhausted free => nomatch out
  | granted token free next =>
      obtain rfl : (⟨⟨token⟩⟩ : LeaseGrant) = grant := Except.ok.inj (Option.some.inj out)
      have next : token.toNat = h.lease.inner.token.toNat + 1 := next
      refine ⟨rfl, rfl, ?_, ?_, free, ?_⟩
      · intro t mem
        have known := UInt64.le_iff_toNat_le.mp (fenced.known t mem)
        have known : t.get.toNat ≤ h.lease.inner.token.toNat := known
        rw [UInt64.lt_iff_toNat_lt]
        show t.get.toNat < token.toNat
        omega
      · intro zero
        rw [FencingToken.mk.inj zero] at next
        have none_ : (0 : UInt64).toNat = 0 := rfl
        omega
      · refine LeaseManager.isCurrent_iff.mpr ⟨rfl, rfl, ?_⟩
        show now - now ≤ _
        rw [Nat.sub_self]
        exact Nat.zero_le _

/-- An acquire that gives nothing changes nothing. -/
theorem acquire_refused {conn : ConnId} (out : ∀ grant, (h.acquire now conn).1 ≠ some (.ok grant)) :
    (h.acquire now conn).2.granted = h.granted ∧ (h.acquire now conn).2.pty = h.pty := by
  unfold acquire at out ⊢
  generalize h.lease.acquire now conn = result at out ⊢
  rcases result with ⟨_ | _ | grant, lease⟩
  · exact ⟨rfl, rfl⟩
  · exact ⟨rfl, rfl⟩
  · exact absurd rfl (out grant)

end PtyHub

/-! ## Before, with and after the lease -/

namespace DriveStage

/-- The connection has not been granted anything. -/
def early : DriveStage → Bool
  | .starting => true
  | .first => true
  | .opening => true
  | .finding => true
  | .denying _ => true
  | .acquiring => true
  | _ => false

/-- The connection has a grant. -/
def holds : DriveStage → Bool
  | .starting => false
  | .first => false
  | .opening => false
  | .finding => false
  | .denying _ => false
  | .acquiring => false
  | .retiring => false
  | .delisting => false
  | .ended _ => false
  | .panicked => false
  | _ => true

theorem early_of_holds {stage : DriveStage} (holds : stage.holds = true) : stage.early = false := by
  cases stage <;> first | rfl | nomatch holds

/-- Where the loop goes within a turn, and out of it. -/
inductive Loop : DriveStage → Prop where
  | receiving : Loop .receiving
  | writing (slice : Bytes) (rest : List Bytes) : Loop (.writing slice rest)
  | draining (next : Option (List Bytes)) : Loop (.draining next)
  | sending (chunk : Bytes) (rest : List Bytes) (next : Option (List Bytes)) : Loop (.sending chunk rest next)
  | polling (second : Bool) : Loop (.polling second)
  | gracing : Loop .gracing
  | checking : Loop .checking
  | leaving : Loop .leaving

theorem Loop.holds {stage : DriveStage} (loop : stage.Loop) : stage.holds = true := by
  cases loop <;> rfl

theorem not_holds_of_early {stage : DriveStage} (early : stage.early = true) : stage.holds = false := by
  cases stage <;> first | rfl | nomatch early

end DriveStage

namespace Drive

variable {c : Drive}

theorem loop_again : c.again.Loop := by
  unfold again
  split
  · exact .receiving
  · exact .leaving

theorem loop_check : c.check.Loop := by
  unfold check
  split
  · exact .checking
  · exact loop_again

theorem loop_grace : c.grace.Loop := by
  unfold grace
  split
  · exact .gracing
  · exact loop_check

theorem loop_turn : c.turn.Loop := by
  unfold turn
  split
  · exact .polling _
  · exact loop_grace

theorem loop_drainTurn : c.drainTurn.Loop := by
  unfold drainTurn
  split
  · exact loop_turn
  · exact .draining none

theorem loop_goOn (slices : List Bytes) : (c.goOn slices).Loop := by
  cases slices with
  | nil => exact loop_drainTurn
  | cons slice rest => exact .writing slice rest

theorem loop_drainBetween (rest : List Bytes) : (c.drainBetween rest).Loop := by
  unfold drainBetween
  split
  · exact loop_goOn rest
  · exact .draining (some rest)

theorem loop_drained (next : Option (List Bytes)) : (c.drained next).Loop := by
  cases next with
  | none => exact loop_turn
  | some rest => exact loop_goOn rest

theorem loop_drainFailed (next : Option (List Bytes)) : (c.drainFailed next).Loop := by
  cases next with
  | none => exact .leaving
  | some rest => exact loop_drainTurn

theorem loop_flush (next : Option (List Bytes)) : (c.flush next).Loop := by
  unfold flush
  split
  · exact loop_drained next
  · exact .sending _ _ next

@[simp] theorem holds_again : c.again.holds = true := loop_again.holds

@[simp] theorem holds_check : c.check.holds = true := loop_check.holds

@[simp] theorem holds_grace : c.grace.holds = true := loop_grace.holds

@[simp] theorem holds_turn : c.turn.holds = true := loop_turn.holds

@[simp] theorem holds_drainTurn : c.drainTurn.holds = true := loop_drainTurn.holds

@[simp] theorem holds_goOn (slices : List Bytes) : (c.goOn slices).holds = true := (loop_goOn slices).holds

@[simp] theorem holds_drainBetween (rest : List Bytes) : (c.drainBetween rest).holds = true :=
  (loop_drainBetween rest).holds

@[simp] theorem holds_drained (next : Option (List Bytes)) : (c.drained next).holds = true := (loop_drained next).holds

@[simp] theorem holds_drainFailed (next : Option (List Bytes)) : (c.drainFailed next).holds = true :=
  (loop_drainFailed next).holds

@[simp] theorem holds_flush (next : Option (List Bytes)) : (c.flush next).holds = true := (loop_flush next).holds

@[simp] theorem holds_goes {c : Drive} {f : Drive → DriveStage} : (c.goes f).stage.holds = (f c).holds := rfl

/-- What a frame does, by what the loop makes of it. -/
theorem handles_cases {p : Drive → Prop} (fresh : Bool) (c : Drive) (f : TerminalFrame)
    (input : ∀ data, f = .input data → fresh = true → p (c.goes (goOn (slices data))))
    (resize : ∀ rows cols, f = .resize rows cols → p ({ c with window := ⟨rows, cols⟩ }.at_ .resizing))
    (ping : f = .ping → p (c.goes drainTurn)) (leaves : ∀ ends, p ((c.ending ends).at_ .leaving)) :
    p (c.handles fresh f) := by
  cases f with
  | input data =>
      cases fresh with
      | true => exact input data rfl rfl
      | false => exact leaves .fenced
  | resize rows cols =>
      cases fresh with
      | true => exact resize rows cols rfl
      | false => exact leaves .fenced
  | ping => exact ping rfl
  | _ => exact leaves .protocol

/-- It is a matter of the stage, of `end` and of the window. -/
theorem handles_eq (fresh : Bool) (c : Drive) (f : TerminalFrame) :
    ∃ stage ends window, stage.holds = true ∧ c.handles fresh f = { c with stage, ends, window } := by
  refine c.handles_cases (p := fun c' => ∃ stage ends window, stage.holds = true ∧ c' = { c with stage, ends, window })
    fresh f ?_ ?_ ?_ ?_
  · exact fun data _ _ => ⟨_, c.ends, c.window, holds_goOn (slices data), rfl⟩
  · exact fun _ _ _ => ⟨.resizing, c.ends, _, rfl, rfl⟩
  · exact fun _ => ⟨_, c.ends, c.window, holds_drainTurn, rfl⟩
  · exact fun ends => ⟨.leaving, some ends, c.window, rfl, rfl⟩

variable {opts : ServeOptions} {now : Nat} {act : DriveAct} {h : PtyHub} {out : Drive × PtyHub}

theorem Moves.handle (moves : Moves opts now act c h out) : out.1.handle = c.handle := by
  cases moves with
  | beats f was =>
      obtain ⟨stage, ends, window, -, same⟩ := c.handles_eq (h.heartbeat now c.token).1.toBool f
      rw [same]
  | reads next n bytes was =>
      dsimp only
      split <;> rfl
  | _ => rfl

/-- **A terminal's lease goes the ways of a lease.** -/
theorem Moves.lease (moves : Moves opts now act c h out) : PtyHub.LeaseStep now h out.2 := by
  cases moves with
  | panics => exact PtyHub.leaseStep_acquire _
  | busy => exact PtyHub.leaseStep_acquire _
  | granted => exact PtyHub.leaseStep_acquire _
  | beats => exact PtyHub.leaseStep_heartbeat
  | writes => exact PtyHub.leaseStep_writeInput _ _
  | rejected => exact PtyHub.leaseStep_writeInput _ _
  | reads => exact PtyHub.leaseStep_of_same rfl rfl (Pty.writes_readTimeout ..)
  | readsNothing => exact PtyHub.leaseStep_of_same rfl rfl (Pty.writes_readTimeout ..)
  | pollsRunning => exact PtyHub.leaseStep_of_same rfl rfl (Pty.writes_pollExit ..)
  | pollsFirst => exact PtyHub.leaseStep_of_same rfl rfl (Pty.writes_pollExit ..)
  | pollsExit => exact PtyHub.leaseStep_of_same rfl rfl (Pty.writes_pollExit ..)
  | leaves => exact PtyHub.leaseStep_dropGrant
  | returns => exact PtyHub.leaseStep_dropGrant
  | _ => exact .refl

/-- A token comes with a grant, and with nothing else. -/
inductive Tokens (now : Nat) (c : Drive) (h : PtyHub) : Drive × PtyHub → Prop where
  | kept (out : Drive × PtyHub) (token : out.1.token = c.token) (granted : out.2.granted = h.granted)
      (holds : out.1.stage.holds = true → c.stage.holds = true)
      (early : out.1.stage.early = true → c.stage.early = true) : Tokens now c h out
  | granted (grant : LeaseGrant) (was : c.stage = .acquiring)
      (out : (h.acquire now c.conn).1 = some (.ok grant)) :
      Tokens now c h
        ({ c with token := grant.token, base := h.pty.emitted.length - h.pty.output.length }.at_ .granting,
          (h.acquire now c.conn).2)

/-- A step within the time of the lease. -/
theorem Tokens.within {out : Drive × PtyHub} (was : c.stage.holds = true) (token : out.1.token = c.token)
    (granted : out.2.granted = h.granted) (holds : out.1.stage.holds = true) : Tokens now c h out :=
  .kept out token granted (fun _ => was) fun early => by
    rw [DriveStage.early_of_holds holds] at early
    nomatch early

theorem Moves.tokens (moves : Moves opts now act c h out) : Tokens now c h out := by
  cases moves with
  | stays => exact .kept _ rfl rfl id id
  | panics was none_ =>
      have refused := (PtyHub.acquire_refused (by rw [none_]; nofun)).1
      exact .kept _ rfl refused nofun nofun
  | busy denied was denied_ =>
      have refused := (PtyHub.acquire_refused (by rw [denied_]; nofun)).1
      exact .kept _ rfl refused nofun fun _ => by rw [was]; rfl
  | granted grant was out => exact .granted grant was out
  | announces was => exact .within (by rw [was]; rfl) rfl rfl rfl
  | fails e was =>
      refine .within ?_ rfl rfl rfl
      rcases was with was | ⟨status, was⟩ <;> rw [was] <;> rfl
  | aligns was => exact .within (by rw [was]; rfl) rfl rfl rfl
  | receives f was => exact .within (by rw [was]; rfl) rfl rfl rfl
  | idles was => exact .within (by rw [was]; rfl) rfl rfl holds_drainTurn
  | hangsUp ends was => exact .within (by rw [was]; rfl) rfl rfl rfl
  | beats f was =>
      obtain ⟨stage, ends, window, holds, same⟩ := c.handles_eq (h.heartbeat now c.token).1.toBool f
      rw [same]
      exact .within (by rw [was]; rfl) rfl rfl holds
  | writes slice rest rounds was =>
      refine .within (by rw [was]; rfl) rfl ?_ (holds_drainBetween rest)
      rfl
  | rejected slice rest rounds ends was => exact .within (by rw [was]; rfl) rfl rfl holds_drainTurn
  | resizes set was => exact .within (by rw [was]; rfl) rfl rfl holds_drainTurn
  | outdated was => exact .within (by rw [was]; rfl) rfl rfl rfl
  | readFails next was => exact .within (by rw [was]; rfl) rfl rfl (holds_drainFailed next)
  | reads next n bytes was =>
      refine .within (by rw [was]; rfl) ?_ rfl ?_
      · dsimp only
        split <;> rfl
      · dsimp only
        split
        · exact holds_flush next
        · show c.stage.holds = true
          rw [was]
          rfl
  | readsNothing next n eof was => exact .within (by rw [was]; rfl) rfl rfl (holds_flush next)
  | sendsLast chunk next was => exact .within (by rw [was]; rfl) rfl rfl (holds_drained next)
  | sendsMore chunk other rest next was => exact .within (by rw [was]; rfl) rfl rfl rfl
  | sendFails chunk rest next e was => exact .within (by rw [was]; rfl) rfl rfl (holds_drainFailed next)
  | pollsRunning second ok was => exact .within (by rw [was]; rfl) rfl rfl holds_grace
  | pollsFirst ok was => exact .within (by rw [was]; rfl) rfl rfl rfl
  | pollsExit ok status was => exact .within (by rw [was]; rfl) rfl rfl rfl
  | exits status was => exact .within (by rw [was]; rfl) rfl rfl rfl
  | graceOver ends was => exact .within (by rw [was]; rfl) rfl rfl rfl
  | graceGoes was => exact .within (by rw [was]; rfl) rfl rfl holds_check
  | checks was => exact .within (by rw [was]; rfl) rfl rfl holds_again
  | lapses was => exact .within (by rw [was]; rfl) rfl rfl rfl
  | judged ends was => exact .within (by rw [was]; rfl) rfl rfl rfl
  | leaves was => exact .kept _ rfl rfl nofun nofun
  | retires was =>
      refine .kept _ rfl rfl ?_ ?_
      · show (if _ then _ else _ : DriveStage).holds = true → _
        split <;> nofun
      · show (if _ then _ else _ : DriveStage).early = true → _
        split <;> nofun
  | returns e was => exact .kept _ rfl rfl nofun nofun

/-- Without a grant a connection on its terminal sends, reads and receives nothing. -/
theorem Moves.quiet (moves : Moves opts now act c h out) (none_ : c.stage.holds = false) :
    out.1.sent = c.sent ∧ out.1.exit = c.exit ∧ out.1.pending = c.pending ∧ out.1.frames = c.frames := by
  cases moves with
  | stays => exact ⟨rfl, rfl, rfl, rfl⟩
  | panics => exact ⟨rfl, rfl, rfl, rfl⟩
  | busy => exact ⟨rfl, rfl, rfl, rfl⟩
  | granted => exact ⟨rfl, rfl, rfl, rfl⟩
  | retires => exact ⟨rfl, rfl, rfl, rfl⟩
  | fails e was =>
      rcases was with was | ⟨status, was⟩ <;> rw [was] at none_ <;> nomatch none_
  | announces was => rw [was] at none_; nomatch none_
  | aligns was => rw [was] at none_; nomatch none_
  | receives f was => rw [was] at none_; nomatch none_
  | idles was => rw [was] at none_; nomatch none_
  | hangsUp ends was => rw [was] at none_; nomatch none_
  | beats f was => rw [was] at none_; nomatch none_
  | writes slice rest rounds was => rw [was] at none_; nomatch none_
  | rejected slice rest rounds ends was => rw [was] at none_; nomatch none_
  | resizes set was => rw [was] at none_; nomatch none_
  | outdated was => rw [was] at none_; nomatch none_
  | readFails next was => rw [was] at none_; nomatch none_
  | reads next n bytes was => rw [was] at none_; nomatch none_
  | readsNothing next n eof was => rw [was] at none_; nomatch none_
  | sendsLast chunk next was => rw [was] at none_; nomatch none_
  | sendsMore chunk other rest next was => rw [was] at none_; nomatch none_
  | sendFails chunk rest next e was => rw [was] at none_; nomatch none_
  | pollsRunning second ok was => rw [was] at none_; nomatch none_
  | pollsFirst ok was => rw [was] at none_; nomatch none_
  | pollsExit ok status was => rw [was] at none_; nomatch none_
  | exits status was => rw [was] at none_; nomatch none_
  | graceOver ends was => rw [was] at none_; nomatch none_
  | graceGoes was => rw [was] at none_; nomatch none_
  | checks was => rw [was] at none_; nomatch none_
  | lapses was => rw [was] at none_; nomatch none_
  | judged ends was => rw [was] at none_; nomatch none_
  | leaves was => rw [was] at none_; nomatch none_
  | returns e was => rw [was] at none_; nomatch none_

end Drive

/-! ## All connections -/

/-- What a step before the lease leaves as it was; a denial that is sent is the end. -/
structure Drive.Untouched (c' c : Drive) : Prop where
  frames : c'.frames = c.frames
  exit : c'.exit = c.exit
  pending : c'.pending = c.pending
  ptyEof : c'.ptyEof = c.ptyEof
  sent : c'.sent = c.sent ∨ c'.stage.early = false ∧ ∃ reason, c'.sent = c.sent ++ [.denied reason]

theorem Drive.Untouched.of_rfl {c' c : Drive} (frames : c'.frames = c.frames) (exit : c'.exit = c.exit)
    (pending : c'.pending = c.pending) (ptyEof : c'.ptyEof = c.ptyEof) (sent : c'.sent = c.sent) :
    c'.Untouched c :=
  ⟨frames, exit, pending, ptyEof, .inl sent⟩

/-- Nothing was received in the loop, read or sent. -/
structure Drive.Fresh (c : Drive) : Prop where
  frames : c.frames = []
  exit : c.exit = none
  pending : c.pending = []
  sent : c.sent = []

/-- Nothing was sent but a denial. -/
structure Drive.Unheard (c : Drive) : Prop where
  exit : c.exit = none
  sent : ∀ f ∈ c.sent, ∃ reason, f = .denied reason

theorem Drive.Fresh.unheard {c : Drive} (fresh : c.Fresh) : c.Unheard := by
  refine ⟨fresh.exit, ?_⟩
  rw [fresh.sent]
  nofun

namespace World

/-- What a step of a connection does to the world: before its lease, on its terminal, or as
the last one of all. -/
inductive ConnMoves (w : World) (k : Nat) (c : Drive) (act : DriveAct) : World → Prop where
  | stays : ConnMoves w k c act w
  | early (registry : TerminalRegistry) (c' : Drive) (was : c.stage.early = true)
      (next : w.registry.nextHandle.toNat ≤ registry.nextHandle.toNat) (token : c'.token = c.token)
      (quiet : c'.stage.holds = false) (same : c'.Untouched c) :
      ConnMoves w k c act ({ w with registry }.setConn k c')
  | opens (registry : TerminalRegistry) (h : PtyHub) (was : c.stage = .opening)
      (next : registry.nextHandle.toNat = w.registry.nextHandle.toNat + 1)
      (made : PtyHub.fromParts w.registry.leaseTimeout w.clock = some h) :
      ConnMoves w k c act (({ w with registry }.setHub w.registry.nextHandle h).setConn k
        ({ c with handle := w.registry.nextHandle }.at_ .acquiring))
  | drives (h : PtyHub) (out : Drive × PtyHub) (here : w.hub c.handle = some h)
      (moves : Drive.Moves w.opts w.clock act c h out) (same : out = c.onHub w.opts w.clock act h) :
      ConnMoves w k c act ((w.setHub c.handle out.2).setConn k out.1)
  | delists (registry : TerminalRegistry) (was : c.stage = .delisting)
      (next : registry.nextHandle = w.registry.nextHandle) :
      ConnMoves w k c act ({ w with registry }.setConn k (c.at_ (.ended (.ok c.summary))))

variable {w : World} {k : Nat} {c : Drive} {act : DriveAct}

theorem ConnMoves.setConn (c' : Drive) (was : c.stage.early = true) (token : c'.token = c.token)
    (quiet : c'.stage.holds = false) (same : c'.Untouched c) : ConnMoves w k c act (w.setConn k c') :=
  .early w.registry c' was (le_refl _) token quiet same

theorem open_moves (was : c.stage = .opening) (spawned : Bool) :
    ConnMoves w k c act (w.open_ k c spawned) := by
  have early : c.stage.early = true := by rw [was]; rfl
  unfold open_
  cases next : checkedAdd w.registry.nextHandle 1 with
  | none => exact .setConn _ early rfl rfl (.of_rfl rfl rfl rfl rfl rfl)
  | some nextHandle =>
      have more : nextHandle.toNat = w.registry.nextHandle.toNat + 1 := (checkedAdd_eq_some.mp next).2
      have le : w.registry.nextHandle.toNat ≤ nextHandle.toNat := by omega
      dsimp only
      split
      · cases made : PtyHub.fromParts w.registry.leaseTimeout w.clock with
        | none => exact .early { w.registry with nextHandle } _ early le rfl rfl (.of_rfl rfl rfl rfl rfl rfl)
        | some h =>
            exact .opens { w.registry with
              nextHandle, hubs := w.registry.hubs ++ [w.registry.nextHandle] } h was more made
      · exact .early { w.registry with nextHandle } _ early le rfl rfl (.of_rfl rfl rfl rfl rfl rfl)

theorem connStep_moves (w : World) (k : Nat) (c : Drive) (act : DriveAct) :
    ConnMoves w k c act (w.connStep k c act) := by
  unfold connStep
  split
  case h_1 was => exact .setConn _ (by rw [was]; rfl) rfl rfl (.of_rfl rfl rfl rfl rfl rfl)
  case h_2 was => exact .setConn _ (by rw [was]; rfl) rfl rfl (.of_rfl rfl rfl rfl rfl rfl)
  case h_3 was => exact .setConn _ (by rw [was]; rfl) rfl rfl (.of_rfl rfl rfl rfl rfl rfl)
  case h_4 was => exact .setConn _ (by rw [was]; rfl) rfl rfl (.of_rfl rfl rfl rfl rfl rfl)
  case h_5 was => exact .setConn _ (by rw [was]; rfl) rfl rfl (.of_rfl rfl rfl rfl rfl rfl)
  case h_6 was => exact .setConn _ (by rw [was]; rfl) rfl rfl (.of_rfl rfl rfl rfl rfl rfl)
  case h_7 was =>
    split
    · exact .setConn _ (by rw [was]; rfl) rfl rfl (.of_rfl rfl rfl rfl rfl rfl)
    · exact .stays
  case h_8 was => exact open_moves was _
  case h_9 was =>
    refine .setConn _ (by rw [was]; rfl) rfl ?_ (.of_rfl rfl rfl rfl rfl rfl)
    show (if _ then _ else _ : DriveStage).holds = false
    split <;> rfl
  case h_10 reason was =>
    exact .setConn _ (by rw [was]; rfl) rfl rfl ⟨rfl, rfl, rfl, rfl, .inr ⟨rfl, reason, rfl⟩⟩
  case h_11 was => exact .setConn _ (by rw [was]; rfl) rfl rfl (.of_rfl rfl rfl rfl rfl rfl)
  case h_12 was => exact .delists _ was rfl
  case h_13 =>
    split
    · exact .stays
    · rename_i h here
      exact .drives h _ here (c.onHub_moves w.opts w.clock _ h) rfl

/-- A connection that has a token has it from its terminal, and has it alone. -/
structure Leased (w : World) : Prop where
  fenced : ∀ handle h, w.hub handle = some h → Fenced (h.leaseWorld w.clock)
  below : ∀ handle h, w.hub handle = some h → handle.toNat < w.registry.nextHandle.toNat
  known : ∀ c ∈ w.conns, c.token ≠ ⟨0⟩ → ∃ h, w.hub c.handle = some h ∧ c.token ∈ h.granted
  distinct : ∀ (k k' : Nat) (c c' : Drive), w.conns[k]? = some c → w.conns[k']? = some c' → c.token ≠ ⟨0⟩ →
    c.handle = c'.handle → c.token = c'.token → k = k'
  holds : ∀ c ∈ w.conns, c.stage.holds = true → c.token ≠ ⟨0⟩
  early : ∀ c ∈ w.conns, c.stage.early = true → c.token = ⟨0⟩

namespace Leased

theorem start (opts : ServeOptions) (leaseTimeout : Nat) : Leased (.start opts leaseTimeout) where
  fenced _ _ here := nomatch here
  below _ _ here := nomatch here
  known _ mem := absurd mem List.not_mem_nil
  distinct _ _ _ _ here := absurd (List.mem_of_getElem? here) List.not_mem_nil
  holds _ mem := absurd mem List.not_mem_nil
  early _ mem := absurd mem List.not_mem_nil

/-- A connection is replaced, its token kept or new to the terminal. -/
theorem replace (leased : Leased w) (here : w.conns[k]? = some c) {w' : World} {c' : Drive}
    (conns : w'.conns = w.conns.set k c')
    (fenced : ∀ handle h, w'.hub handle = some h → Fenced (h.leaseWorld w'.clock))
    (below : ∀ handle h, w'.hub handle = some h → handle.toNat < w'.registry.nextHandle.toNat)
    (more : ∀ handle h, w.hub handle = some h → ∃ h', w'.hub handle = some h' ∧ h.granted ⊆ h'.granted)
    (own : c'.token ≠ ⟨0⟩ → ∃ h, w'.hub c'.handle = some h ∧ c'.token ∈ h.granted)
    (apart : c'.token ≠ ⟨0⟩ → ∀ j c'', j ≠ k → w.conns[j]? = some c'' → c''.handle = c'.handle →
      c''.token ≠ c'.token)
    (holds : c'.stage.holds = true → c'.token ≠ ⟨0⟩) (early : c'.stage.early = true → c'.token = ⟨0⟩) :
    Leased w' := by
  have inside := (List.getElem?_eq_some_iff.mp here).1
  have self : w'.conns[k]? = some c' := by rw [conns, List.getElem?_set_self inside]
  have others : ∀ j, j ≠ k → w'.conns[j]? = w.conns[j]? := by
    intro j ne
    rw [conns, List.getElem?_set_ne (Ne.symm ne)]
  have old : ∀ c'' ∈ w'.conns, c'' = c' ∨ c'' ∈ w.conns := by
    intro c'' mem
    rw [conns] at mem
    exact (List.mem_or_eq_of_mem_set mem).symm
  refine ⟨fenced, below, ?_, ?_, ?_, ?_⟩
  · intro c'' mem token
    rcases old c'' mem with rfl | before
    · exact own token
    · obtain ⟨h, at_, granted⟩ := leased.known c'' before token
      obtain ⟨h', now_, subset⟩ := more _ h at_
      exact ⟨h', now_, subset granted⟩
  · intro j j' c₁ c₂ first second token handle same
    by_cases one : j = k
    · subst one
      obtain rfl : c' = c₁ := Option.some.inj (self.symm.trans first)
      by_cases two : j' = j
      · exact two.symm
      · rw [others j' two] at second
        exact absurd same.symm (apart token j' c₂ two second handle.symm)
    · rw [others j one] at first
      by_cases two : j' = k
      · subst two
        obtain rfl : c' = c₂ := Option.some.inj (self.symm.trans second)
        exact absurd same (apart (same ▸ token) j c₁ one first handle)
      · rw [others j' two] at second
        exact leased.distinct j j' c₁ c₂ first second token handle same
  · intro c'' mem
    rcases old c'' mem with rfl | before
    · exact holds
    · exact leased.holds c'' before
  · intro c'' mem
    rcases old c'' mem with rfl | before
    · exact early
    · exact leased.early c'' before

/-- The terminals stay, one of them with more tokens. -/
theorem more_of_update {handle : UInt64} {h h' : PtyHub} (here : w.hub handle = some h)
    (granted : h.granted ⊆ h'.granted) (handle' : UInt64) (g : PtyHub) (there : w.hub handle' = some g) :
    ∃ g', Function.update w.hub handle (some h') handle' = some g' ∧ g.granted ⊆ g'.granted := by
  by_cases same : handle' = handle
  · subst same
    obtain rfl : h = g := Option.some.inj (here.symm.trans there)
    exact ⟨h', Function.update_self .., granted⟩
  · rw [Function.update_of_ne same]
    exact ⟨g, there, List.Subset.refl _⟩

/-- What holds of every terminal holds once one of them is replaced. -/
theorem forall_update {p : UInt64 → PtyHub → Prop} {handle : UInt64} {h : PtyHub}
    (all : ∀ handle h, w.hub handle = some h → p handle h) (one : p handle h) (handle' : UInt64) (g : PtyHub)
    (there : Function.update w.hub handle (some h) handle' = some g) : p handle' g := by
  by_cases same : handle' = handle
  · subst same
    rw [Function.update_self] at there
    rw [← Option.some.inj there]
    exact one
  · rw [Function.update_of_ne same] at there
    exact all handle' g there

theorem drives (leased : Leased w) (here : w.conns[k]? = some c) {h : PtyHub} (hub : w.hub c.handle = some h)
    {out : Drive × PtyHub} (moves : Drive.Moves w.opts w.clock act c h out) :
    Leased ((w.setHub c.handle out.2).setConn k out.1) := by
  have mem := List.mem_of_getElem? here
  have fencedHere := leased.fenced _ h hub
  have fenced := moves.lease.fenced fencedHere
  have handle := moves.handle
  have tokens := moves.tokens
  cases tokens with
  | kept out token granted holds early =>
      refine leased.replace here rfl (forall_update leased.fenced fenced)
        (forall_update leased.below (leased.below _ h hub)) (more_of_update hub (by rw [granted]; simp)) ?_ ?_ ?_ ?_
      · intro some_
        rw [token] at some_
        obtain ⟨g, at_, known⟩ := leased.known c mem some_
        obtain rfl : h = g := Option.some.inj (hub.symm.trans at_)
        refine ⟨out.2, ?_, by rw [granted, token]; exact known⟩
        show Function.update w.hub c.handle (some out.2) out.1.handle = _
        rw [handle, Function.update_self]
      · intro some_ j c'' ne there sameHandle same
        rw [token] at some_ same
        exact ne (leased.distinct k j c c'' here there some_ (sameHandle.trans handle).symm same.symm).symm
      · intro held
        rw [token]
        exact leased.holds c mem (holds held)
      · intro before
        rw [token]
        exact leased.early c mem (early before)
  | granted grant was acquired =>
      obtain ⟨granted, -, above, positive, -, -⟩ := PtyHub.acquire_granted fencedHere acquired
      refine leased.replace here rfl (forall_update leased.fenced fenced)
        (forall_update leased.below (leased.below _ h hub)) (more_of_update hub (by rw [granted]; simp)) ?_ ?_ ?_ ?_
      · intro _
        refine ⟨_, Function.update_self .., ?_⟩
        rw [granted]
        exact List.mem_append_right _ (List.mem_singleton_self _)
      · intro _ j c'' ne there sameHandle same
        have some_ : c''.token ≠ ⟨0⟩ := by
          rw [same]
          exact positive
        obtain ⟨g, at_, known⟩ := leased.known c'' (List.mem_of_getElem? there) some_
        rw [sameHandle] at at_
        obtain rfl : h = g := Option.some.inj (hub.symm.trans at_)
        have below := above _ known
        rw [same] at below
        exact absurd below (UInt64.lt_irrefl _)
      · exact fun _ => positive
      · exact nofun

theorem conn (leased : Leased w) (here : w.conns[k]? = some c) {w' : World} (moves : ConnMoves w k c act w') :
    Leased w' := by
  have mem := List.mem_of_getElem? here
  cases moves with
  | stays => exact leased
  | early registry c' was next token quiet same =>
      have zero := token.trans (leased.early c mem was)
      refine leased.replace here rfl leased.fenced
        (fun handle h at_ => Nat.lt_of_lt_of_le (leased.below handle h at_) next)
        (fun handle h at_ => ⟨h, at_, List.Subset.refl _⟩) (absurd zero) (absurd zero) ?_ (fun _ => zero)
      intro held
      rw [quiet] at held
      nomatch held
  | opens registry h was next made =>
      have zero := leased.early c mem (by rw [was]; rfl)
      obtain ⟨lease, new, rfl⟩ := Option.map_eq_some_iff.mp made
      have fresh : Fenced (PtyHub.leaseWorld w.clock { lease, pty := .new, granted := [] }) := .start new
      have grows : w.registry.nextHandle.toNat < registry.nextHandle.toNat := by omega
      refine leased.replace here rfl (forall_update leased.fenced fresh)
        (forall_update (fun handle h at_ => (leased.below handle h at_).trans grows) grows) ?_
        (absurd zero) (absurd zero) nofun (fun _ => zero)
      intro handle g at_
      have below := leased.below handle g at_
      refine ⟨g, ?_, List.Subset.refl _⟩
      show Function.update w.hub w.registry.nextHandle _ handle = some g
      rw [Function.update_of_ne (by rintro rfl; omega)]
      exact at_
  | drives h out hub moves => exact leased.drives here hub moves
  | delists registry was next =>
      refine leased.replace here rfl leased.fenced (fun handle h at_ => ?_)
        (fun handle h at_ => ⟨h, at_, List.Subset.refl _⟩) (leased.known c mem) ?_ nofun nofun
      · show _ < registry.nextHandle.toNat
        rw [next]
        exact leased.below handle h at_
      · intro some_ j c'' ne there sameHandle same
        exact ne (leased.distinct k j c c'' here there some_ sameHandle.symm same.symm).symm

/-- What happens to a PTY alone. -/
theorem onPty (leased : Leased w) (handle : UInt64) {f : Pty → Pty} (writes : ∀ p, (f p).writes = p.writes) :
    Leased (w.onPty handle f) := by
  unfold World.onPty
  cases here : w.hub handle with
  | none => exact leased
  | some h =>
      have fenced : Fenced (PtyHub.leaseWorld w.clock { h with pty := f h.pty }) := by
        have same : PtyHub.leaseWorld w.clock { h with pty := f h.pty } = h.leaseWorld w.clock := by
          simp only [PtyHub.leaseWorld, writes]
        rw [same]
        exact leased.fenced _ h here
      refine ⟨forall_update leased.fenced fenced, forall_update leased.below (leased.below _ h here), ?_,
        leased.distinct, leased.holds, leased.early⟩
      intro c mem token
      obtain ⟨g, at_, granted⟩ := leased.known c mem token
      obtain ⟨g', there, subset⟩ :=
        @more_of_update w handle h { h with pty := f h.pty } here (List.Subset.refl _) _ g at_
      exact ⟨g', there, subset granted⟩

theorem pass (leased : Leased w) (time : Nat) : Leased { w with clock := w.clock + time } where
  fenced handle h here := (leased.fenced handle h here).step (.pass time)
  below := leased.below
  known := leased.known
  distinct := leased.distinct
  holds := leased.holds
  early := leased.early

theorem connect (leased : Leased w) : Leased (World.step .connect w) := by
  have old : ∀ (k : Nat) (c : Drive), (w.conns ++ [Drive.start (w.registry.connCounter + 1)])[k]? = some c → c.token ≠ ⟨0⟩ →
      w.conns[k]? = some c := by
    intro k c here token
    rcases Nat.lt_or_ge k w.conns.length with inside | outside
    · rwa [List.getElem?_append_left inside] at here
    · rw [List.getElem?_append_right outside] at here
      rw [List.mem_singleton.mp (List.mem_of_getElem? here)] at token
      exact absurd rfl token
  refine ⟨leased.fenced, leased.below, ?_, ?_, ?_, ?_⟩
  · intro c mem token
    obtain ⟨k, here⟩ := List.getElem?_of_mem mem
    exact leased.known c (List.mem_of_getElem? (old k c here token)) token
  · intro k k' c c' first second token handle same
    exact leased.distinct k k' c c' (old k c first token) (old k' c' second (same ▸ token)) token handle same
  · intro c mem held
    rcases List.mem_append.mp mem with before | new
    · exact leased.holds c before held
    · rw [List.mem_singleton.mp new] at held
      nomatch held
  · intro c mem before
    rcases List.mem_append.mp mem with older | new
    · exact leased.early c older before
    · rw [List.mem_singleton.mp new]
      rfl

theorem step (event : WorldEvent) (w : World) (leased : Leased w) : Leased (World.step event w) := by
  cases event with
  | connect => exact leased.connect
  | pass time => exact leased.pass time
  | emit handle bytes =>
      refine leased.onPty handle fun p => ?_
      unfold Pty.emit
      split <;> rfl
  | hangUp handle => exact leased.onPty handle fun _ => rfl
  | exits handle status =>
      refine leased.onPty handle fun p => ?_
      unfold Pty.ends
      split <;> rfl
  | conn k act =>
      unfold World.step
      dsimp only
      split
      · exact leased
      · rename_i c here
        exact leased.conn here (w.connStep_moves k c act)

/-- Tokens are in order in every run. -/
theorem run (opts : ServeOptions) (leaseTimeout : Nat) (events : List WorldEvent) :
    Leased (Library.run World.step events (.start opts leaseTimeout)) :=
  run_invariant World.step step events (.start opts leaseTimeout)

end Leased

/-- What holds of a terminal from the start, under the steps of its connections and whatever
its child does. -/
structure HubInvariant (p : PtyHub → Prop) : Prop where
  new : ∀ timeout now h, PtyHub.fromParts timeout now = some h → p h
  moved : ∀ opts now act c h out, Drive.Moves opts now act c h out → p h → p out.2
  emits : ∀ h bytes, p h → p { h with pty := h.pty.emit bytes }
  hangsUp : ∀ h, p h → p { h with pty := h.pty.hangUp }
  ends : ∀ h status, p h → p { h with pty := h.pty.ends status }

namespace HubInvariant

variable {p : PtyHub → Prop}

theorem step (inv : HubInvariant p) (event : WorldEvent) (w : World)
    (all : ∀ handle h, w.hub handle = some h → p h) : ∀ handle h, (w.step event).hub handle = some h → p h := by
  have onPty : ∀ handle (f : Pty → Pty), (∀ h, p h → p { h with pty := f h.pty }) →
      ∀ handle' h, (w.onPty handle f).hub handle' = some h → p h := by
    intro handle f keeps
    unfold World.onPty
    cases here : w.hub handle with
    | none => exact all
    | some h => exact Leased.forall_update all (keeps h (all handle h here))
  cases event with
  | connect => exact all
  | pass time => exact all
  | emit handle bytes => exact onPty handle _ fun h => inv.emits h bytes
  | hangUp handle => exact onPty handle _ inv.hangsUp
  | exits handle status => exact onPty handle _ fun h => inv.ends h status
  | conn k act =>
      unfold World.step
      dsimp only
      split
      · exact all
      · rename_i c here
        have moves := w.connStep_moves k c act
        generalize w.connStep k c act = w' at moves
        cases moves with
        | stays => exact all
        | early registry c' => exact all
        | opens registry h was next made => exact Leased.forall_update all (inv.new _ _ h made)
        | drives h out at_ moves => exact Leased.forall_update all (inv.moved _ _ _ _ h out moves (all _ h at_))
        | delists registry => exact all

/-- It holds of every terminal in every run. -/
theorem run (inv : HubInvariant p) (opts : ServeOptions) (leaseTimeout : Nat) (events : List WorldEvent) :
    ∀ handle h, (Library.run World.step events (.start opts leaseTimeout)).hub handle = some h → p h := by
  have none_ : ∀ handle h, (World.start opts leaseTimeout).hub handle = some h → p h :=
    fun _ _ here => nomatch here
  exact run_invariant World.step inv.step events none_

end HubInvariant

/-- What holds of a connection and its terminal from the grant on, whatever the connection
does, and the others, and the terminal's child. -/
structure ConnInvariant (p : Drive → PtyHub → Prop) : Prop where
  granted : ∀ now (c : Drive) (h : PtyHub) (grant : LeaseGrant), Fenced (h.leaseWorld now) → c.Fresh →
    (h.acquire now c.conn).1 = some (.ok grant) →
      p ({ c with token := grant.token, base := h.pty.emitted.length - h.pty.output.length }.at_ .granting)
        (h.acquire now c.conn).2
  moved : ∀ opts now act (c : Drive) h (out : Drive × PtyHub), Drive.Moves opts now act c h out → c.stage.early = false → p c h →
    p out.1 out.2
  beside : ∀ opts now act (c d : Drive) h (out : Drive × PtyHub), Drive.Moves opts now act d h out →
    d.token ≠ c.token → p c h → p c out.2
  delisted : ∀ (c : Drive) h result, c.stage = .delisting → p c h → p (c.at_ (.ended result)) h
  emits : ∀ (c : Drive) (h : PtyHub) bytes, p c h → p c { h with pty := h.pty.emit bytes }
  hangsUp : ∀ (c : Drive) (h : PtyHub), p c h → p c { h with pty := h.pty.hangUp }
  ends : ∀ (c : Drive) (h : PtyHub) status, p c h → p c { h with pty := h.pty.ends status }

/-- What a `ConnInvariant` says of the whole world, with what its proof needs. -/
structure Keeping (p : Drive → PtyHub → Prop) (w : World) : Prop where
  leased : Leased w
  fresh : ∀ c ∈ w.conns, c.stage.early = true → c.Fresh
  unheard : ∀ c ∈ w.conns, c.token = ⟨0⟩ → c.Unheard
  keeps : ∀ c ∈ w.conns, c.token ≠ ⟨0⟩ → ∀ h, w.hub c.handle = some h → p c h

namespace ConnInvariant

variable {p : Drive → PtyHub → Prop}

theorem conn (inv : ConnInvariant p) (keeping : Keeping p w) (here : w.conns[k]? = some c) {w' : World}
    (moves : ConnMoves w k c act w') : Keeping p w' := by
  have leased := keeping.leased.conn here moves
  have mem := List.mem_of_getElem? here
  -- a connection that is there afterwards is the one that moved, or was there before
  have old : ∀ {c' c'' : Drive}, c'' ∈ w.conns.set k c' →
      c'' = c' ∨ ∃ j, j ≠ k ∧ w.conns[j]? = some c'' := by
    intro c' c'' mem'
    obtain ⟨j, there⟩ := List.getElem?_of_mem mem'
    by_cases same : j = k
    · rw [same, List.getElem?_set_self (List.getElem?_eq_some_iff.mp here).1] at there
      exact .inl (Option.some.inj there).symm
    · rw [List.getElem?_set_ne (Ne.symm same)] at there
      exact .inr ⟨j, same, there⟩
  cases moves with
  | stays => exact keeping
  | early registry c' was next token quiet same =>
      have zero := token.trans (keeping.leased.early c mem was)
      have fresh := keeping.fresh c mem was
      refine ⟨leased, ?_, ?_, ?_⟩
      · intro c'' mem' before
        rcases old mem' with rfl | ⟨j, -, there⟩
        · rcases same.sent with sent | ⟨late, -⟩
          · exact ⟨same.frames.trans fresh.frames, same.exit.trans fresh.exit, same.pending.trans fresh.pending,
              sent.trans fresh.sent⟩
          · rw [late] at before
            nomatch before
        · exact keeping.fresh c'' (List.mem_of_getElem? there) before
      · intro c'' mem' none_
        rcases old mem' with rfl | ⟨j, -, there⟩
        · refine ⟨same.exit.trans fresh.exit, fun f sent => ?_⟩
          rcases same.sent with sent' | ⟨-, reason, sent'⟩
          · rw [sent', fresh.sent] at sent
            nomatch sent
          · rw [sent', fresh.sent] at sent
            exact ⟨reason, List.mem_singleton.mp sent⟩
        · exact keeping.unheard c'' (List.mem_of_getElem? there) none_
      · intro c'' mem' some_
        rcases old mem' with rfl | ⟨j, -, there⟩
        · exact absurd zero some_
        · exact keeping.keeps c'' (List.mem_of_getElem? there) some_
  | opens registry h was next made =>
      have zero := keeping.leased.early c mem (by rw [was]; rfl)
      have fresh := keeping.fresh c mem (by rw [was]; rfl)
      refine ⟨leased, ?_, ?_, ?_⟩
      · intro c'' mem' before
        rcases old mem' with rfl | ⟨j, -, there⟩
        · exact ⟨fresh.frames, fresh.exit, fresh.pending, fresh.sent⟩
        · exact keeping.fresh c'' (List.mem_of_getElem? there) before
      · intro c'' mem' none_
        rcases old mem' with rfl | ⟨j, -, there⟩
        · exact ⟨fresh.unheard.exit, fresh.unheard.sent⟩
        · exact keeping.unheard c'' (List.mem_of_getElem? there) none_
      · intro c'' mem' some_ h' hub'
        rcases old mem' with rfl | ⟨j, -, there⟩
        · exact absurd zero some_
        · have mem'' := List.mem_of_getElem? there
          obtain ⟨g, hub, -⟩ := keeping.leased.known c'' mem'' some_
          have below := keeping.leased.below _ g hub
          have apart : c''.handle ≠ w.registry.nextHandle := by
            intro same
            rw [same] at below
            exact absurd below (Nat.lt_irrefl _)
          have hub' : Function.update w.hub w.registry.nextHandle (some h) c''.handle = some h' := hub'
          rw [Function.update_of_ne apart] at hub'
          exact keeping.keeps c'' mem'' some_ h' hub'
  | drives h out hub moves =>
      have tokens := moves.tokens
      refine ⟨leased, ?_, ?_, ?_⟩
      · intro c'' mem' before
        rcases old mem' with rfl | ⟨j, -, there⟩
        · cases tokens with
          | kept out token granted holds early =>
              have before : c.stage.early = true := early before
              have fresh := keeping.fresh c mem before
              obtain ⟨sent, exit, pending, frames⟩ := moves.quiet (DriveStage.not_holds_of_early before)
              exact ⟨frames.trans fresh.frames, exit.trans fresh.exit, pending.trans fresh.pending,
                sent.trans fresh.sent⟩
          | granted grant was acquired => nomatch before
        · exact keeping.fresh c'' (List.mem_of_getElem? there) before
      · intro c'' mem' none_
        rcases old mem' with rfl | ⟨j, -, there⟩
        · cases tokens with
          | kept out token granted holds early =>
              rw [token] at none_
              have idle : c.stage.holds = false := by
                by_contra held
                exact keeping.leased.holds c mem (by simpa using held) none_
              have unheard := keeping.unheard c mem none_
              obtain ⟨sent, exit, -, -⟩ := moves.quiet idle
              refine ⟨exit.trans unheard.exit, ?_⟩
              rw [sent]
              exact unheard.sent
          | granted grant was acquired =>
              exact absurd none_ (PtyHub.acquire_granted (keeping.leased.fenced _ h hub) acquired).2.2.2.1
        · exact keeping.unheard c'' (List.mem_of_getElem? there) none_
      · intro c'' mem' some_ h' hub'
        have hub' : Function.update w.hub c.handle (some out.2) c''.handle = some h' := hub'
        rcases old mem' with rfl | ⟨j, ne, there⟩
        · rw [moves.handle, Function.update_self] at hub'
          obtain rfl := Option.some.inj hub'
          cases tokens with
          | kept out token granted holds early =>
              rw [token] at some_
              have late : c.stage.early = false := by
                by_contra before
                exact some_ (keeping.leased.early c mem (by simpa using before))
              exact inv.moved _ _ _ c h _ moves late (keeping.keeps c mem some_ h hub)
          | granted grant was acquired =>
              have fresh := keeping.fresh c mem (by rw [was]; rfl)
              exact inv.granted _ c h grant (keeping.leased.fenced _ h hub) fresh acquired
        · have mem'' := List.mem_of_getElem? there
          by_cases same : c''.handle = c.handle
          · rw [same, Function.update_self] at hub'
            obtain rfl := Option.some.inj hub'
            refine inv.beside _ _ _ c'' c h out moves ?_ (keeping.keeps c'' mem'' some_ h (by rw [same]; exact hub))
            intro tokens
            exact ne (keeping.leased.distinct j k c'' c there here some_ same tokens.symm)
          · rw [Function.update_of_ne same] at hub'
            exact keeping.keeps c'' mem'' some_ h' hub'
  | delists registry was next =>
      refine ⟨leased, ?_, ?_, ?_⟩
      · intro c'' mem' before
        rcases old mem' with rfl | ⟨j, -, there⟩
        · nomatch before
        · exact keeping.fresh c'' (List.mem_of_getElem? there) before
      · intro c'' mem' none_
        rcases old mem' with rfl | ⟨j, -, there⟩
        · have unheard := keeping.unheard c mem none_
          exact ⟨unheard.exit, unheard.sent⟩
        · exact keeping.unheard c'' (List.mem_of_getElem? there) none_
      · intro c'' mem' some_ h hub
        rcases old mem' with rfl | ⟨j, -, there⟩
        · exact inv.delisted c h _ was (keeping.keeps c mem some_ h hub)
        · exact keeping.keeps c'' (List.mem_of_getElem? there) some_ h hub

theorem onPty (keeping : Keeping p w) (handle : UInt64) {f : Pty → Pty} (leased : Leased (w.onPty handle f))
    (keeps : ∀ (c : Drive) h, p c h → p c { h with pty := f h.pty }) : Keeping p (w.onPty handle f) := by
  unfold World.onPty at *
  cases here : w.hub handle with
  | none => exact keeping
  | some h =>
      rw [here] at leased
      refine ⟨leased, keeping.fresh, keeping.unheard, fun c mem some_ h' hub' => ?_⟩
      have hub' : Function.update w.hub handle (some { h with pty := f h.pty }) c.handle = some h' := hub'
      by_cases same : c.handle = handle
      · rw [same, Function.update_self] at hub'
        obtain rfl := Option.some.inj hub'
        exact keeps c h (keeping.keeps c mem some_ h (by rw [same]; exact here))
      · rw [Function.update_of_ne same] at hub'
        exact keeping.keeps c mem some_ h' hub'

theorem step (inv : ConnInvariant p) (event : WorldEvent) (w : World) (keeping : Keeping p w) :
    Keeping p (World.step event w) := by
  have leased := keeping.leased.step event
  cases event with
  | connect =>
      have fresh : Drive.Fresh (Drive.start (w.registry.connCounter + 1)) := ⟨rfl, rfl, rfl, rfl⟩
      refine ⟨leased, ?_, ?_, ?_⟩
      · intro c mem before
        rcases List.mem_append.mp mem with older | new
        · exact keeping.fresh c older before
        · rw [List.mem_singleton.mp new]
          exact fresh
      · intro c mem none_
        rcases List.mem_append.mp mem with older | new
        · exact keeping.unheard c older none_
        · rw [List.mem_singleton.mp new]
          exact fresh.unheard
      · intro c mem some_
        rcases List.mem_append.mp mem with older | new
        · exact keeping.keeps c older some_
        · rw [List.mem_singleton.mp new] at some_
          exact absurd rfl some_
  | pass time => exact ⟨leased, keeping.fresh, keeping.unheard, keeping.keeps⟩
  | emit handle bytes => exact onPty keeping handle leased fun c h => inv.emits c h bytes
  | hangUp handle => exact onPty keeping handle leased fun c h => inv.hangsUp c h
  | exits handle status => exact onPty keeping handle leased fun c h => inv.ends c h status
  | conn k act =>
      unfold World.step
      dsimp only
      split
      · exact keeping
      · rename_i c here
        exact inv.conn keeping here (w.connStep_moves k c act)

theorem start (opts : ServeOptions) (leaseTimeout : Nat) : Keeping p (.start opts leaseTimeout) where
  leased := .start opts leaseTimeout
  fresh _ mem := absurd mem List.not_mem_nil
  unheard _ mem := absurd mem List.not_mem_nil
  keeps _ mem := absurd mem List.not_mem_nil

/-- It holds of every connection with a grant, in every run. -/
theorem run (inv : ConnInvariant p) (opts : ServeOptions) (leaseTimeout : Nat) (events : List WorldEvent) :
    Keeping p (Library.run World.step events (.start opts leaseTimeout)) :=
  run_invariant World.step inv.step events (start opts leaseTimeout)

end ConnInvariant

end World

end Jbuu.Terminal
