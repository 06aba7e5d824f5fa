/-
# Terminal.Opener — the first lease of a terminal

`open` puts the terminal on the registry, under a handle that is the next number, and the lease
is a call of its own afterwards. In between it belongs to nobody, and a connection that attaches
to the number gets it; who opened the terminal is denied as busy (`guessed_terminal_is_granted`).

While the others ask for a terminal only after it was granted once, who opened it is granted
first (`opener_is_granted_first`): till then the lease is as `new` made it, since a connection
without a token leaves it alone.
-/
import Jbuu.Terminal.Drains

namespace Jbuu.Terminal

set_option autoImplicit false

open Jbuu.Library
open LeaseWorld (Fenced)

/-! ## The condition -/

/-- The lease is asked for only once somebody had it. -/
def Drive.Waits (c : Drive) (act : DriveAct) (h : PtyHub) : Prop :=
  match c.stage, act with
  | .acquiring, .go => h.lease.inner.token ≠ 0
  | _, _ => True

/-- The connections other than `k` wait with the terminal `handle`. -/
def Waits (k : Nat) (handle : UInt64) (w : World) : WorldEvent → Prop
  | .conn j act => j ≠ k → ∀ c ∈ w.conns[j]?, c.handle = handle → ∀ h ∈ w.hub handle, c.Waits act h
  | _ => True

instance (c : Drive) (act : DriveAct) (h : PtyHub) : Decidable (c.Waits act h) :=
  decidable_of_bool
    (match c.stage, act with
      | .acquiring, .go => h.lease.inner.token != 0
      | _, _ => true)
    (by unfold Drive.Waits; split <;> simp)

instance (k : Nat) (handle : UInt64) (w : World) : DecidablePred (Waits k handle w)
  | .conn _ _ => inferInstanceAs (Decidable (_ → ∀ c ∈ _, _))
  | .connect | .pass _ | .emit _ _ | .hangUp _ | .exits _ _ => inferInstanceAs (Decidable True)

/-! ## Before the first grant -/

namespace PtyHub

/-- The lease is as `new` made it. -/
structure Unasked (h : PtyHub) : Prop where
  granted : h.granted = []
  token : h.lease.inner.token = 0
  holder : h.lease.inner.holder = none

variable {now : Nat} {h : PtyHub}

theorem Unasked.of_fromParts {timeout : Nat} (made : fromParts timeout now = some h) : h.Unasked := by
  obtain ⟨lease, new, rfl⟩ := Option.map_eq_some_iff.mp made
  unfold LeaseManager.new at new
  split at new
  · rw [← Option.some.inj new]
    exact ⟨rfl, rfl, rfl⟩
  · cases new

/-- Whoever asks first is granted the lease. -/
theorem Unasked.acquire (unasked : h.Unasked) (conn : ConnId) :
    ∃ grant, (h.acquire now conn).1 = some (.ok grant) := by
  have grants : h.lease.acquire now conn = (some (.ok ⟨⟨1⟩⟩), { h.lease with
      inner := { token := 1, holder := some conn, lastSeen := now, abandoned := false } }) := by
    have one : checkedAdd 0 1 = some (1 : UInt64) := rfl
    unfold LeaseManager.acquire LeaseManager.grant
    rw [unasked.holder, unasked.token, one]
  unfold PtyHub.acquire
  rw [grants]
  exact ⟨_, rfl⟩

end PtyHub

namespace Drive

variable {opts : ServeOptions} {now : Nat} {act : DriveAct} {c : Drive} {h : PtyHub} {out : Drive × PtyHub}

/-- Without a grant a connection leaves its terminal alone, but for the one request. -/
theorem Moves.idle (moves : Moves opts now act c h out) (idle : c.stage.holds = false) (other : c.stage ≠ .acquiring) :
    out.2 = h := by
  cases moves with
  | stays => rfl
  | retires => rfl
  | panics was => exact absurd was other
  | busy _ was => exact absurd was other
  | granted _ was => exact absurd was other
  | fails e was => rcases was with was | ⟨_, was⟩ <;> simp [was, DriveStage.holds] at idle
  | _ => simp_all [DriveStage.holds]

/-- A connection without a token that waits leaves the terminal alone. -/
theorem onHub_waits (idle : c.stage.holds = false) (unasked : h.Unasked) (waits : c.Waits act h) :
    (c.onHub opts now act h).2 = h := by
  by_cases asks : c.stage = .acquiring
  · unfold Waits at waits
    unfold onHub
    rw [asks] at waits ⊢
    cases act with
    | go => exact absurd unasked.token waits
    | _ => rfl
  · exact (c.onHub_moves opts now act h).idle idle asks

end Drive

namespace World

variable {w : World} {k : Nat} {c : Drive} {act : DriveAct}

theorem connStep_acquiring (was : c.stage = .acquiring) {h : PtyHub} (hub : w.hub c.handle = some h) :
    w.connStep k c act =
      (w.setHub c.handle (c.onHub w.opts w.clock act h).2).setConn k (c.onHub w.opts w.clock act h).1 := by
  unfold connStep
  rw [was]
  cases act <;> simp only [hub]

/-- The connection `k` opened the terminal: it is about to ask for its lease, which nobody did,
or it was granted the first. -/
structure Opens (k : Nat) (handle : UInt64) (w : World) (c : Drive) (h : PtyHub) : Prop where
  here : w.conns[k]? = some c
  hub : w.hub handle = some h
  same : c.handle = handle
  first : c.stage = .acquiring ∧ h.Unasked ∨ c.token ≠ ⟨0⟩ ∧ h.granted.head? = some c.token

structure Opening (k : Nat) (handle : UInt64) (w : World) : Prop where
  leased : Leased w
  opens : ∃ c h, Opens k handle w c h

namespace Opening

variable {handle : UInt64} {j : Nat} {d : Drive}

/-- What leaves the connection alone, and of its terminal the grants. -/
theorem apart (opening : Opening k handle w) {w' : World} (leased : Leased w') (conns : w'.conns[k]? = w.conns[k]?)
    (hubs : ∀ h, w.hub handle = some h → ∃ h', w'.hub handle = some h' ∧ (h.Unasked → h'.Unasked) ∧
      ∀ t, h.granted.head? = some t → h'.granted.head? = some t) : Opening k handle w' := by
  obtain ⟨c, h, opens⟩ := opening.opens
  obtain ⟨h', hub', unasked, head⟩ := hubs h opens.hub
  refine ⟨leased, c, h', conns.trans opens.here, hub', opens.same, ?_⟩
  exact opens.first.imp (And.imp_right unasked) (And.imp_right (head c.token))

/-- Tokens are added behind the first one. -/
theorem head_kept {h : PtyHub} {t : FencingToken} (head : h.granted.head? = some t) {out : Drive × PtyHub}
    (fenced : Fenced (h.leaseWorld w.clock)) (moves : Drive.Moves w.opts w.clock act d h out) :
    out.2.granted.head? = some t := by
  cases moves.tokens with
  | kept out token granted => rw [granted, head]
  | granted grant was acquired =>
      rw [(PtyHub.acquire_granted fenced acquired).1, List.head?_append, head]
      rfl

/-- A step of the connection itself. -/
theorem own (opening : Opening k handle w) (here : w.conns[k]? = some c) : Opening k handle (w.connStep k c act) := by
  obtain ⟨c', h, opens⟩ := opening.opens
  obtain rfl : c = c' := Option.some.inj (here.symm.trans opens.here)
  have inside := (List.getElem?_eq_some_iff.mp here).1
  have leased := opening.leased.conn here (w.connStep_moves k c act)
  have self : ∀ c', (w.conns.set k c')[k]? = some c' := fun c' => List.getElem?_set_self inside
  have fenced := opening.leased.fenced _ h opens.hub
  have hub : w.hub c.handle = some h := by rw [opens.same]; exact opens.hub
  have update : ∀ h', Function.update w.hub c.handle (some h') handle = some h' := by
    intro h'
    rw [opens.same, Function.update_self]
  rcases opens.first with ⟨was, unasked⟩ | ⟨some_, head⟩
  · rw [connStep_acquiring was hub] at leased ⊢
    have moves := c.onHub_moves w.opts w.clock act h
    refine ⟨leased, _, _, self _, update _, moves.handle.trans opens.same, ?_⟩
    by_cases going : act = .go
    · right
      obtain ⟨grant, acquired⟩ := @PtyHub.Unasked.acquire w.clock h unasked c.conn
      obtain ⟨granted, -, -, positive, -⟩ := PtyHub.acquire_granted fenced acquired
      have acquires : h.acquire w.clock c.conn = (some (.ok grant), (h.acquire w.clock c.conn).2) :=
        Prod.ext acquired rfl
      unfold Drive.onHub
      rw [was, going]
      dsimp only
      rw [acquires]
      refine ⟨positive, ?_⟩
      show (h.acquire w.clock c.conn).2.granted.head? = some grant.token
      rw [granted, unasked.granted]
      rfl
    · left
      have stays : c.onHub w.opts w.clock act h = (c, h) := by
        unfold Drive.onHub
        rw [was]
        cases act with
        | go => exact absurd rfl going
        | _ => rfl
      rw [stays]
      exact ⟨was, unasked⟩
  · have late : c.stage.early = false := by
      by_contra before
      exact some_ (opening.leased.early c (List.mem_of_getElem? here) (by simpa using before))
    have moves := w.connStep_moves k c act
    generalize w.connStep k c act = w' at *
    cases moves with
    | stays => exact opening
    | early registry c' was => rw [was] at late; nomatch late
    | opens registry g was => rw [was] at late; nomatch late
    | drives g out there moves =>
        obtain rfl : h = g := Option.some.inj (hub.symm.trans there)
        have token : out.1.token = c.token := by
          cases moves.tokens with
          | kept out token => exact token
          | granted grant was => rw [was] at late; nomatch late
        refine ⟨leased, _, _, self _, update _, moves.handle.trans opens.same, .inr ?_⟩
        rw [token]
        exact ⟨some_, head_kept head fenced moves⟩
    | delists registry was => exact ⟨leased, _, h, self _, opens.hub, opens.same, .inr ⟨some_, head⟩⟩

/-- A step of another connection, which waits. -/
theorem other (opening : Opening k handle w) (here : w.conns[j]? = some d) (ne : j ≠ k)
    (waits : d.handle = handle → ∀ h ∈ w.hub handle, d.Waits act h) : Opening k handle (w.connStep j d act) := by
  have mem := List.mem_of_getElem? here
  have moves := w.connStep_moves j d act
  have leased := opening.leased.conn here moves
  have alone : ∀ d', (w.conns.set j d')[k]? = w.conns[k]? := fun d' => List.getElem?_set_ne ne
  generalize w.connStep j d act = w' at *
  cases moves with
  | stays => exact opening
  | early registry d' => exact opening.apart leased (alone d') fun h hub => ⟨h, hub, id, fun _ => id⟩
  | opens registry g was =>
      refine opening.apart leased (alone _) fun h hub => ⟨h, ?_, id, fun _ => id⟩
      have below := opening.leased.below _ h hub
      show Function.update w.hub w.registry.nextHandle _ handle = some h
      rw [Function.update_of_ne (by rintro rfl; omega)]
      exact hub
  | drives g out there moves stepped =>
      refine opening.apart leased (alone _) fun h hub => ?_
      show ∃ h', Function.update w.hub d.handle (some out.2) handle = some h' ∧ _
      by_cases same : d.handle = handle
      · obtain rfl : h = g := by
          rw [same, hub] at there
          exact Option.some.inj there
        rw [same, Function.update_self]
        refine ⟨out.2, rfl, fun unasked => ?_, fun t head => head_kept head (opening.leased.fenced _ h hub) moves⟩
        -- nobody has a token of a terminal that was never granted
        have idle : d.stage.holds = false := by
          by_contra held
          obtain ⟨g, at_, known⟩ := opening.leased.known d mem (opening.leased.holds d mem (by simpa using held))
          rw [same, hub] at at_
          obtain rfl := Option.some.inj at_
          rw [unasked.granted] at known
          nomatch known
        rw [stepped, Drive.onHub_waits idle unasked (waits same h hub)]
        exact unasked
      · rw [Function.update_of_ne (Ne.symm same)]
        exact ⟨h, hub, id, fun _ => id⟩
  | delists registry => exact opening.apart leased (alone _) fun h hub => ⟨h, hub, id, fun _ => id⟩

theorem onPty (opening : Opening k handle w) {handle' : UInt64} {f : Pty → Pty} (leased : Leased (w.onPty handle' f)) :
    Opening k handle (w.onPty handle' f) := by
  unfold World.onPty at *
  cases here : w.hub handle' with
  | none => exact opening
  | some g =>
      rw [here] at leased
      refine opening.apart leased rfl fun h hub => ?_
      show ∃ h', Function.update w.hub handle' (some { g with pty := f g.pty }) handle = some h' ∧ _
      by_cases same : handle = handle'
      · rw [same, here] at hub
        obtain rfl := Option.some.inj hub
        rw [same, Function.update_self]
        exact ⟨_, rfl, fun ⟨granted, token, holder⟩ => ⟨granted, token, holder⟩, fun _ => id⟩
      · rw [Function.update_of_ne same]
        exact ⟨h, hub, id, fun _ => id⟩

theorem step (event : WorldEvent) (w : World) (waits : Waits k handle w event) (opening : Opening k handle w) :
    Opening k handle (World.step event w) := by
  have leased := opening.leased.step event
  cases event with
  | connect =>
      obtain ⟨c, h, opens⟩ := opening.opens
      have inside := (List.getElem?_eq_some_iff.mp opens.here).1
      exact opening.apart leased (List.getElem?_append_left inside) fun h hub => ⟨h, hub, id, fun _ => id⟩
  | pass time => exact opening.apart leased rfl fun h hub => ⟨h, hub, id, fun _ => id⟩
  | emit handle' bytes => exact opening.onPty leased
  | hangUp handle' => exact opening.onPty leased
  | exits handle' status => exact opening.onPty leased
  | conn j act =>
      unfold World.step
      dsimp only
      cases here : w.conns[j]? with
      | none => exact opening
      | some d =>
          by_cases same : j = k
          · subst same
            exact opening.own here
          · exact opening.other here same (waits same d here)

/-- A terminal that there was not is one that the connection just opened. -/
theorem start (leased : Leased w) (here : w.conns[k]? = some c) (none_ : w.hub handle = none)
    (made : (w.connStep k c act).hub handle ≠ none) : Opening k handle (w.connStep k c act) := by
  have inside := (List.getElem?_eq_some_iff.mp here).1
  have moves := w.connStep_moves k c act
  have leased' := leased.conn here moves
  generalize w.connStep k c act = w' at *
  cases moves with
  | stays => exact absurd none_ made
  | early registry c' => exact absurd none_ made
  | opens registry h was next new =>
      by_cases same : handle = w.registry.nextHandle
      · subst same
        exact ⟨leased', _, h, List.getElem?_set_self inside, Function.update_self .., rfl, .inl ⟨rfl, .of_fromParts new⟩⟩
      · have made : Function.update w.hub w.registry.nextHandle (some h) handle ≠ none := made
        rw [Function.update_of_ne same] at made
        exact absurd none_ made
  | drives h out hub =>
      have made : Function.update w.hub c.handle (some out.2) handle ≠ none := made
      by_cases same : handle = c.handle
      · rw [same, hub] at none_
        nomatch none_
      · rw [Function.update_of_ne same] at made
        exact absurd none_ made
  | delists registry => exact absurd none_ made

end Opening

end World

/-! ## The first lease -/

/-- **The opener gets the first lease**, in every run in which the other connections ask for the
terminal only after it was granted once: the connection whose step made the terminal is about to
ask for a lease that nobody was granted, or it has the first token. -/
theorem opener_is_granted_first (opts : ServeOptions) (leaseTimeout : Nat) (before after : List WorldEvent)
    (k : Nat) (act : DriveAct) (handle : UInt64)
    (none_ : (run World.step before (.start opts leaseTimeout)).hub handle = none)
    (made : (run World.step (before ++ [.conn k act]) (.start opts leaseTimeout)).hub handle ≠ none)
    (waits : Along World.step (Waits k handle) after
      (run World.step (before ++ [.conn k act]) (.start opts leaseTimeout))) :
    let w := run World.step (before ++ .conn k act :: after) (.start opts leaseTimeout)
    ∃ c h, w.conns[k]? = some c ∧ w.hub handle = some h ∧ c.handle = handle ∧
      (c.stage = .acquiring ∧ h.granted = [] ∨ h.granted.head? = some c.token) := by
  have leased := World.Leased.run opts leaseTimeout before
  rw [run_append] at made waits
  have whole : run World.step (before ++ .conn k act :: after) (.start opts leaseTimeout) =
      run World.step after (run World.step [.conn k act] (run World.step before (.start opts leaseTimeout))) := by
    rw [run_append]
    rfl
  rw [whole]
  generalize run World.step before (.start opts leaseTimeout) = mid at *
  have opening : World.Opening k handle (run World.step [.conn k act] mid) := by
    have made : (World.step (.conn k act) mid).hub handle ≠ none := made
    show World.Opening k handle (World.step (.conn k act) mid)
    unfold World.step at made ⊢
    dsimp only at made ⊢
    cases here : mid.conns[k]? with
    | none =>
        rw [here] at made
        exact absurd none_ made
    | some c =>
        rw [here] at made
        exact .start leased here none_ made
  obtain ⟨-, c, h, opens⟩ := run_invariant_along World.step World.Opening.step after waits opening
  refine ⟨c, h, opens.here, opens.hub, opens.same, ?_⟩
  exact opens.first.imp (And.imp_right fun unasked => unasked.granted) And.right

/-- A second connection comes to the terminal while the first is still at its Open. -/
def besides : List WorldEvent :=
  [.connect, .connect, .conn 0 (.done (.ok ())), .conn 0 (.recv (.frame (.open 24 80))), .conn 1 (.done (.ok ())),
    .conn 1 (.recv (.frame (.attach 1 24 80)))]

/-- The second one waits till the terminal was granted. -/
theorem opener_is_granted_first_besides :
    let after := [.conn 1 .go, .conn 0 .go, .conn 1 .go]
    ∃ c h, (run World.step (besides ++ .conn 0 (.spawned true) :: after) (.start briefly 10)).conns[0]? = some c ∧
      (run World.step (besides ++ .conn 0 (.spawned true) :: after) (.start briefly 10)).hub 1 = some h ∧
      c.token = ⟨1⟩ ∧ h.granted.head? = some c.token := by
  intro after
  have waits : Along World.step (Waits 0 1) after
      (run World.step (besides ++ [.conn 0 (.spawned true)]) (.start briefly 10)) := by decide +kernel
  have none_ : ((run World.step besides (.start briefly 10)).hub 1).isNone = true := by decide +kernel
  have made : ((run World.step (besides ++ [.conn 0 (.spawned true)]) (.start briefly 10)).hub 1).isSome = true := by
    decide +kernel
  have token : (run World.step (besides ++ .conn 0 (.spawned true) :: after) (.start briefly 10)).conns[0]?.map
      (fun c => (c.stage, c.token)) = some (.granting, ⟨1⟩) := by decide +kernel
  obtain ⟨c, h, here, hub, -, first⟩ :=
    opener_is_granted_first briefly 10 besides after 0 (.spawned true) 1 (Option.isNone_iff_eq_none.mp none_)
      (Option.isSome_iff_ne_none.mp made) waits
  rw [here] at token
  obtain ⟨stage, token⟩ := Prod.mk.inj (Option.some.inj token)
  rcases first with ⟨was, -⟩ | head
  · rw [stage] at was
    nomatch was
  · exact ⟨c, h, here, hub, token, head⟩

/-- The second one comes between the registration and the lease: it is granted the terminal,
and who opened it is denied. -/
theorem guessed_terminal_is_granted :
    let w := run World.step (besides ++ [.conn 0 (.spawned true), .conn 1 .go, .conn 1 .go, .conn 0 .go,
      .conn 1 (.done (.ok ())), .conn 0 (.done (.ok ()))]) (.start briefly 10)
    w.conns.map (·.sent) = [[.denied .busy], [.granted 1 1]] ∧
      (w.hub 1).map (·.granted) = some [⟨1⟩] ∧ w.conns.map (·.token) = [⟨0⟩, ⟨1⟩] := by
  decide +kernel

end Jbuu.Terminal
