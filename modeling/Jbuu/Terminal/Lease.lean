/-
# Terminal.Lease — the single-master lease and its fencing tokens

`LeaseManager` as the code has it, every operation one step under its lock and with one
reading of the clock. The world around it has any number of connections that acquire, beat,
write through the gate and drop grants in any order, while time passes.

A token is current when `is_current` says so. `Fenced` is the invariant of all runs; it
rests on one fact, that nothing but a grant makes a token current
(`LeaseWorld.current_step`), and a grant hands out a token nobody had.
-/
import Mathlib.Data.List.Pairwise
import Jbuu.Library.Runs
import Jbuu.Handshake.Confirm
import Jbuu.Transport.Frame

namespace Jbuu.Terminal

set_option autoImplicit false

open Jbuu.Library
open Jbuu.Transport (TransportError)

/-! ## The manager -/

/-- `ConnId`. -/
abbrev ConnId := UInt64

structure FencingToken where
  get : UInt64
  deriving DecidableEq, Repr

inductive LeaseDenied where
  | busy (holder : ConnId) (token : FencingToken)
  deriving DecidableEq, Repr

inductive TerminalError where
  | leaseHeldByOther (holder : ConnId)
  | staleWriter
  | terminalGone
  | handshake (e : HandshakeError)
  | session (e : SessionError)
  | transport (e : TransportError)
  | io
  | closed
  | protocol
  | timeout
  deriving DecidableEq

structure LeaseInner where
  token : UInt64
  holder : Option ConnId
  lastSeen : Nat
  abandoned : Bool
  deriving DecidableEq, Repr

/-- The code's `new` asserts that the timeout is positive. -/
structure LeaseManager where
  inner : LeaseInner
  timeout : Nat
  positive : 0 < timeout

/-- The guard a connection holds; dropping it gives the lease up. -/
structure LeaseGrant where
  token : FencingToken
  deriving DecidableEq, Repr

namespace LeaseManager

/-- `LeaseManager::new`; `none` is the failed assertion. -/
def new (timeout now : Nat) : Option LeaseManager :=
  if positive : 0 < timeout then
    some {
      inner := { token := 0, holder := none, lastSeen := now, abandoned := true }
      timeout := timeout
      positive := positive }
  else none

/-- `last_seen.elapsed() > timeout`. -/
def isExpired (m : LeaseManager) (now : Nat) : Bool :=
  Decidable.decide (m.timeout < now - m.inner.lastSeen)

/-- The second half of `acquire`; `none` is the panic of its `expect`. -/
def grant (m : LeaseManager) (now : Nat) (conn : ConnId) :
    Option (Except LeaseDenied LeaseGrant) × LeaseManager :=
  match checkedAdd m.inner.token 1 with
  | none => (none, m)
  | some token =>
      (some (.ok ⟨⟨token⟩⟩),
        { m with inner := { token := token, holder := some conn, lastSeen := now, abandoned := false } })

def acquire (m : LeaseManager) (now : Nat) (conn : ConnId) :
    Option (Except LeaseDenied LeaseGrant) × LeaseManager :=
  match m.inner.holder with
  | some holder =>
      let busy := !m.inner.abandoned && !m.isExpired now
      if busy then (some (.error (.busy holder ⟨m.inner.token⟩)), m) else m.grant now conn
  | none => m.grant now conn

def heartbeat (m : LeaseManager) (now : Nat) (token : FencingToken) :
    Except TerminalError Unit × LeaseManager :=
  if m.inner.token ≠ token.get || m.inner.abandoned || m.isExpired now then (.error .staleWriter, m)
  else (.ok (), { m with inner := { m.inner with lastSeen := now } })

def isCurrent (m : LeaseManager) (now : Nat) (token : FencingToken) : Bool :=
  m.inner.token == token.get && !m.inner.abandoned && !m.isExpired now

/-- `with_write_gate`; the action runs on a state of its own, with the lock held. -/
def withWriteGate {σ α : Type} (m : LeaseManager) (now : Nat) (token : FencingToken)
    (action : σ → Except TerminalError α × σ) (s : σ) : Except TerminalError α × σ :=
  if m.inner.token ≠ token.get || m.inner.abandoned || m.isExpired now then (.error .staleWriter, s)
  else action s

/-- `LeaseGrant::drop`. -/
def drop (m : LeaseManager) (grant : LeaseGrant) : LeaseManager :=
  if m.inner.token == grant.token.get && !m.inner.abandoned then
    { m with inner := { m.inner with abandoned := true } }
  else m

section

variable {m : LeaseManager} {now : Nat} {token other : FencingToken} {conn : ConnId}

theorem isCurrent_iff : m.isCurrent now token = true ↔
    m.inner.token = token.get ∧ m.inner.abandoned = false ∧ now - m.inner.lastSeen ≤ m.timeout := by
  simp [isCurrent, isExpired, and_assoc]

/-- The test that `heartbeat` and the gate make is the one of `is_current`. -/
theorem rejected_iff :
    (m.inner.token ≠ token.get || m.inner.abandoned || m.isExpired now) = true ↔
      ¬m.isCurrent now token = true := by
  rw [isCurrent_iff]
  simp only [isExpired, Bool.or_eq_true, decide_eq_true_eq, not_and_or, Bool.not_eq_false, not_le,
    or_assoc, ne_eq]

theorem current_unique (one : m.isCurrent now token = true) (two : m.isCurrent now other = true) :
    token = other := by
  obtain ⟨t⟩ := token
  obtain ⟨u⟩ := other
  rw [isCurrent_iff] at one two
  exact congrArg FencingToken.mk (one.1.symm.trans two.1)

theorem heartbeat_eq : m.heartbeat now token =
    if m.isCurrent now token then (.ok (), { m with inner := { m.inner with lastSeen := now } })
    else (.error .staleWriter, m) := by
  unfold heartbeat
  by_cases current : m.isCurrent now token = true
  · rw [if_pos current, if_neg (fun rejected => rejected_iff.mp rejected current)]
  · rw [if_neg current, if_pos (rejected_iff.mpr current)]

theorem withWriteGate_eq {σ α : Type} (action : σ → Except TerminalError α × σ) (s : σ) :
    m.withWriteGate now token action s =
      if m.isCurrent now token then action s else (.error .staleWriter, s) := by
  unfold withWriteGate
  by_cases current : m.isCurrent now token = true
  · rw [if_pos current, if_neg (fun rejected => rejected_iff.mp rejected current)]
  · rw [if_neg current, if_pos (rejected_iff.mpr current)]

end

end LeaseManager

/-! ## Connections and time -/

inductive LeaseEvent where
  | acquire (conn : ConnId)
  | heartbeat (token : FencingToken)
  /-- A gated write; the closure returns `result`. -/
  | gate (token : FencingToken) (result : Except TerminalError Unit)
  | drop (grant : LeaseGrant)
  | pass (time : Nat)

/-- The manager, the clock, the tokens handed out and the tokens of the closures that ran. -/
structure LeaseWorld where
  manager : LeaseManager
  clock : Nat
  granted : List FencingToken
  writes : List FencingToken

namespace LeaseWorld

/-- A closure that writes leaves the token of its gate in the record. -/
def write (token : FencingToken) (result : Except TerminalError Unit) (writes : List FencingToken) :
    Except TerminalError Unit × List FencingToken :=
  (result, writes ++ [token])

def step : LeaseEvent → LeaseWorld → LeaseWorld
  | .acquire conn, w =>
      match w.manager.acquire w.clock conn with
      | (some (.ok grant), manager) =>
          { w with manager := manager, granted := w.granted ++ [grant.token] }
      | (_, manager) => { w with manager := manager }
  | .heartbeat token, w => { w with manager := (w.manager.heartbeat w.clock token).2 }
  | .gate token result, w =>
      { w with writes := (w.manager.withWriteGate w.clock token (write token result) w.writes).2 }
  | .drop grant, w => { w with manager := w.manager.drop grant }
  | .pass time, w => { w with clock := w.clock + time }

def start (manager : LeaseManager) (now : Nat) : LeaseWorld := ⟨manager, now, [], []⟩

/-- The token is the active grant, not given up and not expired. -/
def Current (w : LeaseWorld) (token : FencingToken) : Prop := w.manager.isCurrent w.clock token = true

instance (w : LeaseWorld) (token : FencingToken) : Decidable (w.Current token) :=
  inferInstanceAs (Decidable (_ = _))

/-! ## The invariant -/

/-- Every token in the records is at most the manager's, they are in order, and a lease not
given up has a holder whose token was handed out. -/
structure Fenced (w : LeaseWorld) : Prop where
  known : ∀ t ∈ w.granted, t.get ≤ w.manager.inner.token
  increasing : w.granted.Pairwise fun a b => a.get < b.get
  written : ∀ t ∈ w.writes, t.get ≤ w.manager.inner.token
  ordered : w.writes.Pairwise fun a b => a.get ≤ b.get
  held : w.manager.inner.abandoned = false →
    w.manager.inner.holder.isSome = true ∧ ⟨w.manager.inner.token⟩ ∈ w.granted
  seen : w.manager.inner.lastSeen ≤ w.clock

theorem Fenced.start {timeout now : Nat} {m : LeaseManager} (made : LeaseManager.new timeout now = some m) :
    Fenced (start m now) := by
  unfold LeaseManager.new at made
  split at made
  · obtain rfl := Option.some.inj made
    exact ⟨nofun, .nil, nofun, .nil, nofun, Nat.le_refl _⟩
  · cases made

/-- What an acquire comes to: busy while a token is current, and else a grant of the next
token, unless there is none. -/
inductive Acquires (w : LeaseWorld) (conn : ConnId) :
    Option (Except LeaseDenied LeaseGrant) × LeaseManager → Prop
  | busy (holder : ConnId) (current : w.Current ⟨w.manager.inner.token⟩) :
      Acquires w conn (some (.error (.busy holder ⟨w.manager.inner.token⟩)), w.manager)
  | granted (token : UInt64) (free : ∀ t, ¬w.Current t)
      (next : token.toNat = w.manager.inner.token.toNat + 1) :
      Acquires w conn (some (.ok ⟨⟨token⟩⟩), { w.manager with
        inner := { token := token, holder := some conn, lastSeen := w.clock, abandoned := false } })
  | exhausted (free : ∀ t, ¬w.Current t) : Acquires w conn (none, w.manager)

theorem grant_acquires {w : LeaseWorld} (free : ∀ t, ¬w.Current t) (conn : ConnId) :
    Acquires w conn (w.manager.grant w.clock conn) := by
  unfold LeaseManager.grant
  cases next : checkedAdd w.manager.inner.token 1 with
  | none => exact .exhausted free
  | some token => exact .granted token free (checkedAdd_eq_some.mp next).2

theorem Fenced.acquires {w : LeaseWorld} (fenced : Fenced w) (conn : ConnId) :
    Acquires w conn (w.manager.acquire w.clock conn) := by
  unfold LeaseManager.acquire
  have token_of : ∀ t, w.Current t → w.Current ⟨w.manager.inner.token⟩ := by
    intro t current
    obtain ⟨t⟩ := t
    obtain ⟨same, -⟩ := LeaseManager.isCurrent_iff.mp current
    rw [same]
    exact current
  have current_iff : w.Current ⟨w.manager.inner.token⟩ ↔
      (!w.manager.inner.abandoned && !w.manager.isExpired w.clock) = true := by
    simp [Current, LeaseManager.isCurrent]
  cases held : w.manager.inner.holder with
  | none =>
      refine grant_acquires (fun t current => ?_) conn
      have active := (LeaseManager.isCurrent_iff.mp current).2.1
      simpa [held] using (fenced.held active).1
  | some holder =>
      dsimp only
      by_cases busy : (!w.manager.inner.abandoned && !w.manager.isExpired w.clock) = true
      · rw [if_pos busy]
        exact .busy holder (current_iff.mpr busy)
      · rw [if_neg busy]
        exact grant_acquires (fun t current => busy (current_iff.mp (token_of t current))) conn

theorem Fenced.acquire {w : LeaseWorld} (fenced : Fenced w) (conn : ConnId) :
    Fenced (step (.acquire conn) w) := by
  have acquires := fenced.acquires conn
  simp only [step]
  generalize w.manager.acquire w.clock conn = result at acquires
  cases acquires with
  | busy holder current => exact { fenced with seen := fenced.seen }
  | exhausted free => exact { fenced with seen := fenced.seen }
  | granted token free next =>
      have above : ∀ old : UInt64, old ≤ w.manager.inner.token → old < token := by
        intro old le
        rw [UInt64.le_iff_toNat_le] at le
        rw [UInt64.lt_iff_toNat_lt]
        omega
      refine ⟨?_, ?_, ?_, fenced.ordered, fun _ => ⟨rfl, by simp⟩, Nat.le_refl _⟩
      · intro t mem
        rcases List.mem_append.mp mem with old | new
        · exact UInt64.le_of_lt (above _ (fenced.known t old))
        · rw [List.mem_singleton.mp new]
          exact UInt64.le_refl _
      · refine List.pairwise_append.mpr ⟨fenced.increasing, List.pairwise_singleton .., ?_⟩
        intro old mem new isNew
        rw [List.mem_singleton.mp isNew]
        exact above _ (fenced.known old mem)
      · exact fun t mem => UInt64.le_of_lt (above _ (fenced.written t mem))

theorem Fenced.gate {w : LeaseWorld} (fenced : Fenced w) (token : FencingToken)
    (result : Except TerminalError Unit) : Fenced (step (.gate token result) w) := by
  simp only [step, LeaseManager.withWriteGate_eq]
  by_cases current : w.manager.isCurrent w.clock token = true
  · rw [if_pos current]
    have active := (LeaseManager.isCurrent_iff.mp current).1
    refine { fenced with written := ?_, ordered := ?_ }
    · intro t mem
      rcases List.mem_append.mp mem with old | new
      · exact fenced.written t old
      · rw [List.mem_singleton.mp new, active]
        exact UInt64.le_refl _
    · refine List.pairwise_append.mpr ⟨fenced.ordered, List.pairwise_singleton .., ?_⟩
      intro old mem new isNew
      rw [List.mem_singleton.mp isNew, ← active]
      exact fenced.written old mem
  · rw [if_neg current]
    exact fenced

theorem Fenced.step (event : LeaseEvent) {w : LeaseWorld} (fenced : Fenced w) :
    Fenced (step event w) := by
  cases event with
  | acquire conn => exact fenced.acquire conn
  | gate token result => exact fenced.gate token result
  | heartbeat token =>
      simp only [LeaseWorld.step, LeaseManager.heartbeat_eq]
      by_cases current : w.manager.isCurrent w.clock token = true
      · rw [if_pos current]
        exact { fenced with seen := Nat.le_refl _ }
      · rw [if_neg current]
        exact fenced
  | drop grant =>
      simp only [LeaseWorld.step, LeaseManager.drop]
      by_cases mine : (w.manager.inner.token == grant.token.get && !w.manager.inner.abandoned) = true
      · rw [if_pos mine]
        exact { fenced with held := nofun }
      · rw [if_neg mine]
        exact fenced
  | pass time => exact { fenced with seen := fenced.seen.trans (Nat.le_add_right ..) }

/-- Only a grant makes a token current, and it is one above all before it. -/
theorem current_step (event : LeaseEvent) {w : LeaseWorld} (fenced : Fenced w) {t : FencingToken}
    (current : (LeaseWorld.step event w).Current t) :
    w.Current t ∨ w.manager.inner.token < t.get := by
  cases event with
  | acquire conn =>
      have acquires := fenced.acquires conn
      simp only [LeaseWorld.step] at current
      generalize w.manager.acquire w.clock conn = result at acquires current
      cases acquires with
      | busy holder _ => exact .inl current
      | exhausted free => exact .inl current
      | granted token free next =>
          right
          have same : token = t.get := (LeaseManager.isCurrent_iff.mp current).1
          rw [← same, UInt64.lt_iff_toNat_lt]
          omega
  | gate token result => exact .inl current
  | heartbeat token =>
      left
      simp only [LeaseWorld.step, LeaseManager.heartbeat_eq] at current
      by_cases beats : w.manager.isCurrent w.clock token = true
      · rw [if_pos beats] at current
        -- the beat refreshes the token that is current already
        have same := (LeaseManager.isCurrent_iff.mp current).1
        exact LeaseManager.isCurrent_iff.mpr ⟨same, (LeaseManager.isCurrent_iff.mp beats).2⟩
      · rw [if_neg beats] at current
        exact current
  | drop grant =>
      left
      simp only [LeaseWorld.step, LeaseManager.drop] at current
      split at current
      · simp [Current, LeaseManager.isCurrent] at current
      · exact current
  | pass time =>
      left
      obtain ⟨same, active, fresh⟩ := LeaseManager.isCurrent_iff.mp current
      refine LeaseManager.isCurrent_iff.mpr ⟨same, active, ?_⟩
      dsimp only [LeaseWorld.step] at fresh
      omega

/-! ## Every run -/

theorem Fenced.run (events : List LeaseEvent) {w : LeaseWorld} (fenced : Fenced w) :
    Fenced (run LeaseWorld.step events w) :=
  run_invariant LeaseWorld.step (fun event _ fenced => fenced.step event) events fenced

/-- The manager's token never goes back. -/
theorem token_mono (event : LeaseEvent) {w : LeaseWorld} (fenced : Fenced w) :
    w.manager.inner.token ≤ (LeaseWorld.step event w).manager.inner.token := by
  cases event with
  | acquire conn =>
      have acquires := fenced.acquires conn
      simp only [LeaseWorld.step]
      generalize w.manager.acquire w.clock conn = result at acquires
      cases acquires with
      | busy holder _ => exact UInt64.le_refl _
      | exhausted free => exact UInt64.le_refl _
      | granted token free next =>
          rw [UInt64.le_iff_toNat_le]
          dsimp only
          omega
  | gate token result => exact UInt64.le_refl _
  | heartbeat token =>
      simp only [LeaseWorld.step, LeaseManager.heartbeat_eq]
      split <;> exact UInt64.le_refl _
  | drop grant =>
      simp only [LeaseWorld.step, LeaseManager.drop]
      split <;> exact UInt64.le_refl _
  | pass time => exact UInt64.le_refl _

/-- A token handed out that is not current stays so. -/
theorem never_revived {w : LeaseWorld} (fenced : Fenced w) {t : FencingToken}
    (known : t.get ≤ w.manager.inner.token) (lost : ¬w.Current t) (later : List LeaseEvent) :
    ¬(run LeaseWorld.step later w).Current t := by
  have kept : ∀ event (w : LeaseWorld),
      (Fenced w ∧ t.get ≤ w.manager.inner.token ∧ ¬w.Current t) →
        Fenced (w.step event) ∧ t.get ≤ (w.step event).manager.inner.token ∧
          ¬(w.step event).Current t := by
    rintro event w ⟨fenced, known, lost⟩
    refine ⟨fenced.step event, UInt64.le_trans known (token_mono event fenced), fun current => ?_⟩
    rcases current_step event fenced current with before | above
    · exact lost before
    · rw [UInt64.le_iff_toNat_le] at known
      rw [UInt64.lt_iff_toNat_lt] at above
      omega
  exact (run_invariant LeaseWorld.step kept later ⟨fenced, known, lost⟩).2.2

/-- An acquire is refused exactly while a token is current. -/
theorem Fenced.busy_iff {w : LeaseWorld} (fenced : Fenced w) (conn : ConnId) :
    (∃ denied, (w.manager.acquire w.clock conn).1 = some (.error denied)) ↔ ∃ t, w.Current t := by
  have acquires := fenced.acquires conn
  generalize w.manager.acquire w.clock conn = result at acquires
  cases acquires with
  | busy holder current => exact ⟨fun _ => ⟨_, current⟩, fun _ => ⟨_, rfl⟩⟩
  | granted token free next => simp [free]
  | exhausted free => simp [free]

/-- Dropping a grant that is not the current one changes nothing while another one is. -/
theorem drop_stale {w : LeaseWorld} {grant : LeaseGrant} {t : FencingToken} (current : w.Current t)
    (stale : grant.token ≠ t) : LeaseWorld.step (.drop grant) w = w := by
  obtain ⟨⟨mine⟩⟩ := grant
  obtain ⟨t⟩ := t
  have active : w.manager.inner.token = t := (LeaseManager.isCurrent_iff.mp current).1
  simp only [LeaseWorld.step, LeaseManager.drop]
  rw [if_neg]
  intro same
  simp only [Bool.and_eq_true, beq_iff_eq] at same
  exact stale (by rw [← active, same.1])

theorem drop_ends (w : LeaseWorld) (grant : LeaseGrant) :
    ¬(LeaseWorld.step (.drop grant) w).Current grant.token := by
  intro current
  simp only [LeaseWorld.step, LeaseManager.drop] at current
  split at current
  · simp [Current, LeaseManager.isCurrent] at current
  · rename_i other
    simp only [Current, LeaseManager.isCurrent, Bool.and_eq_true] at current
    exact other (by simpa using current.1)

end LeaseWorld

/-- The lease has one master. In every run: tokens handed out increase; at most one is
current, and it was handed out; one handed out that is not current (superseded, dropped or
expired) never is again; a dropped one is not; the gate runs its closure for the current
token and no other, so the tokens of gated writes never decrease; an acquire is refused
exactly while a token is current; a stale grant is dropped without effect on the holder. -/
theorem lease_is_fenced (timeout now : Nat) (manager : LeaseManager)
    (made : LeaseManager.new timeout now = some manager) (events : List LeaseEvent) :
    let w := run LeaseWorld.step events (LeaseWorld.start manager now)
    (w.granted.Pairwise fun a b => a.get < b.get) ∧
      (∀ t u, w.Current t → w.Current u → t = u) ∧
      (∀ t, w.Current t → t ∈ w.granted) ∧
      (∀ t ∈ w.granted, ¬w.Current t → ∀ later, ¬(run LeaseWorld.step later w).Current t) ∧
      (∀ grant, ¬(LeaseWorld.step (.drop grant) w).Current grant.token) ∧
      (∀ (t : FencingToken) (σ α : Type) (action : σ → Except TerminalError α × σ) (s : σ),
        w.manager.withWriteGate w.clock t action s =
          if w.Current t then action s else (.error .staleWriter, s)) ∧
      (w.writes.Pairwise fun a b => a.get ≤ b.get) ∧
      (∀ conn, (∃ denied, (w.manager.acquire w.clock conn).1 = some (.error denied)) ↔
        ∃ t, w.Current t) ∧
      ∀ grant t, w.Current t → grant.token ≠ t → LeaseWorld.step (.drop grant) w = w := by
  intro w
  have fenced : LeaseWorld.Fenced w := (LeaseWorld.Fenced.start made).run events
  refine ⟨fenced.increasing, fun t u => LeaseManager.current_unique, ?_, ?_, LeaseWorld.drop_ends w,
    fun t σ α action s => LeaseManager.withWriteGate_eq action s, fenced.ordered, fenced.busy_iff,
    fun grant t => LeaseWorld.drop_stale⟩
  · intro t current
    obtain ⟨t⟩ := t
    obtain ⟨same, active, -⟩ := LeaseManager.isCurrent_iff.mp current
    obtain rfl : w.manager.inner.token = t := same
    exact (fenced.held active).2
  · exact fun t mem lost => LeaseWorld.never_revived fenced (fenced.known t mem) lost

/-- A holder that falls silent: its lease expires, another connection takes over, and the
late beat and drop of the first change nothing. -/
theorem lease_is_fenced_takeover :
    ∃ manager, LeaseManager.new 10 0 = some manager ∧
      ∀ later, ¬(run LeaseWorld.step later (run LeaseWorld.step
        [.acquire 1, .gate ⟨1⟩ (.ok ()), .pass 11, .acquire 2, .heartbeat ⟨1⟩, .drop ⟨⟨1⟩⟩]
        (LeaseWorld.start manager 0))).Current ⟨1⟩ := by
  refine ⟨_, rfl, ?_⟩
  exact (lease_is_fenced 10 0 _ rfl _).2.2.2.1 ⟨1⟩ (by decide) (by decide)

end Jbuu.Terminal
