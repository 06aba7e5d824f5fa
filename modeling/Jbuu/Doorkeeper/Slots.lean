/-
# Doorkeeper.Slots — the accept loop, its counter and the life of its connections

`serve` and `try_inc` of `otp-doorkeeper/src/proxy.rs` next to all the handlers it has
spawned. A slot is taken in the loop, by a compare-and-swap, and given back by the guard
that the handler creates later; the guard goes with the handler, however it ends.

Whatever happens, the counter is the slots that are out, is at most `max_conns` and never
underflows (`Balanced`). Where no handler panics before its close record — and a pipe thread
that cannot be spawned makes it panic — the slots that are out are those of the connections
that live, and each `conn_accept` has its `conn_close` (`slots_are_balanced`). A handler that
panics over the second pipe thread gives its slot back with the first one still running, and
closes nothing (`second_thread_is_lost`).
-/
import Jbuu.Doorkeeper.Transparent

namespace Jbuu.Doorkeeper

set_option autoImplicit false

open Jbuu.Library

/-- Where the accept loop is. -/
inductive Acceptor where
  | accepting
  | arrived
  /-- in `try_inc`, with the value loaded last -/
  | trying (cur : UInt64)
  | refusing
  | refused
  | numbered (connId : UInt64)
  /-- the slot is taken, the handler not yet spawned -/
  | spawning
  /-- the handler could not be spawned, the slot not yet returned -/
  | returning
  | reporting
  | stopped
  deriving DecidableEq, Repr

/-- The slot that the loop itself has. -/
def Acceptor.slot : Acceptor → Nat
  | .spawning => 1
  | .returning => 1
  | _ => 0

inductive AcceptResult where
  | connection
  | interrupted
  | error
  deriving DecidableEq, Repr

structure Server where
  maxConns : UInt64
  conns : UInt64
  nextConnId : UInt64
  acceptor : Acceptor
  handlers : List Conn
  log : List Record
  /-- a slot was given back while the counter was zero -/
  underflow : Bool

/-- A step of the accept loop. -/
inductive LoopAct where
  | stop
  | accept (result : AcceptResult)
  | go
  /-- one round of `try_inc`; the weak exchange may fail for no reason -/
  | exchange (spurious : Bool)
  | spawn (ok : Bool)

inductive ServeAct where
  | loop (act : LoopAct)
  | conn (k : Nat) (act : ConnAct)

namespace Server

def start (maxConns : UInt64) : Server where
  maxConns := maxConns
  conns := 0
  nextConnId := 1
  acceptor := .accepting
  handlers := []
  log := []
  underflow := false

def at_ (s : Server) (acceptor : Acceptor) : Server := { s with acceptor }

def logs (s : Server) (records : List Record) : Server := { s with log := s.log ++ records }

/-- `fetch_sub(1)` on the counter. -/
def release (s : Server) : Server :=
  { s with conns := s.conns - 1, underflow := s.underflow || s.conns = 0 }

/-- A thread of a connection goes on; with the end of the handler its guard is dropped. -/
def moved (s : Server) (k : Nat) (c : Conn) (out : Conn × List Record) : Server :=
  let s' := { s with handlers := s.handlers.set k out.1 }.logs out.2
  if out.1.stage = .ended true ∧ c.stage ≠ .ended true then s'.release else s'

def loop (act : LoopAct) (s : Server) : Server :=
  match s.acceptor, act with
  | .accepting, .stop => s.at_ .stopped
  | .accepting, .accept .connection => s.at_ .arrived
  | .accepting, .accept .interrupted => s
  | .accepting, .accept .error => s.at_ .stopped
  | .arrived, .stop => s.at_ .stopped
  | .arrived, .go => s.at_ (.trying s.conns)
  | .trying cur, .exchange spurious =>
      if s.maxConns ≤ cur then s.at_ .refusing
      else if spurious = false ∧ s.conns = cur then { s with conns := cur + 1 }.at_ .spawning
      else s.at_ (.trying s.conns)
  | .refusing, .go => (s.logs [.connRefusedOverLimit]).at_ .refused
  | .refused, .go => { s with nextConnId := s.nextConnId + 1 }.at_ (.numbered s.nextConnId)
  | .numbered connId, .go => (s.logs [.connClose connId .overLimit 0 0]).at_ .accepting
  | .spawning, .spawn true => { s with handlers := s.handlers ++ [Conn.start] }.at_ .accepting
  | .spawning, .spawn false => s.at_ .returning
  | .returning, .go => s.release.at_ .reporting
  | .reporting, .go => (s.logs [.connSpawnFailed]).at_ .accepting
  | _, _ => s

def step (cfg : RelayConfig) (act : ServeAct) (s : Server) : Server :=
  match act with
  | .loop act => s.loop act
  | .conn k act =>
      match s.handlers[k]?, act with
      | none, _ => s
      | some c, .main (.number _) =>
          -- the handler takes its number from the shared counter
          if c.stage = .queued then
            { s.moved k c (c.step cfg (.main (.number s.nextConnId))) with
              nextConnId := s.nextConnId + 1 }
          else s
      | some c, act => s.moved k c (c.step cfg act)

/-- What a step of the accept loop does, case by case. -/
inductive LoopMoves (s : Server) : Server → Prop where
  | stays : LoopMoves s s
  | turns (acceptor : Acceptor) (slot : acceptor.slot = s.acceptor.slot)
      (other : ∀ connId, acceptor ≠ .numbered connId) : LoopMoves s (s.at_ acceptor)
  | takes (cur : UInt64) (was : s.acceptor = .trying cur) (below : ¬s.maxConns ≤ cur)
      (same : s.conns = cur) : LoopMoves s ({ s with conns := cur + 1 }.at_ .spawning)
  | logs (record : Record) (acceptor : Acceptor) (slot : acceptor.slot = s.acceptor.slot)
      (kind : record = .connRefusedOverLimit ∨ record = .connSpawnFailed)
      (other : ∀ connId, acceptor ≠ .numbered connId) : LoopMoves s ((s.logs [record]).at_ acceptor)
  | numbers (was : s.acceptor = .refused) :
      LoopMoves s ({ s with nextConnId := s.nextConnId + 1 }.at_ (.numbered s.nextConnId))
  | closes (connId : UInt64) (was : s.acceptor = .numbered connId) :
      LoopMoves s ((s.logs [.connClose connId .overLimit 0 0]).at_ .accepting)
  | spawns (was : s.acceptor = .spawning) :
      LoopMoves s ({ s with handlers := s.handlers ++ [Conn.start] }.at_ .accepting)
  | releases (was : s.acceptor = .returning) : LoopMoves s (s.release.at_ .reporting)

theorem loop_moves (act : LoopAct) (s : Server) : LoopMoves s (s.loop act) := by
  unfold loop
  split
  case h_1 was => exact .turns _ (by rw [was]; rfl) nofun
  case h_2 was => exact .turns _ (by rw [was]; rfl) nofun
  case h_3 was => exact .stays
  case h_4 was => exact .turns _ (by rw [was]; rfl) nofun
  case h_5 was => exact .turns _ (by rw [was]; rfl) nofun
  case h_6 was => exact .turns _ (by rw [was]; rfl) nofun
  case h_7 was =>
    split
    · exact .turns _ (by rw [was]; rfl) nofun
    · rename_i below
      split
      · rename_i same
        exact .takes _ was below same.2
      · exact .turns _ (by rw [was]; rfl) nofun
  case h_8 was => exact .logs _ _ (by rw [was]; rfl) (.inl rfl) nofun
  case h_9 was => exact .numbers was
  case h_10 connId was => exact .closes connId was
  case h_11 was => exact .spawns was
  case h_12 was => exact .turns _ (by rw [was]; rfl) nofun
  case h_13 was => exact .releases was
  case h_14 was => exact .logs _ _ (by rw [was]; rfl) (.inr rfl) nofun
  case h_15 => exact .stays

end Server

/-! ## The counter -/

/-- The slot of a connection is out until its guard gives it back. -/
def Conn.out (c : Conn) : Bool := c.stage ≠ .ended true

/-- The counter is the slots that are out, within its bound. -/
structure Balanced (s : Server) : Prop where
  counts : s.conns.toNat = s.handlers.countP Conn.out + s.acceptor.slot
  bounded : s.conns ≤ s.maxConns
  proper : s.underflow = false

namespace Balanced

variable {s : Server}

theorem start (maxConns : UInt64) : Balanced (.start maxConns) where
  counts := rfl
  bounded := UInt64.zero_le
  proper := rfl

/-- The loop moves on and keeps its slot. -/
theorem at_ (balanced : Balanced s) {acceptor : Acceptor} (same : acceptor.slot = s.acceptor.slot) :
    Balanced (s.at_ acceptor) where
  counts := by
    show s.conns.toNat = _ + acceptor.slot
    rw [same]
    exact balanced.counts
  bounded := balanced.bounded
  proper := balanced.proper

/-- One slot comes back. -/
theorem release (counts : s.conns.toNat = s.handlers.countP Conn.out + s.acceptor.slot + 1)
    (bounded : s.conns ≤ s.maxConns) (proper : s.underflow = false) : Balanced s.release := by
  have one : (1 : UInt64).toNat = 1 := rfl
  have le : (1 : UInt64) ≤ s.conns := by
    rw [UInt64.le_iff_toNat_le, one]
    omega
  have less : s.release.conns.toNat = s.conns.toNat - 1 := by
    show (s.conns - 1).toNat = _
    rw [UInt64.toNat_sub_of_le _ _ le, one]
  refine ⟨?_, ?_, ?_⟩
  · show s.release.conns.toNat = s.handlers.countP Conn.out + s.acceptor.slot
    omega
  · show s.release.conns ≤ s.maxConns
    rw [UInt64.le_iff_toNat_le] at bounded ⊢
    omega
  · show (s.underflow || Decidable.decide (s.conns = 0)) = false
    have some_ : s.conns ≠ 0 := by
      intro zero
      rw [zero] at le
      exact absurd le (by decide)
    simp [proper, some_]

/-- A connection goes on: with its last step its slot comes back. -/
theorem moved (balanced : Balanced s) {k : Nat} {c : Conn} (here : s.handlers[k]? = some c)
    {out : Conn × List Record} (stays : c.stage = .ended true → out.1.stage = .ended true) :
    Balanced (s.moved k c out) := by
  obtain ⟨inside, same⟩ := List.getElem?_eq_some_iff.mp here
  have counts := balanced.counts
  have set := @List.countP_set _ Conn.out s.handlers k out.1 inside
  rw [same] at set
  have some_ : c.out = true → 0 < s.handlers.countP Conn.out := by
    intro slot
    rw [List.countP_pos_iff]
    exact ⟨c, List.mem_of_getElem? here, slot⟩
  unfold Server.moved
  dsimp only
  split_ifs with drops
  · have slot : c.out = true := by simpa [Conn.out] using drops.2
    have gone : out.1.out = false := by simpa [Conn.out] using drops.1
    have positive := some_ slot
    rw [slot, gone] at set
    refine release ?_ balanced.bounded balanced.proper
    show s.conns.toNat = (s.handlers.set k out.1).countP Conn.out + s.acceptor.slot + 1
    simp only [if_true, Bool.false_eq_true, if_false] at set
    omega
  · have kept : out.1.out = c.out := by
      unfold Conn.out
      by_cases atEnd : c.stage = .ended true
      · rw [atEnd, stays atEnd]
      · have live : out.1.stage ≠ .ended true := fun ends => drops ⟨ends, atEnd⟩
        simp [atEnd, live]
    refine ⟨?_, balanced.bounded, balanced.proper⟩
    show s.conns.toNat = (s.handlers.set k out.1).countP Conn.out + s.acceptor.slot
    rw [kept] at set
    cases slot : c.out with
    | true =>
        have positive := some_ slot
        rw [slot] at set
        simp only [if_true] at set
        omega
    | false =>
        rw [slot] at set
        simp only [Bool.false_eq_true, if_false] at set
        omega

/-- A slot is taken where the exchange finds the value it expects. -/
theorem taken (balanced : Balanced s) {cur : UInt64} (below : ¬s.maxConns ≤ cur) (same : s.conns = cur)
    (none_ : s.acceptor.slot = 0) : Balanced ({ s with conns := cur + 1 }.at_ .spawning) := by
  have one : (1 : UInt64).toNat = 1 := rfl
  have counts := balanced.counts
  have small := s.maxConns.toNat_lt
  rw [UInt64.le_iff_toNat_le, Nat.not_le] at below
  have more : (cur + 1).toNat = cur.toNat + 1 := by
    rw [UInt64.toNat_add, one, Nat.mod_eq_of_lt]
    omega
  refine ⟨?_, ?_, balanced.proper⟩
  · show (cur + 1).toNat = s.handlers.countP Conn.out + 1
    rw [more, ← same]
    omega
  · show cur + 1 ≤ s.maxConns
    rw [UInt64.le_iff_toNat_le, more]
    exact below

end Balanced

/-- A handler that has ended stays so. -/
theorem Conn.step_over (cfg : RelayConfig) (act : ConnAct) {c : Conn} {released : Bool}
    (atEnd : c.stage = .ended released) : (c.step cfg act).1.stage = .ended released := by
  cases act with
  | main input =>
      show (c.mainStep cfg input).1.stage = _
      unfold mainStep
      rw [atEnd]
      exact atEnd
  | pipe d input =>
      have moves := pipeStep_moves c d input
      show (c.pipeStep d input).stage = _
      generalize c.pipeStep d input = c' at moves
      cases moves <;> exact atEnd

theorem Balanced.step {cfg : RelayConfig} (act : ServeAct) (s : Server) (balanced : Balanced s) :
    Balanced (Server.step cfg act s) := by
  cases act with
  | loop act =>
      have moves := Server.loop_moves act s
      show Balanced (s.loop act)
      generalize s.loop act = s' at moves
      cases moves with
      | stays => exact balanced
      | turns acceptor slot => exact balanced.at_ slot
      | takes cur was below same => exact balanced.taken below same (by rw [was]; rfl)
      | logs record acceptor slot =>
          have logged : Balanced (s.logs [record]) := ⟨balanced.counts, balanced.bounded, balanced.proper⟩
          exact logged.at_ slot
      | numbers was =>
          have same : Balanced (s.at_ (.numbered s.nextConnId)) := balanced.at_ (by rw [was]; rfl)
          exact ⟨same.counts, same.bounded, same.proper⟩
      | closes connId was =>
          have same : Balanced (s.at_ .accepting) := balanced.at_ (by rw [was]; rfl)
          exact ⟨same.counts, same.bounded, same.proper⟩
      | spawns was =>
          have counts := balanced.counts
          rw [was] at counts
          refine ⟨?_, balanced.bounded, balanced.proper⟩
          show s.conns.toNat = (s.handlers ++ [Conn.start]).countP Conn.out + 0
          rw [List.countP_append, counts]
          rfl
      | releases was =>
          have counts := balanced.counts
          rw [was] at counts
          have back : Balanced (s.at_ .reporting).release :=
            .release counts balanced.bounded balanced.proper
          exact ⟨back.counts, back.bounded, back.proper⟩
  | conn k act =>
      unfold Server.step
      dsimp only
      split
      · exact balanced
      · rename_i c connId here
        split
        · have moved := balanced.moved here (c.step_over cfg (.main (.number s.nextConnId)))
          exact ⟨moved.counts, moved.bounded, moved.proper⟩
        · exact balanced
      · rename_i c here _
        exact balanced.moved here (c.step_over cfg _)

/-! ## The condition -/

/-- The handler takes its number. -/
def Input.isNumber : Input → Bool
  | .number _ => true
  | _ => false

/-- No handler panics before its close record is written, be it over a pipe thread it cannot
have; and the numbers of connections do not run out. -/
def Faultless (s : Server) : ServeAct → Prop
  | .conn k (.main input) => ∀ c ∈ s.handlers[k]?,
      (c.stage.after = true ∨ input.faults c.stage = false) ∧
        (input.isNumber = true → c.stage = .queued → s.nextConnId.toNat + 1 < 2 ^ 64)
  | .loop .go => s.acceptor = .refused → s.nextConnId.toNat + 1 < 2 ^ 64
  | _ => True

instance (s : Server) : DecidablePred (Faultless s)
  | .conn _ (.main _) => inferInstanceAs (Decidable (∀ c ∈ _, _))
  | .conn _ (.pipe _ _) => .isTrue trivial
  | .loop .go => inferInstanceAs (Decidable (_ → _))
  | .loop .stop => .isTrue trivial
  | .loop (.accept _) => .isTrue trivial
  | .loop (.exchange _) => .isTrue trivial
  | .loop (.spawn _) => .isTrue trivial

/-! ## One connection -/

/-- The handler or a pipe thread of the connection lives. -/
def Conn.live (c : Conn) : Bool :=
  !c.stage.isOver || c.pipes.c2s.live || c.pipes.s2c.live

/-- The handler outlives its pipe threads, and ends with its guard. -/
structure Orderly (c : Conn) : Prop where
  still : c.stage ≠ .spawningSecond → c.stage ≠ .joining → c.Still
  guarded : c.stage ≠ .unwinding false ∧ c.stage ≠ .ended false

theorem Orderly.start : Orderly .start where
  still _ _ d := by cases d <;> rfl
  guarded := ⟨nofun, nofun⟩

/-- A connection that lives has its slot. -/
theorem Orderly.out {c : Conn} (orderly : Orderly c) (live : c.live = true) : c.out = true := by
  by_contra gone
  have atEnd : c.stage = .ended true := by simpa [Conn.out] using gone
  have still := orderly.still (by rw [atEnd]; nofun) (by rw [atEnd]; nofun)
  have c2s : c.pipes.c2s.live = false := still .clientToServer
  have s2c : c.pipes.s2c.live = false := still .serverToClient
  rw [Conn.live, atEnd, c2s, s2c] at live
  nomatch live

/-- What a log says of the life of a connection. -/
def Record.ofLife (connId : UInt64) : Record → Bool
  | .connAccept other => other = connId
  | .connClose other _ _ _ => other = connId
  | _ => false

def life (connId : UInt64) (log : List Record) : List Record := log.filter (Record.ofLife connId)

theorem life_append (connId : UInt64) (log new : List Record) :
    life connId (log ++ new) = life connId log ++ life connId new := List.filter_append ..

/-- The records a connection has at its stage. -/
def Trace (c : Conn) (trace : List Record) : Prop :=
  if c.stage = .numbered then trace = []
  else if c.stage.after = true then
    ∃ reason c2s s2c, trace = [.connAccept c.connId, .connClose c.connId reason c2s s2c]
  else trace = [.connAccept c.connId]

/-- What a step makes of a connection that has its number. -/
structure Goes (c : Conn) (out : Conn × List Record) : Prop where
  orderly : Orderly out.1
  connId : out.1.connId = c.connId
  numbered : out.1.stage ≠ .queued
  trace : ∀ trace, Trace c trace → Trace out.1 (trace ++ life c.connId out.2)
  own : ∀ connId, connId ≠ c.connId → life connId out.2 = []

/-- A step between two stages that have the same records, and the pipes of the second. -/
def Stage.leadsTo (from_ next : Stage) : Bool :=
  from_ ≠ .numbered && from_ ≠ .spawningSecond && from_ ≠ .joining && from_.after = next.after &&
    next ≠ .queued && next ≠ .numbered && next ≠ .unwinding false && next ≠ .ended false

/-- No record of the life of a connection. -/
def Silent (records : List Record) : Prop := ∀ connId, life connId records = []

theorem Goes.trace_same {c c' : Conn} {new : List Record} (connId : c'.connId = c.connId)
    (from_ : c.stage ≠ .numbered) (next : c'.stage ≠ .numbered) (before : c.stage.after = c'.stage.after)
    (silent : Silent new) (trace : List Record) (traced : Trace c trace) :
    Trace c' (trace ++ life c.connId new) := by
  unfold Trace at *
  rw [if_neg from_] at traced
  rw [if_neg next, ← before, connId, silent, List.append_nil]
  exact traced

theorem Goes.quiet {c c' : Conn} {new : List Record} (orderly : Orderly c) (pipes : c'.pipes = c.pipes)
    (connId : c'.connId = c.connId) (leads : c.stage.leadsTo c'.stage = true) (silent : Silent new) :
    Goes c (c', new) := by
  simp only [Stage.leadsTo, Bool.and_eq_true, decide_eq_true_eq] at leads
  obtain ⟨⟨⟨⟨⟨⟨⟨from_, second⟩, joining⟩, before⟩, queued⟩, numbered⟩, unwinding⟩, atEnd⟩ := leads
  refine ⟨⟨?_, unwinding, atEnd⟩, connId, queued, trace_same connId from_ numbered before silent,
    fun other _ => silent other⟩
  intro _ _ d
  show (c'.pipes.get d).live = false
  rw [pipes]
  exact orderly.still second joining d

theorem Goes.refl {c : Conn} (orderly : Orderly c) (numbered : c.stage ≠ .queued) : Goes c (c, []) where
  orderly := orderly
  connId := rfl
  numbered := numbered
  trace trace traced := by
    show Trace c (trace ++ [])
    rwa [List.append_nil]
  own _ _ := rfl

theorem Goes.main {cfg : RelayConfig} {c : Conn} {input : Input} {out : Conn × List Record}
    (orderly : Orderly c) (numbered : c.stage ≠ .queued)
    (fine : c.stage.after = true ∨ input.faults c.stage = false)
    (moves : Conn.MainMoves cfg c input out) : Goes c out := by
  have silent : Silent [] := fun _ => rfl
  cases moves with
  | stays => exact .refl orderly numbered
  | numbers connId was => exact absurd was numbered
  | unwound guard was =>
      have kept : guard = true := by
        rw [← Bool.not_eq_false]
        intro other
        exact orderly.guarded.1 (by rw [was, other])
      subst kept
      exact .quiet orderly rfl rfl (by rw [was]; rfl) silent
  | panics live faults =>
      have after : c.stage.after = true := fine.resolve_right (by rw [faults]; nofun)
      have guarded := orderly.guarded
      refine .quiet orderly rfl rfl ?_ silent
      show c.stage.leadsTo (.unwinding c.stage.hasGuard) = true
      cases was : c.stage with
      | closed => rfl
      | unwinding guard =>
          cases guard with
          | true => rfl
          | false => exact absurd was guarded.1
      | ended released => rw [was] at live; nomatch live
      | _ => rw [was] at after; nomatch after
  | accepts was =>
      refine ⟨⟨fun _ _ => ?_, nofun, nofun⟩, rfl, nofun, ?_, ?_⟩
      · exact orderly.still (by rw [was]; nofun) (by rw [was]; nofun)
      · intro trace traced
        rw [Trace, if_pos was] at traced
        have own : life c.connId [.connAccept c.connId] = [.connAccept c.connId] := by
          simp [life, Record.ofLife]
        rw [traced, own]
        exact rfl
      · intro other ne
        simp [life, Record.ofLife, Ne.symm ne]
  | logs reason c2s s2c was =>
      refine ⟨⟨fun _ _ => ?_, nofun, nofun⟩, rfl, nofun, ?_, ?_⟩
      · exact orderly.still (by rw [was]; nofun) (by rw [was]; nofun)
      · intro trace traced
        rw [Trace, was] at traced
        have own : life c.connId [.connClose c.connId reason c2s s2c] =
            [.connClose c.connId reason c2s s2c] := by
          simp [life, Record.ofLife]
        rw [show trace = [.connAccept c.connId] from traced, own]
        exact ⟨reason, c2s, s2c, rfl⟩
      · intro other ne
        simp [life, Record.ofLife, Ne.symm ne]
  | guards was => exact .quiet orderly rfl rfl (by rw [was]; rfl) silent
  | warns was on =>
      refine .quiet orderly rfl rfl ?_ silent
      show c.stage.leadsTo (if _ then _ else _) = true
      rw [was]
      split_ifs <;> rfl
  | skips was off => exact .quiet orderly rfl rfl (by rw [was]; rfl) silent
  | refuses reason was other =>
      refine .quiet orderly rfl rfl ?_ silent
      rcases was with was | was | ⟨_, was⟩ <;> rw [was] <;> rfl
  | writesWarning written n was some_ =>
      refine .quiet orderly rfl rfl ?_ silent
      show c.stage.leadsTo (if _ then _ else _) = true
      rw [was]
      split_ifs <;> rfl
  | sent was => exact .quiet orderly rfl rfl (by rw [was]; rfl) fun _ => rfl
  | connects was => exact .quiet orderly rfl rfl (by rw [was]; rfl) fun _ => rfl
  | unreachable was =>
      refine .quiet orderly rfl rfl ?_ fun _ => rfl
      show c.stage.leadsTo (if _ then _ else _) = true
      rw [was]
      split_ifs <;> rfl
  | writesFailure written n was some_ =>
      refine .quiet orderly rfl rfl ?_ silent
      show c.stage.leadsTo (if _ then _ else _) = true
      rw [was]
      split_ifs <;> rfl
  | gives written was => exact .quiet orderly rfl rfl (by rw [was]; rfl) silent
  | clones was => exact .quiet orderly rfl rfl (by rw [was]; rfl) silent
  | spawns was =>
      exact ⟨⟨fun here => absurd rfl here, nofun, nofun⟩, rfl, nofun,
        trace_same rfl (by rw [was]; nofun) nofun (by rw [was]; rfl) silent, fun _ _ => rfl⟩
  | spawnsSecond was =>
      exact ⟨⟨fun _ here => absurd rfl here, nofun, nofun⟩, rfl, nofun,
        trace_same rfl (by rw [was]; nofun) nofun (by rw [was]; rfl) silent, fun _ _ => rfl⟩
  | joins was both =>
      refine ⟨⟨fun _ _ d => ?_, nofun, nofun⟩, rfl, nofun,
        trace_same rfl (by rw [was]; nofun) nofun (by rw [was]; rfl) silent, fun _ _ => rfl⟩
      cases d with
      | clientToServer => exact not_live_of_isOver both.1
      | serverToClient => exact not_live_of_isOver both.2
  | reports was => exact .quiet orderly rfl rfl (by rw [was]; rfl) fun _ => rfl
  | closes was => exact .quiet orderly rfl rfl (by rw [was]; rfl) silent
  | drops was => exact .quiet orderly rfl rfl (by rw [was]; rfl) silent

theorem Conn.PipeMoves.connId {c c' : Conn} {d : Direction} (moves : Conn.PipeMoves c d c') :
    c'.connId = c.connId := by
  cases moves <;> rfl

theorem Goes.pipe {c c' : Conn} {d : Direction} (orderly : Orderly c) (numbered : c.stage ≠ .queued)
    (moves : Conn.PipeMoves c d c') : Goes c (c', []) := by
  have connId := moves.connId
  by_cases running : c.stage = .spawningSecond ∨ c.stage = .joining
  · have stage := moves.stage
    refine ⟨⟨fun second joining => ?_, ?_, ?_⟩, connId, by rwa [stage], ?_, fun _ _ => rfl⟩
    · rcases running with was | was
      · exact absurd (stage.trans was) second
      · exact absurd (stage.trans was) joining
    · rw [stage]
      exact orderly.guarded.1
    · rw [stage]
      exact orderly.guarded.2
    · refine trace_same connId ?_ ?_ (by rw [stage]) fun _ => rfl
      · rcases running with was | was <;> rw [was] <;> nofun
      · rw [stage]
        rcases running with was | was <;> rw [was] <;> nofun
  · rw [not_or] at running
    rw [moves.still (orderly.still running.1 running.2 d)]
    exact .refl orderly numbered

/-- Before it has its number, a connection only takes it. -/
theorem Conn.queued_stays {cfg : RelayConfig} {c : Conn} {input : Input} (was : c.stage = .queued)
    (other : input.isNumber = false) (fine : input.faults c.stage = false) :
    c.mainStep cfg input = (c, []) := by
  unfold mainStep
  rw [was]
  cases input with
  | go => rfl
  | number connId => nomatch other
  | outcome ok => cases ok <;> rfl
  | wrote result => cases result <;> rfl
  | panic => nomatch fine

theorem Conn.queued_pipe {c : Conn} (orderly : Orderly c) (was : c.stage = .queued) (d : Direction)
    (input : PipeInput) : c.pipeStep d input = c :=
  (c.pipeStep_moves d input).still (orderly.still (by rw [was]; nofun) (by rw [was]; nofun) d)

/-! ## All connections -/

/-- A connection of the server that has its number. -/
def Server.Has (s : Server) (k : Nat) (c : Conn) : Prop := s.handlers[k]? = some c ∧ c.stage ≠ .queued

/-- Connections have numbers of their own, and the log has of each what its stage says. -/
structure Tracked (s : Server) : Prop where
  orderly : ∀ c ∈ s.handlers, Orderly c
  numbers : ∀ k c, s.Has k c → c.connId.toNat < s.nextConnId.toNat
  traces : ∀ k c, s.Has k c → Trace c (life c.connId s.log)
  distinct : ∀ k k' c c', s.Has k c → s.Has k' c' → c.connId = c'.connId → k = k'
  fresh : ∀ connId : UInt64, s.nextConnId.toNat ≤ connId.toNat → life connId s.log = []
  refused : ∀ connId, s.acceptor = .numbered connId → connId.toNat < s.nextConnId.toNat ∧
    ∀ k c, s.Has k c → c.connId ≠ connId
  known : ∀ connId, Record.connAccept connId ∈ s.log → ∃ k c, s.Has k c ∧ c.connId = connId

namespace Tracked

variable {s : Server}

theorem not_has_start (maxConns : UInt64) (k : Nat) (c : Conn) : ¬(Server.start maxConns).Has k c := by
  rintro ⟨here, -⟩
  have here : ([] : List Conn)[k]? = some c := here
  rw [List.getElem?_nil] at here
  nomatch here

theorem start (maxConns : UInt64) : Tracked (.start maxConns) := by
  have none_ := not_has_start maxConns
  refine ⟨?_, fun k c here => absurd here (none_ k c), fun k c here => absurd here (none_ k c),
    fun k _ c _ here => absurd here (none_ k c), fun _ _ => rfl, ?_, ?_⟩
  · intro c mem
    exact absurd mem List.not_mem_nil
  · intro connId was
    nomatch was
  · intro connId mem
    exact absurd mem List.not_mem_nil

/-- An accept that is logged shows in the life of its connection. -/
theorem accept_mem_life {connId : UInt64} {log : List Record} (mem : Record.connAccept connId ∈ log) :
    Record.connAccept connId ∈ life connId log :=
  List.mem_filter.mpr ⟨mem, by simp [Record.ofLife]⟩

/-- The loop goes on; what it logs is of no life. -/
theorem turns (tracked : Tracked s) {s' : Server} {new : List Record} (handlers : s'.handlers = s.handlers)
    (next : s'.nextConnId = s.nextConnId) (log : s'.log = s.log ++ new) (silent : Silent new)
    (other : ∀ connId, s'.acceptor = .numbered connId → s.acceptor = .numbered connId) : Tracked s' := by
  have has : s'.Has = s.Has := by
    funext k c
    rw [Server.Has, handlers]
    rfl
  have same : ∀ connId, life connId s'.log = life connId s.log := by
    intro connId
    rw [log, life_append, silent, List.append_nil]
  refine ⟨?_, ?_, ?_, ?_, ?_, ?_, ?_⟩
  · rw [handlers]
    exact tracked.orderly
  · rw [has, next]
    exact tracked.numbers
  · intro k c
    rw [has, same]
    exact tracked.traces k c
  · rw [has]
    exact tracked.distinct
  · intro connId
    rw [next, same]
    exact tracked.fresh connId
  · intro connId was
    rw [has, next]
    exact tracked.refused connId (other connId was)
  · intro connId mem
    rw [has]
    rw [log] at mem
    rcases List.mem_append.mp mem with old | mem
    · exact tracked.known connId old
    · have own := accept_mem_life mem
      rw [silent] at own
      nomatch own

/-- A number of the shared counter is passed, to the loop or to a connection. -/
theorem next_toNat (room : s.nextConnId.toNat + 1 < 2 ^ 64) :
    (s.nextConnId + 1).toNat = s.nextConnId.toNat + 1 := by
  have one : (1 : UInt64).toNat = 1 := rfl
  rw [UInt64.toNat_add, one, Nat.mod_eq_of_lt room]

/-- The loop takes a number for a connection it refuses. -/
theorem numbered (tracked : Tracked s) (room : s.nextConnId.toNat + 1 < 2 ^ 64) :
    Tracked ({ s with nextConnId := s.nextConnId + 1 }.at_ (.numbered s.nextConnId)) where
  orderly := tracked.orderly
  numbers k c here := by
    have before := tracked.numbers k c here
    show c.connId.toNat < (s.nextConnId + 1).toNat
    rw [next_toNat room]
    omega
  traces := tracked.traces
  distinct := tracked.distinct
  fresh connId from_ := by
    refine tracked.fresh connId ?_
    have from_ : (s.nextConnId + 1).toNat ≤ connId.toNat := from_
    rw [next_toNat room] at from_
    omega
  refused connId was := by
    obtain rfl := Acceptor.numbered.inj was
    refine ⟨?_, ?_⟩
    · show s.nextConnId.toNat < (s.nextConnId + 1).toNat
      rw [next_toNat room]
      omega
    · intro k c here same
      have before := tracked.numbers k c here
      rw [same] at before
      omega
  known := tracked.known

/-- The refused connection is closed. -/
theorem closes (tracked : Tracked s) {connId : UInt64} (was : s.acceptor = .numbered connId) :
    Tracked ((s.logs [.connClose connId .overLimit 0 0]).at_ .accepting) := by
  obtain ⟨below, apart⟩ := tracked.refused connId was
  have other : ∀ connId', connId' ≠ connId →
      life connId' (s.log ++ [.connClose connId .overLimit 0 0]) = life connId' s.log := by
    intro connId' ne
    rw [life_append]
    simp [life, Record.ofLife, Ne.symm ne]
  refine ⟨tracked.orderly, tracked.numbers, ?_, tracked.distinct, ?_, nofun, ?_⟩
  · intro k c here
    show Trace c (life c.connId (s.log ++ _))
    rw [other _ (apart k c here)]
    exact tracked.traces k c here
  · intro connId' from_
    show life connId' (s.log ++ _) = []
    rw [other connId' (by rintro rfl; exact absurd below (Nat.not_lt.mpr from_))]
    exact tracked.fresh connId' from_
  · intro connId' mem
    rcases List.mem_append.mp mem with old | new
    · exact tracked.known connId' old
    · nomatch List.mem_singleton.mp new

/-- A connection is handed to a new thread. -/
theorem spawns (tracked : Tracked s) :
    Tracked ({ s with handlers := s.handlers ++ [Conn.start] }.at_ .accepting) := by
  have old : ∀ k c, ({ s with handlers := s.handlers ++ [Conn.start] }.at_ .accepting).Has k c → s.Has k c := by
    rintro k c ⟨here, numbered⟩
    have here : (s.handlers ++ [Conn.start])[k]? = some c := here
    rcases Nat.lt_or_ge k s.handlers.length with inside | outside
    · rw [List.getElem?_append_left inside] at here
      exact ⟨here, numbered⟩
    · rw [List.getElem?_append_right outside] at here
      have new := List.mem_of_getElem? here
      rw [List.mem_singleton] at new
      rw [new] at numbered
      exact absurd rfl numbered
  refine ⟨?_, fun k c here => tracked.numbers k c (old k c here),
    fun k c here => tracked.traces k c (old k c here),
    fun k k' c c' here there => tracked.distinct k k' c c' (old k c here) (old k' c' there),
    tracked.fresh, nofun, ?_⟩
  · intro c mem
    rcases List.mem_append.mp mem with before | new
    · exact tracked.orderly c before
    · rw [List.mem_singleton.mp new]
      exact .start
  · intro connId mem
    obtain ⟨k, c, ⟨here, numbered⟩, same⟩ := tracked.known connId mem
    refine ⟨k, c, ⟨?_, numbered⟩, same⟩
    show (s.handlers ++ [Conn.start])[k]? = some c
    rw [List.getElem?_append_left (List.getElem?_eq_some_iff.mp here).1, here]

/-- What is in the list of handlers once one of them is replaced. -/
theorem has_set {s' : Server} {k : Nat} {c c' : Conn} (here : s.handlers[k]? = some c)
    (handlers : s'.handlers = s.handlers.set k c') (numbered : c'.stage ≠ .queued) (j : Nat) (c'' : Conn) :
    s'.Has j c'' ↔ j = k ∧ c'' = c' ∨ j ≠ k ∧ s.Has j c'' := by
  have inside := (List.getElem?_eq_some_iff.mp here).1
  unfold Server.Has
  rw [handlers]
  by_cases same : j = k
  · subst same
    rw [List.getElem?_set_self inside, Option.some.injEq]
    constructor
    · rintro ⟨rfl, -⟩
      exact .inl ⟨rfl, rfl⟩
    · rintro (⟨-, rfl⟩ | ⟨ne, -⟩)
      · exact ⟨rfl, numbered⟩
      · exact absurd rfl ne
  · rw [List.getElem?_set_ne (Ne.symm same)]
    simp [same]

theorem orderly_set (tracked : Tracked s) {s' : Server} {k : Nat} {c' : Conn}
    (handlers : s'.handlers = s.handlers.set k c') (orderly : Orderly c') : ∀ c ∈ s'.handlers, Orderly c := by
  intro c mem
  rw [handlers] at mem
  rcases List.mem_or_eq_of_mem_set mem with old | rfl
  · exact tracked.orderly c old
  · exact orderly

/-- A connection that has its number goes on. -/
theorem goes (tracked : Tracked s) {s' : Server} {k : Nat} {c : Conn} {out : Conn × List Record}
    (here : s.Has k c) (goes : Goes c out) (handlers : s'.handlers = s.handlers.set k out.1)
    (next : s'.nextConnId = s.nextConnId) (log : s'.log = s.log ++ out.2)
    (acceptor : s'.acceptor = s.acceptor) : Tracked s' := by
  have has := has_set here.1 handlers goes.numbered
  have lives : ∀ connId, life connId s'.log = life connId s.log ++ life connId out.2 := by
    intro connId
    rw [log, life_append]
  have others : ∀ connId, connId ≠ c.connId → life connId s'.log = life connId s.log := by
    intro connId ne
    rw [lives, goes.own connId ne, List.append_nil]
  have apart : ∀ j c', j ≠ k → s.Has j c' → c'.connId ≠ c.connId :=
    fun j c' ne there same => ne (tracked.distinct j k c' c there here same)
  refine ⟨tracked.orderly_set handlers goes.orderly, ?_, ?_, ?_, ?_, ?_, ?_⟩
  · intro j c' there
    rw [next]
    rcases (has j c').mp there with ⟨-, rfl⟩ | ⟨-, old⟩
    · rw [goes.connId]
      exact tracked.numbers k c here
    · exact tracked.numbers j c' old
  · intro j c' there
    rcases (has j c').mp there with ⟨-, rfl⟩ | ⟨ne, old⟩
    · rw [goes.connId, lives]
      exact goes.trace _ (tracked.traces k c here)
    · rw [others _ (apart j c' ne old)]
      exact tracked.traces j c' old
  · intro j j' c₁ c₂ first second same
    rcases (has j c₁).mp first with ⟨rfl, rfl⟩ | ⟨ne, old⟩
    · rcases (has j' c₂).mp second with ⟨rfl, -⟩ | ⟨ne', old'⟩
      · rfl
      · rw [goes.connId] at same
        exact absurd same.symm (apart j' c₂ ne' old')
    · rcases (has j' c₂).mp second with ⟨rfl, rfl⟩ | ⟨-, old'⟩
      · rw [goes.connId] at same
        exact absurd same (apart j c₁ ne old)
      · exact tracked.distinct j j' c₁ c₂ old old' same
  · intro connId from_
    rw [next] at from_
    have below := tracked.numbers k c here
    rw [others connId (by rintro rfl; omega)]
    exact tracked.fresh connId from_
  · intro connId was
    rw [acceptor] at was
    obtain ⟨below, refused⟩ := tracked.refused connId was
    rw [next]
    refine ⟨below, fun j c' there => ?_⟩
    rcases (has j c').mp there with ⟨-, rfl⟩ | ⟨-, old⟩
    · rw [goes.connId]
      exact refused k c here
    · exact refused j c' old
  · intro connId mem
    have own : s'.Has k out.1 := (has k out.1).mpr (.inl ⟨rfl, rfl⟩)
    by_cases same : connId = c.connId
    · exact ⟨k, out.1, own, goes.connId.trans same.symm⟩
    · have inLife := accept_mem_life mem
      rw [others connId same] at inLife
      obtain ⟨j, c', there, rfl⟩ := tracked.known connId (List.mem_of_mem_filter inLife)
      have ne : j ≠ k := by
        rintro rfl
        have both : some c' = some c := there.1.symm.trans here.1
        rw [Option.some.inj both] at same
        exact same rfl
      exact ⟨j, c', (has j c').mpr (.inr ⟨ne, there⟩), rfl⟩

/-- A connection takes its number. -/
theorem takes (tracked : Tracked s) {s' : Server} {k : Nat} {c : Conn} (here : s.handlers[k]? = some c)
    (was : c.stage = .queued) (room : s.nextConnId.toNat + 1 < 2 ^ 64)
    (handlers : s'.handlers = s.handlers.set k { c with stage := .numbered, connId := s.nextConnId })
    (next : s'.nextConnId = s.nextConnId + 1) (log : s'.log = s.log)
    (acceptor : s'.acceptor = s.acceptor) : Tracked s' := by
  have has := has_set here handlers nofun
  have more : s'.nextConnId.toNat = s.nextConnId.toNat + 1 := by rw [next, next_toNat room]
  have still := (tracked.orderly c (List.mem_of_getElem? here)).still (by rw [was]; nofun) (by rw [was]; nofun)
  have older : ∀ j c', s.Has j c' → c'.connId ≠ s.nextConnId := by
    intro j c' there same
    have below := tracked.numbers j c' there
    rw [same] at below
    omega
  refine ⟨tracked.orderly_set handlers ⟨fun _ _ => still, nofun, nofun⟩, ?_, ?_, ?_, ?_, ?_, ?_⟩
  · intro j c' there
    rw [more]
    rcases (has j c').mp there with ⟨-, rfl⟩ | ⟨-, old⟩
    · exact Nat.lt_succ_self _
    · have below := tracked.numbers j c' old
      omega
  · intro j c' there
    rw [log]
    rcases (has j c').mp there with ⟨-, rfl⟩ | ⟨-, old⟩
    · exact tracked.fresh s.nextConnId (le_refl _)
    · exact tracked.traces j c' old
  · intro j j' c₁ c₂ first second same
    rcases (has j c₁).mp first with ⟨rfl, rfl⟩ | ⟨-, old⟩
    · rcases (has j' c₂).mp second with ⟨rfl, -⟩ | ⟨-, old'⟩
      · rfl
      · exact absurd same.symm (older j' c₂ old')
    · rcases (has j' c₂).mp second with ⟨rfl, rfl⟩ | ⟨-, old'⟩
      · exact absurd same (older j c₁ old)
      · exact tracked.distinct j j' c₁ c₂ old old' same
  · intro connId from_
    rw [log]
    exact tracked.fresh connId (by omega)
  · intro connId wasNumbered
    rw [acceptor] at wasNumbered
    obtain ⟨below, refused⟩ := tracked.refused connId wasNumbered
    refine ⟨by omega, fun j c' there => ?_⟩
    rcases (has j c').mp there with ⟨-, rfl⟩ | ⟨-, old⟩
    · show s.nextConnId ≠ connId
      rintro rfl
      omega
    · exact refused j c' old
  · intro connId mem
    rw [log] at mem
    obtain ⟨j, c', there, same⟩ := tracked.known connId mem
    have ne : j ≠ k := by
      rintro rfl
      have both : some c' = some c := there.1.symm.trans here
      exact there.2 (by rw [Option.some.inj both, was])
    exact ⟨j, c', (has j c').mpr (.inr ⟨ne, there⟩), same⟩

/-- With the end of a handler only the counter changes. -/
theorem moved_fields (s : Server) (k : Nat) (c : Conn) (out : Conn × List Record) :
    (s.moved k c out).handlers = s.handlers.set k out.1 ∧ (s.moved k c out).log = s.log ++ out.2 ∧
      (s.moved k c out).nextConnId = s.nextConnId ∧ (s.moved k c out).acceptor = s.acceptor := by
  unfold Server.moved
  dsimp only
  split_ifs <;> exact ⟨rfl, rfl, rfl, rfl⟩

theorem loop (tracked : Tracked s) {act : LoopAct} (fine : Faultless s (.loop act)) : Tracked (s.loop act) := by
  by_cases numbering : s.acceptor = .refused ∧ act = .go
  · obtain ⟨was, rfl⟩ := numbering
    have next := tracked.numbered (fine was)
    unfold Server.loop
    rw [was]
    exact next
  · have moves := Server.loop_moves act s
    have kept : (s.loop act).nextConnId = s.nextConnId := by
      unfold Server.loop
      split <;> try rfl
      · split_ifs <;> rfl
      · rename_i was
        exact absurd ⟨was, rfl⟩ numbering
    generalize s.loop act = s' at moves kept
    have silent : Silent [] := fun _ => rfl
    have same : s.log = s.log ++ [] := (List.append_nil _).symm
    cases moves with
    | stays => exact tracked
    | turns acceptor slot other =>
        exact tracked.turns rfl rfl same silent fun connId was => absurd was (other connId)
    | takes cur was below => exact tracked.turns rfl rfl same silent nofun
    | logs record acceptor slot kind other =>
        refine tracked.turns rfl rfl rfl ?_ fun connId was => absurd was (other connId)
        intro connId
        rcases kind with rfl | rfl <;> rfl
    | numbers was =>
        -- the number that is taken is another one
        have kept : s.nextConnId + 1 = s.nextConnId := kept
        simp at kept
    | closes connId was => exact tracked.closes was
    | spawns was => exact tracked.spawns
    | releases was => exact tracked.turns rfl rfl same silent nofun

/-- A step of a connection that is not the taking of its number. -/
theorem conn (tracked : Tracked s) {cfg : RelayConfig} {k : Nat} {c : Conn} {act : ConnAct}
    (here : s.handlers[k]? = some c)
    (fine : ∀ input, act = .main input → c.stage.after = true ∨ input.faults c.stage = false)
    (other : ∀ input, act = .main input → input.isNumber = false ∨ c.stage ≠ .queued) :
    Tracked (s.moved k c (c.step cfg act)) := by
  obtain ⟨handlers, log, next, acceptor⟩ := moved_fields s k c (c.step cfg act)
  have orderly := tracked.orderly c (List.mem_of_getElem? here)
  by_cases queued : c.stage = .queued
  · have same : c.step cfg act = (c, []) := by
      cases act with
      | main input =>
          have faultless := (fine input rfl).resolve_left (by rw [queued]; nofun)
          exact c.queued_stays queued ((other input rfl).resolve_right (fun ne => ne queued)) faultless
      | pipe d input =>
          show (c.pipeStep d input, []) = (c, [])
          rw [Conn.queued_pipe orderly queued]
    obtain ⟨inside, at_⟩ := List.getElem?_eq_some_iff.mp here
    rw [same] at handlers log next acceptor ⊢
    have unchanged : s.handlers.set k c = s.handlers := by
      rw [← at_]
      exact List.set_getElem_self inside
    exact tracked.turns (handlers.trans unchanged) next log (fun _ => rfl) fun connId was => acceptor.symm.trans was
  · refine tracked.goes ⟨here, queued⟩ ?_ handlers next log acceptor
    cases act with
    | main input => exact .main orderly queued (fine input rfl) (c.mainStep_moves cfg input)
    | pipe d input => exact .pipe orderly queued (c.pipeStep_moves d input)

theorem step {cfg : RelayConfig} (act : ServeAct) (s : Server) (fine : Faultless s act)
    (tracked : Tracked s) : Tracked (Server.step cfg act s) := by
  cases act with
  | loop act => exact tracked.loop fine
  | conn k act =>
      unfold Server.step
      dsimp only
      split
      · exact tracked
      · rename_i c connId here
        obtain ⟨-, room⟩ := fine c here
        split
        · rename_i queued
          obtain ⟨handlers, log, -, acceptor⟩ :=
            moved_fields s k c (c.step cfg (.main (.number s.nextConnId)))
          have out : c.step cfg (.main (.number s.nextConnId)) =
              ({ c with stage := .numbered, connId := s.nextConnId }, []) := by
            show c.mainStep cfg _ = _
            unfold Conn.mainStep
            rw [queued]
          rw [out] at handlers log acceptor ⊢
          exact tracked.takes here queued (room rfl queued) handlers rfl (log.trans (List.append_nil _)) acceptor
        · exact tracked
      · rename_i c here notNumber
        refine tracked.conn here ?_ ?_
        · rintro input rfl
          exact (fine c here).1
        · rintro input rfl
          left
          cases input with
          | number connId => exact absurd rfl (notNumber connId)
          | _ => rfl

end Tracked

/-! ## Every run -/

theorem Server.loop_maxConns (act : LoopAct) (s : Server) : (s.loop act).maxConns = s.maxConns := by
  unfold Server.loop
  split <;> try rfl
  split_ifs <;> rfl

theorem Server.moved_maxConns (s : Server) (k : Nat) (c : Conn) (out : Conn × List Record) :
    (s.moved k c out).maxConns = s.maxConns := by
  unfold Server.moved
  dsimp only
  split_ifs <;> rfl

theorem Server.step_maxConns (cfg : RelayConfig) (act : ServeAct) (s : Server) :
    (Server.step cfg act s).maxConns = s.maxConns := by
  cases act with
  | loop act => exact Server.loop_maxConns act s
  | conn k act =>
      unfold Server.step
      dsimp only
      split
      · rfl
      · split
        · exact Server.moved_maxConns ..
        · rfl
      · exact Server.moved_maxConns ..

/-- The counter is right whatever happens, panics included. -/
theorem balanced_always (cfg : RelayConfig) (maxConns : UInt64) (acts : List ServeAct) :
    Balanced (run (Server.step cfg) acts (.start maxConns)) ∧
      (run (Server.step cfg) acts (.start maxConns)).maxConns = maxConns := by
  have preserved : ∀ act s, Balanced s ∧ s.maxConns = maxConns →
      Balanced (Server.step cfg act s) ∧ (Server.step cfg act s).maxConns = maxConns := by
    rintro act s ⟨balanced, same⟩
    exact ⟨balanced.step act s, (Server.step_maxConns cfg act s).trans same⟩
  exact run_invariant (Server.step cfg) preserved acts ⟨.start maxConns, rfl⟩

/-- No connection that lives is without its slot. -/
theorem Tracked.live_le_out {s : Server} (tracked : Tracked s) :
    s.handlers.countP Conn.live ≤ s.handlers.countP Conn.out :=
  List.countP_mono_left fun c mem live => (tracked.orderly c mem).out live

/-- When all connections have ended, no slot is out. -/
theorem Tracked.none_out {s : Server} (tracked : Tracked s) (ended : ∀ c ∈ s.handlers, c.live = false) :
    s.handlers.countP Conn.out = 0 := by
  rw [List.countP_eq_zero]
  intro c mem out
  have guarded := (tracked.orderly c mem).guarded.2
  have atEnd : c.stage.isOver = true := by
    have ended := ended c mem
    rw [Conn.live, Bool.or_eq_false_iff, Bool.or_eq_false_iff] at ended
    simpa using ended.1.1
  cases was : c.stage with
  | ended released =>
      cases released with
      | true => simp [Conn.out, was] at out
      | false => exact guarded was
  | _ => rw [was] at atEnd; nomatch atEnd

theorem Stage.live_of_not_after {stage : Stage} (going : stage.after = false) : stage.isOver = false := by
  cases stage with
  | ended released => nomatch going
  | _ => rfl

/-- Where an accept stands in the log, and what of its connection is around it. -/
theorem Tracked.accept {s : Server} (tracked : Tracked s) {before after : List Record} {connId : UInt64}
    (log : s.log = before ++ .connAccept connId :: after) :
    life connId before = [] ∧ ∃ c ∈ s.handlers, c.connId = connId ∧
      (life connId after = [] ∧ c.live = true ∨
        ∃ reason c2s s2c, life connId after = [.connClose connId reason c2s s2c]) := by
  have mem : Record.connAccept connId ∈ s.log := by
    rw [log]
    exact List.mem_append_right _ List.mem_cons_self
  obtain ⟨k, c, here, rfl⟩ := tracked.known connId mem
  have split : life c.connId s.log =
      life c.connId before ++ .connAccept c.connId :: life c.connId after := by
    rw [log, life_append]
    simp [life, Record.ofLife]
  have traced := tracked.traces k c here
  rw [split] at traced
  have present : c ∈ s.handlers := List.mem_of_getElem? here.1
  generalize life c.connId before = pre at traced
  generalize life c.connId after = post at traced
  unfold Trace at traced
  split_ifs at traced with numbered ended
  · exact absurd traced (by simp)
  · obtain ⟨reason, c2s, s2c, trace⟩ := traced
    obtain ⟨first, rest⟩ : pre = [] ∧ post = [.connClose c.connId reason c2s s2c] := by
      rcases pre with _ | ⟨x, _ | ⟨y, more⟩⟩
      · simpa using trace
      · simp at trace
      · simp at trace
    exact ⟨first, c, present, rfl, .inr ⟨reason, c2s, s2c, rest⟩⟩
  · obtain ⟨first, rest⟩ : pre = [] ∧ post = [] := by
      rcases pre with _ | ⟨x, more⟩
      · simpa using traced
      · simp at traced
    have going : c.stage.after = false := by simpa using ended
    have live : c.live = true := by
      rw [Conn.live, Stage.live_of_not_after going]
      rfl
    exact ⟨first, c, present, rfl, .inl ⟨rest, live⟩⟩

/-- As long as no handler panics before its close record, every connection that lives has one
of the slots, and what is logged of it is its accept and, by its end, one close. -/
theorem slots_are_balanced (cfg : RelayConfig) (maxConns : UInt64) (acts : List ServeAct)
    (faultless : Along (Server.step cfg) Faultless acts (.start maxConns)) :
    let s := run (Server.step cfg) acts (.start maxConns)
    s.handlers.countP Conn.live ≤ s.conns.toNat ∧ s.conns ≤ maxConns ∧ s.underflow = false ∧
      ((∀ c ∈ s.handlers, c.live = false) → s.acceptor.slot = 0 → s.conns = 0) ∧
      ∀ before connId after, s.log = before ++ .connAccept connId :: after →
        life connId before = [] ∧ ∃ c ∈ s.handlers, c.connId = connId ∧
          (life connId after = [] ∧ c.live = true ∨
            ∃ reason c2s s2c, life connId after = [.connClose connId reason c2s s2c]) := by
  intro s
  obtain ⟨balanced, bound⟩ := balanced_always cfg maxConns acts
  have tracked : Tracked s :=
    run_invariant_along (Server.step cfg) Tracked.step acts faultless (.start maxConns)
  have counts : s.conns.toNat = s.handlers.countP Conn.out + s.acceptor.slot := balanced.counts
  refine ⟨?_, ?_, balanced.proper, ?_, fun _ _ _ log => tracked.accept log⟩
  · have le := tracked.live_le_out
    omega
  · rw [← bound]
    exact balanced.bounded
  · intro ended slot
    have none_ := tracked.none_out ended
    rw [← UInt64.toNat_inj]
    show s.conns.toNat = 0
    omega

/-- A connection is taken in and numbered by its handler. -/
def admitted : List ServeAct :=
  [.loop (.accept .connection), .loop .go, .loop (.exchange false), .loop (.spawn true),
    .conn 0 (.main (.number 0))]

/-- The handler that cannot set its socket up goes to its end. -/
def closedAtOnce : List ServeAct :=
  [.main .go, .main .go, .main (.outcome false), .main .go, .main .go].map (ServeAct.conn 0)

def bareRelay : RelayConfig where
  warnMode := false
  warnLine := []
  failureLine := false

theorem slots_are_balanced_one :
    (run (Server.step bareRelay) (admitted ++ closedAtOnce) (.start 1)).conns = 0 :=
  (slots_are_balanced bareRelay 1 (admitted ++ closedAtOnce) (by decide +kernel)).2.2.2.1
    (by decide +kernel) (by decide +kernel)

/-- The handler gets the first of its pipe threads and not the second. -/
def halfPiped : List ServeAct :=
  [.main .go, .main .go, .main (.outcome true), .main (.outcome true), .main (.outcome true),
    .main (.outcome true), .main (.outcome false), .main .go].map (ServeAct.conn 0)

/-- Its slot comes back while the first thread still runs, and its accept has no close. -/
theorem second_thread_is_lost :
    let s := run (Server.step bareRelay) (admitted ++ halfPiped) (.start 1)
    s.handlers.countP Conn.live = 1 ∧ s.conns = 0 ∧ (∀ c ∈ s.handlers, c.stage = .ended true) ∧
      s.log = [.connAccept 1, .upstreamConnect 1 true] := by
  decide +kernel

end Jbuu.Doorkeeper
