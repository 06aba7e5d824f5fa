/-
# Doorkeeper.Transparent — what the relay adds, counts and blames

Over any schedule of a connection's three threads. What a destination took is a prefix of
what was read (`Flow`); the client gets the greeting and then the relayed bytes, and where
nothing is relayed a part of the greeting and the failure line (`Told`). The first error
recorded is one that came before the relay shut a socket down (`Blames`): an error recorded
later finds the slot taken. So the close record is true (`Closes`).
-/
import Jbuu.Library.Runs
import Jbuu.Doorkeeper.Relay

namespace Jbuu.Doorkeeper

set_option autoImplicit false

open Jbuu.Library.BigEndian (Bytes)
open Jbuu.Library

/-! ## One direction -/

/-- The counter stands at some number of bytes, as far as it counts. -/
def Pipe.Counts (p : Pipe) (n : Nat) : Prop := p.counter = .ofNat n

/-- All that was read up to the end of file is delivered, counted, and shut down behind. -/
structure Pipe.Clean (p : Pipe) : Prop where
  eof : p.eof = true
  all : p.delivered = p.taken
  shut : p.shutAt = some p.delivered.length
  counts : p.Counts p.delivered.length

/-- What a pipe thread has done, by where it is. -/
def Pipe.Flow (p : Pipe) : Prop :=
  match p.at_ with
  | .unborn => p = .unborn
  | .reading => p.delivered = p.taken ∧ p.Counts p.delivered.length
  | .writing chunk written => written < chunk.length ∧ ∃ before, p.taken = before ++ chunk ∧
      p.delivered = before ++ chunk.take written ∧ p.Counts before.length
  | .counting n => p.delivered = p.taken ∧ ∃ m, p.delivered.length = m + n ∧ p.Counts m
  | .shutting => p.eof = true ∧ p.delivered = p.taken ∧ p.Counts p.delivered.length
  | .ended true => p.Clean
  | _ => p.delivered <+: p.taken ∧ ∃ m, m ≤ p.delivered.length ∧ p.Counts m

namespace Pipe.Flow

variable {p : Pipe}

/-- Wherever the thread is: a prefix was delivered, and no more is counted. -/
theorem bounded (flow : p.Flow) : p.delivered <+: p.taken ∧ ∃ m, m ≤ p.delivered.length ∧ p.Counts m := by
  unfold Flow at flow
  split at flow
  · rw [flow]
    exact ⟨List.prefix_rfl, 0, Nat.le_refl 0, rfl⟩
  · exact ⟨flow.1 ▸ List.prefix_rfl, _, Nat.le_refl _, flow.2⟩
  · obtain ⟨-, before, taken, delivered, counts⟩ := flow
    refine ⟨?_, before.length, ?_, counts⟩
    · rw [taken, delivered]
      exact (List.prefix_append_right_inj before).mpr (List.take_prefix ..)
    · rw [delivered, List.length_append]
      exact Nat.le_add_right ..
  · obtain ⟨all, m, long_, counts⟩ := flow
    exact ⟨all ▸ List.prefix_rfl, m, by omega, counts⟩
  · exact ⟨flow.2.1 ▸ List.prefix_rfl, _, Nat.le_refl _, flow.2.2⟩
  · exact ⟨flow.all ▸ List.prefix_rfl, _, Nat.le_refl _, flow.counts⟩
  · exact flow

theorem counter_le (flow : p.Flow) : p.counter.toNat ≤ p.delivered.length := by
  obtain ⟨-, m, small, counts⟩ := flow.bounded
  rw [show p.counter = _ from counts, UInt64.toNat_ofNat']
  exact Nat.le_trans (Nat.mod_le ..) small

/-- A thread that has failed. -/
theorem failed (flow : p.Flow) (side : Side) : ({ p with at_ := .recording side } : Pipe).Flow :=
  flow.bounded

end Pipe.Flow

theorem ofNat_add_ofNat (m n : Nat) : UInt64.ofNat m + UInt64.ofNat n = .ofNat (m + n) :=
  (UInt64.ofNat_add ..).symm

namespace Conn

variable {c c' : Conn} {d : Direction}

/-- What a step of a pipe thread makes of its direction. -/
theorem PipeMoves.flow (moves : PipeMoves c d c') (flow : (c.pipe d).Flow) : (c'.pipe d).Flow := by
  cases moves with
  | stays => exact flow
  | ends was =>
      rw [pipe_setPipe]
      rw [Pipe.Flow, was] at flow
      exact ⟨rfl, flow.1, flow.2⟩
  | reads chunk was some_ =>
      rw [pipe_setPipe]
      rw [Pipe.Flow, was] at flow
      refine ⟨List.length_pos_iff.mpr some_, (c.pipe d).taken, rfl, ?_, ?_⟩
      · rw [List.take_zero, List.append_nil]
        exact flow.1
      · rw [← flow.1]
        exact flow.2
  | fails side was =>
      show ((c.setPipe d _).pipe d).Flow
      rw [pipe_setPipe]
      exact flow.failed side
  | delivers chunk written n was some_ =>
      show ((c.setPipe d _).pipe d).Flow
      rw [pipe_setPipe]
      rw [Pipe.Flow, was] at flow
      obtain ⟨short, before, taken, delivered, counts⟩ := flow
      have more : (c.pipe d).delivered ++ (chunk.drop written).take n = before ++ chunk.take (written + n) := by
        rw [delivered, List.append_assoc, List.take_add]
      unfold Pipe.Flow
      split_ifs with all
      · rw [List.take_of_length_le all] at more
        refine ⟨more.trans taken.symm, before.length, ?_, counts⟩
        show ((c.pipe d).delivered ++ _).length = _
        rw [more, List.length_append]
      · exact ⟨Nat.not_le.mp all, before, taken, more, counts⟩
  | counts n was =>
      rw [pipe_setPipe]
      rw [Pipe.Flow, was] at flow
      obtain ⟨all, m, long_, counts⟩ := flow
      refine ⟨all, ?_⟩
      show (c.pipe d).counter + _ = _
      rw [show (c.pipe d).counter = _ from counts, ofNat_add_ofNat, long_]
  | shuts was =>
      rw [pipe_setPipe]
      rw [Pipe.Flow, was] at flow
      exact ⟨flow.1, flow.2.1, rfl, flow.2.2⟩
  | records side was =>
      show ((c.setPipe d _).pipe d).Flow
      rw [pipe_setPipe]
      exact flow.bounded
  | shutsRead was =>
      show ((c.setPipe d _).pipe d).Flow
      rw [pipe_setPipe]
      exact flow.bounded
  | shutsWrite was =>
      rw [pipe_setPipe]
      exact flow.bounded

/-- The other direction is left alone. -/
theorem PipeMoves.other (moves : PipeMoves c d c') {e : Direction} (other : e ≠ d) : c'.pipe e = c.pipe e := by
  cases moves with
  | stays => rfl
  | _ => exact pipe_setPipe_other _ _ other

/-- What a step of the handler leaves of the pipes: all of them, or one more to start. -/
theorem MainMoves.pipes {cfg : RelayConfig} {input : Input} {out : Conn × List Record} (moves : MainMoves cfg c input out)
    (d : Direction) : out.1.pipe d = c.pipe d ∨ out.1.pipe d = { Pipe.unborn with at_ := .reading } := by
  cases moves with
  | spawns was =>
      cases d with
      | clientToServer => exact .inr rfl
      | serverToClient => exact .inl rfl
  | spawnsSecond was =>
      cases d with
      | clientToServer => exact .inl rfl
      | serverToClient => exact .inr rfl
  | _ => exact .inl rfl

theorem MainMoves.flow {cfg : RelayConfig} {input : Input} {out : Conn × List Record} (moves : MainMoves cfg c input out)
    (flow : ∀ d, (c.pipe d).Flow) (d : Direction) : (out.1.pipe d).Flow := by
  rcases moves.pipes d with same | new
  · rw [same]
    exact flow d
  · rw [new]
    exact ⟨rfl, rfl⟩

end Conn

/-! ## The first error -/

/-- The thread has recorded an error, or found one recorded. -/
def Pipe.Dirty (p : Pipe) : Prop := p.at_ = .closing false ∨ p.at_ = .closing true ∨ p.at_ = .ended false

/-- The slot holds a side that failed before the relay had shut a socket down; no socket is
shut down before the slot is taken. -/
structure Blames (c : Conn) : Prop where
  slot : ∀ side, c.firstErr = some side → c.failed side = true
  recording : ∀ d side, (c.pipe d).at_ = .recording side → c.failed side = true ∨ c.firstErr.isSome
  hard : c.hardClosed = true → c.firstErr.isSome
  dirty : ∀ d, (c.pipe d).Dirty → c.firstErr.isSome

namespace Blames

variable {c c' : Conn} {d : Direction}

theorem start : Blames .start where
  slot := nofun
  recording d side was := by cases d <;> nomatch was
  hard := nofun
  dirty d was := by cases d <;> rcases was with was | was | was <;> nomatch was

/-- A direction that goes on without an error. -/
theorem setPipe (blames : Blames c) {p : Pipe} (recording : ∀ side, p.at_ ≠ .recording side)
    (dirty : p.Dirty → (c.pipe d).Dirty) : Blames (c.setPipe d p) where
  slot := blames.slot
  recording e side was := by
    by_cases same : e = d
    · rw [same, Conn.pipe_setPipe] at was
      exact absurd was (recording side)
    · rw [Conn.pipe_setPipe_other _ _ same] at was
      exact blames.recording e side was
  hard := blames.hard
  dirty e was := by
    by_cases same : e = d
    · rw [same, Conn.pipe_setPipe] at was
      exact blames.dirty d (dirty was)
    · rw [Conn.pipe_setPipe_other _ _ same] at was
      exact blames.dirty e was

/-- An operation fails: before the relay has shut anything down that is noted, and after it
the slot is taken. -/
theorem fails (blames : Blames c) (d : Direction) (side : Side) : Blames (c.fails d side) where
  slot s taken := by
    show (c.failed s || _) = true
    rw [blames.slot s taken, Bool.true_or]
  recording e s was := by
    by_cases same : e = d
    · have same_side : s = side := by
        rw [same] at was
        exact (PipeAt.recording.inj ((congrArg Pipe.at_ (Conn.pipe_setPipe ..)).symm.trans was)).symm
      subst same_side
      cases hard : c.hardClosed with
      | true => exact .inr (blames.hard hard)
      | false =>
          left
          show (c.failed s || (s = s && !c.hardClosed)) = true
          simp [hard]
    · have was : (c.pipe e).at_ = .recording s :=
        (congrArg Pipe.at_ (Conn.pipe_setPipe_other _ _ same)).symm.trans was
      refine (blames.recording e s was).imp_left ?_
      intro failed
      show (c.failed s || _) = true
      rw [failed, Bool.true_or]
  hard := blames.hard
  dirty e was := by
    by_cases same : e = d
    · rw [same] at was
      have at_ : ((c.fails d side).pipe d).at_ = .recording side :=
        congrArg Pipe.at_ (Conn.pipe_setPipe ..)
      unfold Pipe.Dirty at was
      rw [at_] at was
      rcases was with was | was | was <;> nomatch was
    · refine blames.dirty e ?_
      rwa [show (c.fails d side).pipe e = c.pipe e from Conn.pipe_setPipe_other _ _ same] at was

/-- With the slot taken nothing more is to show of what comes later. -/
theorem of_slot (slot : ∀ side, c.firstErr = some side → c.failed side = true)
    (taken : c.firstErr.isSome) : Blames c where
  slot := slot
  recording _ _ _ := .inr taken
  hard _ := taken
  dirty _ _ := taken

theorem pipeMoves (blames : Blames c) (moves : Conn.PipeMoves c d c') : Blames c' := by
  cases moves with
  | stays => exact blames
  | ends was => exact blames.setPipe nofun fun dirty => by rcases dirty with h | h | h <;> nomatch h
  | reads chunk was some_ =>
      exact blames.setPipe nofun fun dirty => by rcases dirty with h | h | h <;> nomatch h
  | fails side was => exact blames.fails d side
  | delivers chunk written n was some_ =>
      have kept : Blames (c.setPipe d { c.pipe d with
          at_ := (if chunk.length ≤ written + n then .counting chunk.length else .writing chunk (written + n)),
          delivered := (c.pipe d).delivered ++ (chunk.drop written).take n }) := by
        refine blames.setPipe ?_ ?_
        · intro side
          dsimp only
          split <;> nofun
        · unfold Pipe.Dirty
          dsimp only
          split <;> rintro (h | h | h) <;> nomatch h
      exact ⟨kept.slot, kept.recording, kept.hard, kept.dirty⟩
  | counts n was => exact blames.setPipe nofun fun dirty => by rcases dirty with h | h | h <;> nomatch h
  | shuts was => exact blames.setPipe nofun fun dirty => by rcases dirty with h | h | h <;> nomatch h
  | records side was =>
      refine of_slot ?_ ?_
      · intro s taken
        show c.failed s = true
        cases slot : c.firstErr with
        | some first =>
            have same : some first = some s := by
              rw [← taken]
              show _ = (c.firstErr <|> some side)
              rw [slot]
              rfl
            exact blames.slot s (slot.trans same)
        | none =>
            have same : some side = some s := by
              rw [← taken]
              show _ = (c.firstErr <|> some side)
              rw [slot]
              rfl
            obtain rfl := Option.some.inj same
            refine (blames.recording d side was).resolve_right ?_
            rw [slot]
            nofun
      · show (c.firstErr <|> some side).isSome
        cases c.firstErr <;> rfl
  | shutsRead was => exact of_slot blames.slot (blames.dirty d (.inl was))
  | shutsWrite was => exact blames.setPipe nofun fun _ => .inr (.inl was)

theorem mainMoves (blames : Blames c) {cfg : RelayConfig} {input : Input} {out : Conn × List Record}
    (moves : Conn.MainMoves cfg c input out) : Blames out.1 := by
  cases moves with
  | spawns was =>
      have kept := @Blames.setPipe c .clientToServer blames { Pipe.unborn with at_ := .reading } nofun
        fun dirty => by rcases dirty with h | h | h <;> nomatch h
      exact ⟨kept.slot, kept.recording, kept.hard, kept.dirty⟩
  | spawnsSecond was =>
      have kept := @Blames.setPipe c .serverToClient blames { Pipe.unborn with at_ := .reading } nofun
        fun dirty => by rcases dirty with h | h | h <;> nomatch h
      exact ⟨kept.slot, kept.recording, kept.hard, kept.dirty⟩
  | _ => exact ⟨blames.slot, blames.recording, blames.hard, blames.dirty⟩

end Blames

/-! ## What the client is told -/

/-- The warning line, where there is one. -/
def greeting (cfg : RelayConfig) : Bytes := if cfg.warnMode then cfg.warnLine else []

/-- No pipe thread was started: the connection is not relayed. -/
def Conn.Unborn (c : Conn) : Prop := ∀ d, (c.pipe d).at_ = .unborn

/-- The upstream could not be connected. -/
def Unreachable (log : List Record) : Prop := ∃ connId, Record.upstreamConnect connId false ∈ log

/-- What the client took: the greeting and then what was relayed to it; where nothing is
relayed, part of the greeting, and of the failure line behind it if the upstream could not
be connected. -/
structure Told (cfg : RelayConfig) (c : Conn) (log : List Record) : Prop where
  relayed : ¬c.Unborn → c.toClient = greeting cfg ++ (c.pipe .serverToClient).delivered
  idle : c.Unborn → c.toClient <+: greeting cfg ∨
    (Unreachable log ∧ cfg.failureLine = true ∧ c.toClient <+: greeting cfg ++ failureLine)
  unreachable : Unreachable log → c.Unborn

/-- The state up to the pipes: what the client took so far. -/
structure Front (c : Conn) (log : List Record) (told : Bytes) : Prop where
  unborn : c.Unborn
  told : c.toClient = told
  reachable : ¬Unreachable log

theorem Front.at_ {c : Conn} {log new : List Record} {told : Bytes} (front : Front c log told)
    (stage : Stage) (reachable : ¬Unreachable new) : Front (c.at_ stage) (log ++ new) told where
  unborn := front.unborn
  told := front.told
  reachable := by
    rintro ⟨connId, mem⟩
    rcases List.mem_append.mp mem with old | new
    · exact front.reachable ⟨connId, old⟩
    · exact reachable ⟨connId, new⟩

theorem Front.toTold {cfg : RelayConfig} {c : Conn} {log : List Record} {told : Bytes}
    (front : Front c log told) (prefix_ : told <+: greeting cfg) : Told cfg c log where
  relayed born := absurd front.unborn born
  idle _ := .inl (front.told ▸ prefix_)
  unreachable away := absurd away front.reachable

/-! ## The close record -/

/-- No pipe thread is running. -/
def Conn.Still (c : Conn) : Prop := ∀ d, (c.pipe d).live = false

/-- A close record that is true of a connection. -/
structure Closes (c : Conn) (reason : Reason) (bytesC2s bytesS2c : UInt64) : Prop where
  normal : reason = .normal → (c.pipe .clientToServer).Clean ∧ (c.pipe .serverToClient).Clean ∧
    bytesC2s = .ofNat (c.pipe .clientToServer).delivered.length ∧
    bytesS2c = .ofNat (c.pipe .serverToClient).delivered.length
  bounded : bytesC2s.toNat ≤ (c.pipe .clientToServer).delivered.length ∧
    bytesS2c.toNat ≤ (c.pipe .serverToClient).delivered.length
  client : ¬c.Unborn → reason = .clientReset → c.failed .client = true
  upstream : ¬c.Unborn → reason = .upstreamReset → c.failed .upstream = true

/-- A close before there were pipes. -/
theorem Closes.early {c : Conn} {reason : Reason} (unborn : c.Unborn) (other : reason ≠ .normal) :
    Closes c reason 0 0 where
  normal same := absurd same other
  bounded := ⟨Nat.zero_le _, Nat.zero_le _⟩
  client born := absurd unborn born
  upstream born := absurd unborn born

/-- The close of a relayed connection. -/
theorem Closes.relayed {c : Conn} (flow : ∀ d, (c.pipe d).Flow) (blames : Blames c)
    (both : ∀ d, (c.pipe d).isOver = true) :
    Closes c c.closeReason c.pipes.c2s.counter c.pipes.s2c.counter where
  normal reason := by
    have none_ : c.firstErr = none := by
      unfold Conn.closeReason at reason
      split at reason
      · nomatch reason
      · nomatch reason
      · assumption
    have clean : ∀ d, (c.pipe d).Clean := by
      intro d
      have atEnd := both d
      have flows := flow d
      unfold Pipe.isOver at atEnd
      split at atEnd
      · rename_i clean was
        cases clean with
        | true =>
            rw [Pipe.Flow, was] at flows
            exact flows
        | false =>
            have taken := blames.dirty d (.inr (.inr was))
            rw [none_] at taken
            nomatch taken
      · nomatch atEnd
    exact ⟨clean _, clean _, (clean .clientToServer).counts, (clean .serverToClient).counts⟩
  bounded := ⟨(flow .clientToServer).counter_le, (flow .serverToClient).counter_le⟩
  client _ reason := by
    refine blames.slot .client ?_
    unfold Conn.closeReason at reason
    split at reason
    · assumption
    · nomatch reason
    · nomatch reason
  upstream _ reason := by
    refine blames.slot .upstream ?_
    unfold Conn.closeReason at reason
    split at reason
    · nomatch reason
    · assumption
    · nomatch reason

/-! ## Stage by stage -/

/-- What is the case where the handler stands. -/
def Place (cfg : RelayConfig) (c : Conn) (log : List Record) : Prop :=
  match c.stage with
  | .queued => Front c log []
  | .numbered => Front c log []
  | .accepted => Front c log []
  | .guarded => Front c log []
  | .warning written => cfg.warnMode = true ∧ Front c log (cfg.warnLine.take written)
  | .warned => Front c log (greeting cfg)
  | .connecting => Front c log (greeting cfg)
  | .cloning => Front c log (greeting cfg)
  | .spawning => Front c log (greeting cfg)
  | .failing written => cfg.failureLine = true ∧ Unreachable log ∧ c.Unborn ∧
      c.toClient = greeting cfg ++ failureLine.take written
  | .spawningSecond => Told cfg c log ∧ ¬c.Unborn ∧ (c.pipe .serverToClient) = .unborn
  | .joining => Told cfg c log ∧ ¬c.Unborn
  | .joined => Told cfg c log ∧ ∀ d, (c.pipe d).isOver = true
  | .reported => Told cfg c log ∧ ∀ d, (c.pipe d).isOver = true
  | .closing reason c2s s2c => Told cfg c log ∧ c.Still ∧ Closes c reason c2s s2c
  | .closed => Told cfg c log ∧ c.Still
  | .unwinding _ => Told cfg c log
  | .ended _ => Told cfg c log

theorem Place.told {cfg : RelayConfig} {c : Conn} {log : List Record} (place : Place cfg c log) :
    Told cfg c log := by
  unfold Place at place
  split at place
  · exact place.toTold (List.nil_prefix ..)
  · exact place.toTold (List.nil_prefix ..)
  · exact place.toTold (List.nil_prefix ..)
  · exact place.toTold (List.nil_prefix ..)
  · refine place.2.toTold ?_
    rw [greeting, if_pos place.1]
    exact List.take_prefix ..
  · exact place.toTold List.prefix_rfl
  · exact place.toTold List.prefix_rfl
  · exact place.toTold List.prefix_rfl
  · exact place.toTold List.prefix_rfl
  · obtain ⟨on, away, unborn, told⟩ := place
    refine ⟨fun born => absurd unborn born, fun _ => .inr ⟨away, on, ?_⟩, fun _ => unborn⟩
    rw [told]
    exact (List.prefix_append_right_inj _).mpr (List.take_prefix ..)
  all_goals first | exact place | exact place.1

/-! ### Steps of the pipe threads -/

namespace Conn

variable {c c' : Conn} {d : Direction}

theorem PipeMoves.stage (moves : PipeMoves c d c') : c'.stage = c.stage := by
  cases moves <;> rfl

/-- A thread that does not run does nothing. -/
theorem PipeMoves.still (moves : PipeMoves c d c') (still : (c.pipe d).live = false) : c' = c := by
  unfold Pipe.live at still
  cases moves with
  | stays => rfl
  | fails side was =>
      rcases was with was | ⟨chunk, written, was⟩ <;> rw [was] at still <;> nomatch still
  | delivers _ _ _ was _ => rw [was] at still; nomatch still
  | reads _ was _ => rw [was] at still; nomatch still
  | counts _ was | records _ was => rw [was] at still; nomatch still
  | ends was | shuts was | shutsRead was | shutsWrite was => rw [was] at still; nomatch still

theorem PipeMoves.unborn (moves : PipeMoves c d c') (unborn : c.Unborn) : c' = c := by
  refine moves.still ?_
  rw [Pipe.live, unborn d]

/-- Where a thread was started, it stays started. -/
theorem PipeMoves.born (moves : PipeMoves c d c') (born : ¬c.Unborn) : ¬c'.Unborn := by
  intro unborn
  apply born
  intro e
  by_cases same : e = d
  · subst same
    have none_ := unborn e
    cases moves with
    | stays => exact none_
    | delivers chunk written n was some_ =>
        have at_ : ((c.setPipe e _).pipe e).at_ = .unborn := none_
        rw [pipe_setPipe] at at_
        dsimp only at at_
        split at at_ <;> nomatch at_
    | _ =>
        have at_ : ((c.setPipe e _).pipe e).at_ = .unborn := none_
        rw [pipe_setPipe] at at_
        nomatch at_
  · rw [← moves.other same]
    exact unborn e

/-- The client takes what is delivered to it. -/
theorem PipeMoves.client (moves : PipeMoves c d c') : ∃ piece, c'.toClient = c.toClient ++ piece ∧
    (c'.pipe .serverToClient).delivered = (c.pipe .serverToClient).delivered ++ piece := by
  cases moves with
  | delivers chunk written n was some_ =>
      cases d with
      | clientToServer => exact ⟨[], (List.append_nil _).symm, (List.append_nil _).symm⟩
      | serverToClient => exact ⟨_, rfl, rfl⟩
  | _ => exact ⟨[], (List.append_nil _).symm, by cases d <;> exact (List.append_nil _).symm⟩

end Conn

theorem Told.pipeMoves {cfg : RelayConfig} {c c' : Conn} {log : List Record} {d : Direction}
    (told : Told cfg c log) (moves : Conn.PipeMoves c d c') : Told cfg c' log := by
  by_cases unborn : c.Unborn
  · rw [moves.unborn unborn]
    exact told
  · have born := moves.born unborn
    refine ⟨fun _ => ?_, fun unborn => absurd unborn born, fun away => absurd (told.unreachable away) unborn⟩
    obtain ⟨piece, client, delivered⟩ := moves.client
    rw [client, delivered, told.relayed unborn, List.append_assoc]

theorem not_live_of_isOver {p : Pipe} (atEnd : p.isOver = true) : p.live = false := by
  unfold Pipe.isOver at atEnd
  unfold Pipe.live
  cases was : p.at_ <;> simp_all

theorem Place.pipeMoves {cfg : RelayConfig} {c c' : Conn} {log : List Record} {d : Direction}
    (place : Place cfg c log) (moves : Conn.PipeMoves c d c') : Place cfg c' log := by
  have stage := moves.stage
  have told := place.told.pipeMoves moves
  have front : ∀ {told : Bytes}, Front c log told → Front c' log told := by
    intro told front
    rw [moves.unborn front.unborn]
    exact front
  unfold Place at place ⊢
  rw [stage]
  cases was : c.stage with
  | queued => rw [was] at place; exact front place
  | numbered => rw [was] at place; exact front place
  | accepted => rw [was] at place; exact front place
  | guarded => rw [was] at place; exact front place
  | warning written => rw [was] at place; exact ⟨place.1, front place.2⟩
  | warned => rw [was] at place; exact front place
  | connecting => rw [was] at place; exact front place
  | cloning => rw [was] at place; exact front place
  | spawning => rw [was] at place; exact front place
  | failing written =>
      rw [was] at place
      obtain ⟨on, away, unborn, sent⟩ := place
      rw [moves.unborn unborn]
      exact ⟨on, away, unborn, sent⟩
  | spawningSecond =>
      rw [was] at place
      refine ⟨told, moves.born place.2.1, ?_⟩
      cases d with
      | clientToServer =>
          rw [moves.other (by nofun)]
          exact place.2.2
      | serverToClient =>
          rw [moves.still (by rw [place.2.2]; rfl)]
          exact place.2.2
  | joining => rw [was] at place; exact ⟨told, moves.born place.2⟩
  | joined =>
      rw [was] at place
      rw [moves.still (not_live_of_isOver (place.2 d))]
      exact place
  | reported =>
      rw [was] at place
      rw [moves.still (not_live_of_isOver (place.2 d))]
      exact place
  | closing reason c2s s2c =>
      rw [was] at place
      rw [moves.still (place.2.1 d)]
      exact place
  | closed =>
      rw [was] at place
      rw [moves.still (place.2 d)]
      exact place
  | unwinding guard => exact told
  | ended released => exact told

/-! ### Steps of the handler -/

theorem Told.at_ {cfg : RelayConfig} {c : Conn} {log new : List Record} (told : Told cfg c log)
    (stage : Stage) (reachable : ¬Unreachable new) : Told cfg (c.at_ stage) (log ++ new) where
  relayed := told.relayed
  idle unborn := (told.idle unborn).imp_right fun ⟨away, rest⟩ => by
    obtain ⟨connId, mem⟩ := away
    exact ⟨⟨connId, List.mem_append_left _ mem⟩, rest⟩
  unreachable away := by
    obtain ⟨connId, mem⟩ := away
    rcases List.mem_append.mp mem with old | new
    · exact told.unreachable ⟨connId, old⟩
    · exact absurd ⟨connId, new⟩ reachable

theorem not_unreachable_nil : ¬Unreachable [] := nofun

theorem Conn.Unborn.still {c : Conn} (unborn : c.Unborn) : c.Still := by
  intro d
  rw [Pipe.live, unborn d]

/-- A pipe thread starts. -/
theorem Conn.born_setPipe (c : Conn) (d : Direction) :
    ¬((c.setPipe d { Pipe.unborn with at_ := .reading }).Unborn) := by
  intro unborn
  have at_ := unborn d
  rw [Conn.pipe_setPipe] at at_
  nomatch at_

theorem Place.mainMoves {cfg : RelayConfig} {c : Conn} {input : Input} {log : List Record}
    {out : Conn × List Record}
    (place : Place cfg c log) (flow : ∀ d, (c.pipe d).Flow) (blames : Blames c)
    (moves : Conn.MainMoves cfg c input out) : Place cfg out.1 (log ++ out.2) := by
  have told := place.told
  unfold Place at place
  cases moves with
  | stays =>
      rw [List.append_nil]
      unfold Place
      exact place
  | unwound guard was => exact told.at_ _ not_unreachable_nil
  | panics live faults => exact told.at_ _ not_unreachable_nil
  | numbers connId was =>
      rw [was] at place
      rw [List.append_nil]
      exact ⟨place.unborn, place.told, place.reachable⟩
  | accepts was =>
      rw [was] at place
      exact place.at_ _ (by rintro ⟨_, mem⟩; nomatch List.mem_singleton.mp mem)
  | guards was =>
      rw [was] at place
      exact place.at_ _ not_unreachable_nil
  | warns was on =>
      rw [was] at place
      split_ifs with empty
      · have front : Front (c.at_ .warned) (log ++ []) [] := place.at_ _ not_unreachable_nil
        show Front (c.at_ .warned) (log ++ []) (greeting cfg)
        rwa [greeting, if_pos on, empty]
      · exact ⟨on, place.at_ _ not_unreachable_nil⟩
  | skips was off =>
      rw [was] at place
      have front : Front (c.at_ .connecting) (log ++ []) [] := place.at_ _ not_unreachable_nil
      show Front (c.at_ .connecting) (log ++ []) (greeting cfg)
      rwa [greeting, off]
  | refuses reason was other =>
      have unborn : c.Unborn := by
        rcases was with was | was | ⟨written, was⟩ <;> rw [was] at place
        · exact place.unborn
        · exact place.unborn
        · exact place.2.unborn
      exact ⟨told.at_ _ not_unreachable_nil, unborn.still, .early unborn other⟩
  | writesWarning written n was some_ =>
      rw [was] at place
      obtain ⟨on, front⟩ := place
      have more : c.toClient ++ (cfg.warnLine.drop written).take n = cfg.warnLine.take (written + n) := by
        rw [front.told, List.take_add]
      rw [List.append_nil]
      split_ifs with all
      · refine ⟨front.unborn, ?_, front.reachable⟩
        show c.toClient ++ _ = _
        rw [more, List.take_of_length_le all, greeting, if_pos on]
      · exact ⟨on, front.unborn, more, front.reachable⟩
  | sent was =>
      rw [was] at place
      exact place.at_ _ (by rintro ⟨_, mem⟩; nomatch List.mem_singleton.mp mem)
  | connects was =>
      rw [was] at place
      refine place.at_ _ ?_
      rintro ⟨_, mem⟩
      nomatch Record.upstreamConnect.inj (List.mem_singleton.mp mem)
  | unreachable was =>
      rw [was] at place
      have away : Unreachable (log ++ [.upstreamConnect c.connId false]) :=
        ⟨c.connId, List.mem_append_right _ (List.mem_singleton_self _)⟩
      have unborn : c.Unborn := place.unborn
      split_ifs with on
      · refine ⟨on, away, unborn, ?_⟩
        rw [List.take_zero, List.append_nil]
        exact place.told
      · refine ⟨⟨fun born => absurd unborn born, fun _ => .inl ?_, fun _ => unborn⟩, unborn.still,
          .early unborn nofun⟩
        exact place.told ▸ List.prefix_rfl
  | writesFailure written n was some_ =>
      rw [was] at place
      obtain ⟨on, away, unborn, sent⟩ := place
      have more : c.toClient ++ (failureLine.drop written).take n =
          greeting cfg ++ failureLine.take (written + n) := by
        rw [sent, List.append_assoc, List.take_add]
      rw [List.append_nil]
      split_ifs with all
      · refine ⟨⟨fun born => absurd unborn born, fun _ => .inr ⟨away, on, ?_⟩, fun _ => unborn⟩,
          unborn.still, .early unborn nofun⟩
        show c.toClient ++ _ <+: _
        rw [more]
        exact (List.prefix_append_right_inj _).mpr (List.take_prefix ..)
      · exact ⟨on, away, unborn, more⟩
  | gives written was =>
      rw [was] at place
      obtain ⟨-, -, unborn, -⟩ := place
      exact ⟨told.at_ _ not_unreachable_nil, unborn.still, .early unborn nofun⟩
  | clones was =>
      rw [was] at place
      exact place.at_ _ not_unreachable_nil
  | spawns was =>
      rw [was] at place
      have born := c.born_setPipe .clientToServer
      have none_ : c.pipe .serverToClient = .unborn := by
        have flows := flow .serverToClient
        rwa [Pipe.Flow, place.unborn .serverToClient] at flows
      rw [List.append_nil]
      refine ⟨⟨fun _ => ?_, fun unborn => absurd unborn born, fun away => absurd away place.reachable⟩,
        born, none_⟩
      show c.toClient = _ ++ (c.pipe .serverToClient).delivered
      rw [none_, place.told]
      exact (List.append_nil _).symm
  | spawnsSecond was =>
      rw [was] at place
      obtain ⟨told, born, none_⟩ := place
      have born' := c.born_setPipe .serverToClient
      rw [List.append_nil]
      refine ⟨⟨fun _ => ?_, fun unborn => absurd unborn born', fun away =>
        absurd (told.unreachable away) born⟩, born'⟩
      show c.toClient = _ ++ []
      rw [told.relayed born, none_]
      rfl
  | joins was both =>
      refine ⟨told.at_ _ not_unreachable_nil, ?_⟩
      intro d
      cases d with
      | clientToServer => exact both.1
      | serverToClient => exact both.2
  | reports was =>
      rw [was] at place
      exact ⟨told.at_ _ (by rintro ⟨_, mem⟩; nomatch List.mem_singleton.mp mem), place.2⟩
  | closes was =>
      rw [was] at place
      have closes := Closes.relayed flow blames place.2
      exact ⟨told.at_ _ not_unreachable_nil, fun d => not_live_of_isOver (place.2 d),
        ⟨closes.normal, closes.bounded, closes.client, closes.upstream⟩⟩
  | logs reason c2s s2c was =>
      rw [was] at place
      exact ⟨told.at_ _ (by rintro ⟨_, mem⟩; nomatch List.mem_singleton.mp mem), place.2.1⟩
  | drops was => exact told.at_ _ not_unreachable_nil

/-! ## The whole connection -/

/-- A close record stands for a connection that does not change any more. -/
def Settled (c : Conn) (log : List Record) : Prop :=
  ∀ connId reason c2s s2c, Record.connClose connId reason c2s s2c ∈ log →
    c.Still ∧ Closes c reason c2s s2c ∧ c.stage.after = true

/-- The handler goes on and closes nothing. -/
theorem Settled.at_ {c : Conn} {log new : List Record} (settled : Settled c log) (stage : Stage)
    (after : c.stage.after = true → stage.after = true)
    (fresh : ∀ connId reason c2s s2c, Record.connClose connId reason c2s s2c ∉ new) :
    Settled (c.at_ stage) (log ++ new) := by
  intro connId reason c2s s2c mem
  rcases List.mem_append.mp mem with old | mem
  · obtain ⟨still, closes, done⟩ := settled connId reason c2s s2c old
    exact ⟨still, ⟨closes.normal, closes.bounded, closes.client, closes.upstream⟩, after done⟩
  · exact (fresh _ _ _ _ mem).elim

/-- Before the close there is no close record. -/
theorem Settled.none {c : Conn} {log : List Record} (settled : Settled c log)
    (before : c.stage.after = false) {connId : UInt64} {reason : Reason} {c2s s2c : UInt64} :
    Record.connClose connId reason c2s s2c ∉ log := by
  intro mem
  have after := (settled connId reason c2s s2c mem).2.2
  rw [before] at after
  nomatch after

theorem Settled.mainMoves {cfg : RelayConfig} {c : Conn} {input : Input} {log : List Record}
    {out : Conn × List Record}
    (settled : Settled c log) (place : Place cfg c log) (moves : Conn.MainMoves cfg c input out) :
    Settled out.1 (log ++ out.2) := by
  have early : c.stage.after = false →
      (∀ connId reason c2s s2c, Record.connClose connId reason c2s s2c ∉ out.2) →
      Settled out.1 (log ++ out.2) := by
    intro before fresh connId reason c2s s2c mem
    rcases List.mem_append.mp mem with old | new
    · exact absurd old (settled.none before)
    · exact (fresh _ _ _ _ new).elim
  cases moves with
  | stays => rwa [List.append_nil]
  | unwound guard was => exact settled.at_ _ (fun _ => rfl) nofun
  | panics live faults => exact settled.at_ _ (fun _ => rfl) nofun
  | drops was => exact settled.at_ _ (fun _ => rfl) nofun
  | logs reason c2s s2c was =>
      unfold Place at place
      rw [was] at place
      obtain ⟨-, still, closes⟩ := place
      intro connId reason' c2s' s2c' mem
      rcases List.mem_append.mp mem with old | new
      · exact absurd old (settled.none (by rw [was]; rfl))
      · obtain ⟨rfl, rfl, rfl, rfl⟩ := Record.connClose.inj (List.mem_singleton.mp new)
        exact ⟨still, ⟨closes.normal, closes.bounded, closes.client, closes.upstream⟩, rfl⟩
  | refuses reason was other =>
      refine early ?_ nofun
      rcases was with was | was | ⟨_, was⟩ <;> rw [was] <;> rfl
  | writesWarning _ _ was _ | writesFailure _ _ was _ =>
      refine early ?_ nofun
      rw [was]
      rfl
  | numbers _ was | gives _ was | warns was _ | skips was _ | joins was _ =>
      refine early ?_ nofun
      rw [was]
      rfl
  | guards was | clones was | spawns was | spawnsSecond was | closes was =>
      refine early ?_ nofun
      rw [was]
      rfl
  | accepts was | sent was | connects was | unreachable was | reports was =>
      refine early (by rw [was]; rfl) ?_
      intro _ _ _ _ mem
      nomatch List.mem_singleton.mp mem

/-- What holds of a connection and its records all along. -/
structure Sound (cfg : RelayConfig) (s : Conn × List Record) : Prop where
  flow : ∀ d, (s.1.pipe d).Flow
  blames : Blames s.1
  place : Place cfg s.1 s.2
  settled : Settled s.1 s.2

theorem Sound.start (cfg : RelayConfig) : Sound cfg (.start, []) where
  flow d := by cases d <;> exact rfl
  blames := .start
  place := ⟨fun d => by cases d <;> rfl, rfl, nofun⟩
  settled := nofun

theorem Sound.step {cfg : RelayConfig} (act : ConnAct) (s : Conn × List Record) (sound : Sound cfg s) :
    Sound cfg (Conn.lifeStep cfg act s) := by
  cases act with
  | main input =>
      have moves := Conn.mainStep_moves cfg input s.1
      have blames := sound.blames.mainMoves moves
      have place := sound.place.mainMoves sound.flow sound.blames moves
      have settled := sound.settled.mainMoves sound.place moves
      exact ⟨moves.flow sound.flow, blames, place, settled⟩
  | pipe d input =>
      have moves := Conn.pipeStep_moves s.1 d input
      refine ⟨?_, sound.blames.pipeMoves moves, ?_, ?_⟩
      · intro e
        by_cases same : e = d
        · subst same
          exact moves.flow (sound.flow e)
        · rw [show (Conn.lifeStep cfg (.pipe d input) s).1.pipe e = s.1.pipe e from moves.other same]
          exact sound.flow e
      · show Place cfg (s.1.pipeStep d input) (s.2 ++ [])
        rw [List.append_nil]
        exact sound.place.pipeMoves moves
      · show Settled (s.1.pipeStep d input) (s.2 ++ [])
        rw [List.append_nil]
        intro connId reason c2s s2c mem
        obtain ⟨still, closes, after⟩ := sound.settled connId reason c2s s2c mem
        rw [moves.still (still d)]
        exact ⟨still, closes, after⟩

/-- A warning of which the client takes one byte, and then none within the time. -/
def cutWarning : List ConnAct :=
  [.main (.number 1), .main .go, .main .go, .main (.outcome true), .main (.wrote (.ok 1)),
    .main (.wrote (.error .other)), .main .go]

end Jbuu.Doorkeeper
