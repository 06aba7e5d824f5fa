/-
# Terminal.Input — what of the input reaches the terminal

The data of an `Input` frame is written slice by slice, each through the gate, with a drain
between two slices. A write that fails, a lease that is lost, a drain that fails: each sets
`end`, so nothing of what is left is written, now or later. What a connection wrote is
therefore always a prefix of the input it received, and the rest is what it is still about to
write as long as nothing failed (`Feeds`).

A terminal's writes are in the order of their tokens, and every token is one connection's
(`Owned`): put together they are, connection by connection, one prefix each
(`writes_are_prefixes`).
-/
import Jbuu.Library.Grouped
import Jbuu.Terminal.Holders

namespace Jbuu.Terminal

set_option autoImplicit false

open Jbuu.Library.BigEndian (Bytes)
open Jbuu.Library
open LeaseWorld (Fenced)

/-- The data of the Input frames. -/
def inputs (frames : List TerminalFrame) : Bytes :=
  frames.flatMap fun f => match f with
    | .input data => data
    | _ => []

@[simp] theorem inputs_append (frames more : List TerminalFrame) :
    inputs (frames ++ more) = inputs frames ++ inputs more := List.flatMap_append ..

/-- The slices are the data. -/
theorem flatten_slices (data : Bytes) : (Drive.slices data).flatten = data := by
  have each : ∀ l : List Bytes,
      (l.flatMap (chunks ptyWriteSlice (by decide))).flatten = l.flatten := by
    intro l
    induction l with
    | nil => rfl
    | cons chunk rest ih =>
        rw [List.flatMap_cons, List.flatten_append, flatten_chunks, ih, List.flatten_cons]
  exact (each _).trans (flatten_chunks _ _)

/-! ## What a write leaves -/

theorem Pty.writtenBy_writes (token other : FencingToken) (bytes : Bytes) (p : Pty) :
    Pty.writtenBy other { p with writes := p.writes ++ [(token, bytes)] } =
      p.writtenBy other ++ if token = other then bytes else [] := by
  unfold Pty.writtenBy
  rw [List.filter_append, List.flatMap_append]
  congr 1
  by_cases same : token = other
  · simp [same]
  · simp [same]

theorem Pty.writtenBy_congr {p p' : Pty} (writes : p'.writes = p.writes) (token : FencingToken) :
    p'.writtenBy token = p.writtenBy token := by
  rw [Pty.writtenBy, writes]
  rfl

/-- A write adds a prefix of its data to what its token wrote, all of it where it succeeds,
and nothing to what another wrote. -/
theorem PtyHub.writtenBy_writeInput (now : Nat) (token : FencingToken) (data : Bytes) (rounds : List WriteRound)
    (h : PtyHub) :
    (∃ bytes, bytes <+: data ∧ ((h.writeInput now token data rounds).1 = .ok () → bytes = data) ∧
      (h.writeInput now token data rounds).2.pty.writtenBy token = h.pty.writtenBy token ++ bytes) ∧
      ∀ other, token ≠ other →
        (h.writeInput now token data rounds).2.pty.writtenBy other = h.pty.writtenBy other := by
  rcases h.writeInput_cases now token data rounds with ⟨-, same⟩ | ⟨-, same⟩ | ⟨-, same⟩
  · rw [same]
    exact ⟨⟨[], List.nil_prefix, nofun, (List.append_nil _).symm⟩, fun _ _ => rfl⟩
  · rw [same]
    exact ⟨⟨[], List.nil_prefix, nofun, (List.append_nil _).symm⟩, fun _ _ => rfl⟩
  · rw [same]
    obtain ⟨some_, all⟩ := writeAllBounded_prefix rounds data
    refine ⟨⟨(writeAllBounded rounds data).2, some_, ?_, ?_⟩, ?_⟩
    · intro ok
      refine all ?_
      by_contra failed
      rw [if_neg failed] at ok
      nomatch ok
    · rw [Pty.writtenBy_writes, if_pos rfl]
    · intro other ne
      rw [Pty.writtenBy_writes, if_neg ne, List.append_nil]

/-! ## One connection -/

namespace DriveStage

/-- What of the input received is still to be written. -/
def unwritten : DriveStage → Bytes
  | .beating (.input data) => data
  | .writing slice rest => slice ++ rest.flatten
  | .draining (some rest) => rest.flatten
  | .sending _ _ (some rest) => rest.flatten
  | _ => []

/-- The loop is going on. -/
def midway : DriveStage → Bool
  | .granting => true
  | .aligning => true
  | .receiving => true
  | .beating _ => true
  | .writing _ _ => true
  | .resizing => true
  | .draining (some _) => true
  | .sending _ _ (some _) => true
  | _ => false

end DriveStage

namespace Drive

variable {c : Drive}

/-- Where the tail of a turn goes: nothing is to be written, and it goes on with the loop only
while `end` is not set. -/
structure Tail (c : Drive) (stage : DriveStage) : Prop where
  unwritten : stage.unwritten = []
  midway : stage.midway = true → c.ends = none

theorem tail_again : Tail c c.again := by
  unfold again
  split
  · rename_i running
    exact ⟨rfl, fun _ => running⟩
  · exact ⟨rfl, nofun⟩

theorem tail_check : Tail c c.check := by
  unfold check
  split
  · exact ⟨rfl, nofun⟩
  · exact tail_again

theorem tail_grace : Tail c c.grace := by
  unfold grace
  split
  · exact ⟨rfl, nofun⟩
  · exact tail_check

theorem tail_turn : Tail c c.turn := by
  unfold turn
  split
  · exact ⟨rfl, nofun⟩
  · exact tail_grace

theorem tail_drainTurn : Tail c c.drainTurn := by
  unfold drainTurn
  split
  · exact tail_turn
  · exact ⟨rfl, nofun⟩

theorem tail_drainFailed (next : Option (List Bytes)) : Tail c (c.drainFailed next) := by
  cases next with
  | none => exact ⟨rfl, nofun⟩
  | some rest => exact tail_drainTurn

/-- Where the slices go on: what is left of them is to be written, and with none left it is the
tail of the turn. -/
structure Onward (c : Drive) (next : Option (List Bytes)) (stage : DriveStage) : Prop where
  unwritten : stage.unwritten = next.elim [] List.flatten
  midway : stage.midway = true → c.ends = none ∨ next.isSome = true

theorem Tail.onward {stage : DriveStage} (tail : Tail c stage) : Onward c none stage :=
  ⟨tail.unwritten, fun midway => .inl (tail.midway midway)⟩

theorem onward_goOn (rest : List Bytes) : Onward c (some rest) (c.goOn rest) := by
  cases rest with
  | nil => exact ⟨tail_drainTurn.unwritten, fun _ => .inr rfl⟩
  | cons slice rest => exact ⟨rfl, fun _ => .inr rfl⟩

theorem onward_drainBetween (rest : List Bytes) : Onward c (some rest) (c.drainBetween rest) := by
  unfold drainBetween
  split
  · exact onward_goOn rest
  · exact ⟨rfl, fun _ => .inr rfl⟩

theorem onward_drained (next : Option (List Bytes)) : Onward c next (c.drained next) := by
  cases next with
  | none => exact tail_turn.onward
  | some rest => exact onward_goOn rest

theorem onward_flush (next : Option (List Bytes)) : Onward c next (c.flush next) := by
  unfold flush
  split
  · exact onward_drained next
  · cases next with
    | none => exact ⟨rfl, nofun⟩
    | some rest => exact ⟨rfl, fun _ => .inr rfl⟩

end Drive

/-- What a connection wrote to a terminal, of the input it received. -/
structure Feeds (c : Drive) (h : PtyHub) : Prop where
  some_ : h.pty.writtenBy c.token <+: inputs c.frames
  all : c.ends = none ∨ c.stage.midway = true →
    h.pty.writtenBy c.token ++ c.stage.unwritten = inputs c.frames

namespace Feeds

variable {c c' : Drive} {h h' : PtyHub}

/-- A step that receives nothing and writes nothing. -/
theorem keeps (feeds : Feeds c h) (token : c'.token = c.token) (frames : c'.frames = c.frames)
    (writes : h'.pty.writes = h.pty.writes)
    (still : c'.ends = none ∨ c'.stage.midway = true →
      (c.ends = none ∨ c.stage.midway = true) ∧ c'.stage.unwritten = c.stage.unwritten) : Feeds c' h' := by
  have written : h'.pty.writtenBy c'.token = h.pty.writtenBy c.token := by
    rw [token, Pty.writtenBy_congr writes]
  refine ⟨?_, ?_⟩
  · rw [written, frames]
    exact feeds.some_
  · intro running
    obtain ⟨before, same⟩ := still running
    rw [written, frames, same]
    exact feeds.all before

/-- On with the turn from a stage that has nothing to write. -/
theorem tail {stage : DriveStage} (feeds : Feeds c h) (nothing : c.stage.unwritten = []) (token : c'.token = c.token)
    (frames : c'.frames = c.frames) (writes : h'.pty.writes = h.pty.writes)
    (ends : c'.ends = none → c.ends = none) (tail : Drive.Tail c' stage) : Feeds (c'.at_ stage) h' := by
  refine feeds.keeps token frames writes fun running => ?_
  have before : c.ends = none := running.elim ends fun midway => ends (tail.midway midway)
  exact ⟨.inl before, tail.unwritten.trans nothing.symm⟩

/-- Out of the slices, with `end` set. -/
theorem stops {stage : DriveStage} {ends : ServeEnd} (feeds : Feeds c h) (writes : h'.pty.writes = h.pty.writes)
    (tail : Drive.Tail (c.ending ends) stage) : Feeds ((c.ending ends).at_ stage) h' := by
  refine feeds.keeps rfl rfl writes fun running => ?_
  rcases running with none_ | midway
  · nomatch none_
  · nomatch tail.midway midway

/-- On from a drain. -/
theorem onward {stage : DriveStage} {next : Option (List Bytes)} (feeds : Feeds c h)
    (was : c.stage.unwritten = next.elim [] List.flatten) (between : c.stage.midway = next.isSome)
    (token : c'.token = c.token) (frames : c'.frames = c.frames) (writes : h'.pty.writes = h.pty.writes)
    (ends : c'.ends = c.ends) (onward : Drive.Onward c' next stage) : Feeds (c'.at_ stage) h' := by
  refine feeds.keeps token frames writes fun running => ⟨?_, onward.unwritten.trans was.symm⟩
  rw [between]
  rcases running with none_ | midway
  · exact .inl (ends.symm.trans none_)
  · exact (onward.midway midway).imp_left ends.symm.trans

theorem moves {opts : ServeOptions} {now : Nat} {act : DriveAct} {out : Drive × PtyHub}
    (feeds : Feeds c h) (late : c.stage.early = false) (moves : Drive.Moves opts now act c h out) :
    Feeds out.1 out.2 := by
  have quiet {stage : DriveStage} (tail : Drive.Tail c stage) (nothing : c.stage.unwritten = []) :
      Feeds (c.at_ stage) h := feeds.tail nothing rfl rfl rfl id tail
  cases moves with
  | stays => exact feeds
  | panics was => rw [was] at late; nomatch late
  | busy denied was => rw [was] at late; nomatch late
  | granted grant was => rw [was] at late; nomatch late
  | announces was => exact feeds.keeps rfl rfl rfl fun _ => ⟨.inr (by rw [was]; rfl), by rw [was]; rfl⟩
  | fails e was =>
      refine feeds.keeps rfl rfl rfl fun running => ⟨.inl (running.resolve_right nofun), ?_⟩
      rcases was with was | ⟨status, was⟩ <;> rw [was] <;> rfl
  | aligns was => exact feeds.keeps rfl rfl rfl fun _ => ⟨.inr (by rw [was]; rfl), by rw [was]; rfl⟩
  | receives f was =>
      have all := feeds.all (.inr (by rw [was]; rfl))
      have nothing : c.stage.unwritten = [] := by rw [was]; rfl
      rw [nothing, List.append_nil] at all
      have one : inputs [f] = (DriveStage.beating f).unwritten := by
        cases f with
        | input data => exact List.append_nil data
        | _ => rfl
      refine ⟨?_, fun _ => ?_⟩
      · show h.pty.writtenBy c.token <+: inputs (c.frames ++ [f])
        rw [inputs_append]
        exact feeds.some_.trans (List.prefix_append ..)
      · show h.pty.writtenBy c.token ++ (DriveStage.beating f).unwritten = inputs (c.frames ++ [f])
        rw [inputs_append, all, one]
  | idles was => exact quiet Drive.tail_drainTurn (by rw [was]; rfl)
  | hangsUp ends was => exact feeds.stops rfl ⟨rfl, nofun⟩
  | beats f was =>
      refine c.handles_cases (p := fun c' => Feeds c' (h.heartbeat now c.token).2) _ f ?_ ?_ ?_ ?_
      · intro data same _
        subst same
        refine feeds.keeps rfl rfl rfl fun _ => ⟨.inr (by rw [was]; rfl), ?_⟩
        rw [was]
        exact (Drive.onward_goOn (Drive.slices data)).unwritten.trans (flatten_slices data)
      · intro rows cols same
        exact feeds.keeps rfl rfl rfl fun _ => ⟨.inr (by rw [was]; rfl), by rw [was, same]; rfl⟩
      · intro same
        refine feeds.keeps rfl rfl rfl fun _ => ⟨.inr (by rw [was]; rfl), ?_⟩
        rw [was, same]
        exact Drive.tail_drainTurn.unwritten
      · exact fun ends => feeds.stops rfl ⟨rfl, nofun⟩
  | writes slice rest rounds was came out =>
      obtain ⟨bytes, -, whole, written⟩ := (h.writtenBy_writeInput now c.token slice rounds).1
      have all := feeds.all (.inr (by rw [was]; rfl))
      have left_ : c.stage.unwritten = slice ++ rest.flatten := by rw [was]; rfl
      rw [left_, ← List.append_assoc, ← whole out, ← written] at all
      refine ⟨⟨rest.flatten, all⟩, fun _ => ?_⟩
      show (h.writeInput now c.token slice rounds).2.pty.writtenBy c.token ++ (Drive.drainBetween rest _).unwritten =
        inputs c.frames
      rw [(Drive.onward_drainBetween rest).unwritten]
      exact all
  | rejected slice rest rounds ends was came out =>
      -- what was written of the slice is the last there is
      obtain ⟨bytes, some_, -, written⟩ := (h.writtenBy_writeInput now c.token slice rounds).1
      have all := feeds.all (.inr (by rw [was]; rfl))
      have left_ : c.stage.unwritten = slice ++ rest.flatten := by rw [was]; rfl
      rw [left_] at all
      refine ⟨?_, fun running => ?_⟩
      · show (h.writeInput now c.token slice rounds).2.pty.writtenBy c.token <+: inputs c.frames
        rw [written, ← all]
        exact (List.prefix_append_right_inj _).mpr (some_.trans (List.prefix_append ..))
      · rcases running with none_ | midway
        · nomatch none_
        · nomatch (@Drive.tail_drainTurn (c.ending ends)).midway midway
  | resizes set was => exact quiet Drive.tail_drainTurn (by rw [was]; rfl)
  | outdated was => exact feeds.stops rfl ⟨rfl, nofun⟩
  | readFails next was => exact feeds.stops rfl (Drive.tail_drainFailed next)
  | reads next n bytes was came out =>
      have writes : ((h.drainOutput n).2.noteDrain now c.token (.data bytes)).pty.writes = h.pty.writes :=
        Pty.writes_readTimeout n h.pty
      dsimp only
      split
      · exact feeds.onward (by rw [was]; cases next <;> rfl) (by rw [was]; cases next <;> rfl) rfl rfl writes rfl
          (Drive.onward_flush next)
      · exact feeds.keeps rfl rfl writes fun running => ⟨running, rfl⟩
  | readsNothing next n eof was out =>
      exact feeds.onward (by rw [was]; cases next <;> rfl) (by rw [was]; cases next <;> rfl) rfl rfl
        (Pty.writes_readTimeout n h.pty) rfl (Drive.onward_flush next)
  | sendsLast chunk next was =>
      exact feeds.onward (by rw [was]; cases next <;> rfl) (by rw [was]; cases next <;> rfl) rfl rfl rfl rfl
        (Drive.onward_drained next)
  | sendsMore chunk other rest next was =>
      refine feeds.keeps rfl rfl rfl fun running => ?_
      rw [was]
      cases next with
      | none => exact ⟨running, rfl⟩
      | some rest => exact ⟨running, rfl⟩
  | sendFails chunk rest next e was => exact feeds.stops rfl (Drive.tail_drainFailed next)
  | pollsRunning second ok was =>
      exact feeds.tail (by rw [was]; rfl) rfl rfl (Pty.writes_pollExit ok h.pty) id Drive.tail_grace
  | pollsFirst ok was => exact feeds.tail (by rw [was]; rfl) rfl rfl (Pty.writes_pollExit ok h.pty) id ⟨rfl, nofun⟩
  | pollsExit ok status was =>
      exact feeds.tail (by rw [was]; rfl) rfl rfl (Pty.writes_pollExit ok h.pty) id ⟨rfl, nofun⟩
  | exits status was => exact feeds.tail (by rw [was]; rfl) rfl rfl rfl id ⟨rfl, nofun⟩
  | graceOver ends was => exact feeds.stops rfl ⟨rfl, nofun⟩
  | graceGoes was => exact quiet Drive.tail_check (by rw [was]; rfl)
  | checks was => exact quiet Drive.tail_again (by rw [was]; rfl)
  | lapses was => exact quiet ⟨rfl, nofun⟩ (by rw [was]; rfl)
  | judged ends was => exact feeds.stops rfl ⟨rfl, nofun⟩
  | leaves was => exact feeds.tail (by rw [was]; rfl) rfl rfl rfl id ⟨rfl, nofun⟩
  | retires was =>
      refine quiet ?_ (by rw [was]; rfl)
      split <;> exact ⟨rfl, nofun⟩
  | returns e was => exact feeds.tail (by rw [was]; rfl) rfl rfl rfl id ⟨rfl, nofun⟩

end Feeds

/-- Another connection writes under its own token. -/
theorem Drive.Moves.writtenBy_of_ne {opts : ServeOptions} {now : Nat} {act : DriveAct} {c : Drive} {h : PtyHub}
    {out : Drive × PtyHub} (moves : Moves opts now act c h out) {token : FencingToken} (other : c.token ≠ token) :
    out.2.pty.writtenBy token = h.pty.writtenBy token := by
  cases moves with
  | panics => rw [PtyHub.acquire_pty]
  | busy => rw [PtyHub.acquire_pty]
  | granted => rw [PtyHub.acquire_pty]
  | writes slice rest rounds => exact (h.writtenBy_writeInput now c.token slice rounds).2 token other
  | rejected slice rest rounds => exact (h.writtenBy_writeInput now c.token slice rounds).2 token other
  | reads next n => exact Pty.writtenBy_congr (Pty.writes_readTimeout n h.pty) token
  | readsNothing next n => exact Pty.writtenBy_congr (Pty.writes_readTimeout n h.pty) token
  | pollsRunning second ok => exact Pty.writtenBy_congr (Pty.writes_pollExit ok h.pty) token
  | pollsFirst ok => exact Pty.writtenBy_congr (Pty.writes_pollExit ok h.pty) token
  | pollsExit ok => exact Pty.writtenBy_congr (Pty.writes_pollExit ok h.pty) token
  | _ => rfl

/-- **What a connection wrote is a prefix of the input it received.** -/
theorem World.feeds : World.ConnInvariant Feeds where
  granted now c h grant fenced fresh acquired := by
    -- every token that wrote is older
    have none_ : (h.acquire now c.conn).2.pty.writtenBy grant.token = [] := by
      have next := PtyHub.acquire_next fenced acquired
      have empty : h.pty.writes.filter (·.1 = grant.token) = [] := by
        refine List.filter_eq_nil_iff.mpr fun write mem same => ?_
        have old : write.1.get ≤ h.lease.inner.token := fenced.written write.1 (List.mem_map_of_mem mem)
        have old := UInt64.le_iff_toNat_le.mp old
        rw [of_decide_eq_true same] at old
        omega
      rw [PtyHub.acquire_pty, Pty.writtenBy, empty]
      rfl
    refine ⟨?_, fun _ => ?_⟩
    · show (h.acquire now c.conn).2.pty.writtenBy grant.token <+: _
      rw [none_]
      exact List.nil_prefix
    · show (h.acquire now c.conn).2.pty.writtenBy grant.token ++ [] = inputs c.frames
      rw [none_, fresh.frames]
      rfl
  moved opts now act c h out moves late feeds := feeds.moves late moves
  beside opts now act c d h out moves other feeds := by
    have written := moves.writtenBy_of_ne other
    refine ⟨?_, fun running => ?_⟩
    · rw [written]
      exact feeds.some_
    · rw [written]
      exact feeds.all running
  delisted c h result was feeds := feeds.tail (by rw [was]; rfl) rfl rfl rfl id ⟨rfl, nofun⟩
  emits c h bytes feeds := by
    refine feeds.keeps rfl rfl ?_ fun running => ⟨running, rfl⟩
    unfold Pty.emit
    split <;> rfl
  hangsUp c h feeds := feeds.keeps rfl rfl rfl fun running => ⟨running, rfl⟩
  ends c h status feeds := by
    refine feeds.keeps rfl rfl ?_ fun running => ⟨running, rfl⟩
    unfold Pty.ends
    split <;> rfl

/-! ## One terminal -/

/-- What a step writes is written under the connection's token, while it is at a slice. -/
theorem Drive.Moves.writes_cases {opts : ServeOptions} {now : Nat} {act : DriveAct} {c : Drive} {h : PtyHub}
    {out : Drive × PtyHub} (moves : Moves opts now act c h out) :
    out.2.pty.writes = h.pty.writes ∨
      c.stage.holds = true ∧ ∃ bytes, out.2.pty.writes = h.pty.writes ++ [(c.token, bytes)] := by
  have at_slice {slice : Bytes} {rest : List Bytes} (rounds : List WriteRound) (was : c.stage = .writing slice rest) :
      (h.writeInput now c.token slice rounds).2.pty.writes = h.pty.writes ∨
        c.stage.holds = true ∧ ∃ bytes,
          (h.writeInput now c.token slice rounds).2.pty.writes = h.pty.writes ++ [(c.token, bytes)] := by
    rcases h.writeInput_cases now c.token slice rounds with ⟨-, same⟩ | ⟨-, same⟩ | ⟨-, same⟩ <;> rw [same]
    · exact .inl rfl
    · exact .inl rfl
    · exact .inr ⟨by rw [was]; rfl, _, rfl⟩
  cases moves with
  | panics => exact .inl (by rw [PtyHub.acquire_pty])
  | busy => exact .inl (by rw [PtyHub.acquire_pty])
  | granted => exact .inl (by rw [PtyHub.acquire_pty])
  | writes slice rest rounds was => exact at_slice rounds was
  | rejected slice rest rounds ends was => exact at_slice rounds was
  | reads next n => exact .inl (Pty.writes_readTimeout n h.pty)
  | readsNothing next n => exact .inl (Pty.writes_readTimeout n h.pty)
  | pollsRunning second ok => exact .inl (Pty.writes_pollExit ok h.pty)
  | pollsFirst ok => exact .inl (Pty.writes_pollExit ok h.pty)
  | pollsExit ok => exact .inl (Pty.writes_pollExit ok h.pty)
  | _ => exact .inl rfl

namespace World

/-- A token that a terminal granted is a connection's, and nothing was written under another. -/
structure Owns (conns : List Drive) (handle : UInt64) (h : PtyHub) : Prop where
  owner : ∀ t ∈ h.granted, t ≠ ⟨0⟩ ∧ ∃ (k : Nat) (c : Drive), conns[k]? = some c ∧ c.handle = handle ∧ c.token = t
  written : ∀ write ∈ h.pty.writes, write.1 ∈ h.granted

structure Owned (w : World) : Prop where
  leased : Leased w
  owns : ∀ handle h, w.hub handle = some h → Owns w.conns handle h

variable {w : World} {k : Nat} {c c' : Drive} {act : DriveAct} {handle : UInt64} {h h' : PtyHub}

/-- A connection is replaced that had no token, or keeps it. -/
theorem Owns.set (owns : Owns w.conns handle h) (here : w.conns[k]? = some c)
    (same : c.token = ⟨0⟩ ∨ c'.handle = c.handle ∧ c'.token = c.token) :
    Owns (w.conns.set k c') handle h := by
  refine ⟨fun t mem => ?_, owns.written⟩
  obtain ⟨some_, j, d, there, its, token⟩ := owns.owner t mem
  refine ⟨some_, ?_⟩
  by_cases own : j = k
  · subst own
    obtain rfl : c = d := Option.some.inj (here.symm.trans there)
    rcases same with zero | ⟨handle', token'⟩
    · exact absurd (token.symm.trans zero) some_
    · refine ⟨j, c', ?_, handle'.trans its, token'.trans token⟩
      exact List.getElem?_set_self (List.getElem?_eq_some_iff.mp here).1
  · refine ⟨j, d, ?_, its, token⟩
    rw [List.getElem?_set_ne (Ne.symm own)]
    exact there

theorem Owns.congr {conns : List Drive} (owns : Owns conns handle h) (granted : h'.granted = h.granted)
    (writes : h'.pty.writes = h.pty.writes) : Owns conns handle h' := by
  refine ⟨?_, ?_⟩
  · rw [granted]
    exact owns.owner
  · rw [granted, writes]
    exact owns.written

namespace Owned

theorem drives (owned : Owned w) (here : w.conns[k]? = some c) (hub : w.hub c.handle = some h)
    {out : Drive × PtyHub} (moves : Drive.Moves w.opts w.clock act c h out) :
    Owns (w.conns.set k out.1) c.handle out.2 ∧
      (c.token = ⟨0⟩ ∨ out.1.handle = c.handle ∧ out.1.token = c.token) := by
  have mem := List.mem_of_getElem? here
  have owns := owned.owns _ h hub
  have writes := moves.writes_cases
  have handle := moves.handle
  have tokens := moves.tokens
  cases tokens with
  | kept out token granted holds early =>
      have same : c.token = ⟨0⟩ ∨ out.1.handle = c.handle ∧ out.1.token = c.token := .inr ⟨handle, token⟩
      refine ⟨⟨?_, ?_⟩, same⟩
      · rw [granted]
        exact (owns.set here same).owner
      · rw [granted]
        rcases writes with kept | ⟨held, bytes, more⟩
        · rw [kept]
          exact owns.written
        · rw [more]
          intro write mem'
          rcases List.mem_append.mp mem' with old | new
          · exact owns.written write old
          · rw [List.mem_singleton.mp new]
            obtain ⟨g, at_, known⟩ := owned.leased.known c mem (owned.leased.holds c mem held)
            obtain rfl : h = g := Option.some.inj (hub.symm.trans at_)
            exact known
  | granted grant was acquired =>
      obtain ⟨granted, pty, -, positive, -, -⟩ := PtyHub.acquire_granted (owned.leased.fenced _ h hub) acquired
      have zero : c.token = ⟨0⟩ := owned.leased.early c mem (by rw [was]; rfl)
      refine ⟨⟨?_, ?_⟩, .inl zero⟩
      · intro t mem'
        rw [granted] at mem'
        rcases List.mem_append.mp mem' with old | new
        · exact (owns.set here (.inl zero)).owner t old
        · rw [List.mem_singleton.mp new]
          exact ⟨positive, k, _, List.getElem?_set_self (List.getElem?_eq_some_iff.mp here).1, rfl, rfl⟩
      · rw [granted, pty]
        exact fun write mem' => List.mem_append_left _ (owns.written write mem')

theorem conn (owned : Owned w) (here : w.conns[k]? = some c) {w' : World} (moves : ConnMoves w k c act w') :
    Owned w' := by
  have leased := owned.leased.conn here moves
  have mem := List.mem_of_getElem? here
  cases moves with
  | stays => exact owned
  | early registry c' was next token quiet same =>
      refine ⟨leased, fun handle h hub => ?_⟩
      exact (owned.owns handle h hub).set here (.inl (owned.leased.early c mem was))
  | opens registry h was next made =>
      have zero := owned.leased.early c mem (by rw [was]; rfl)
      obtain ⟨lease, -, rfl⟩ := Option.map_eq_some_iff.mp made
      exact ⟨leased, Leased.forall_update (p := fun handle h => Owns (w.conns.set k _) handle h)
        (fun handle h hub => (owned.owns handle h hub).set here (.inl zero)) ⟨nofun, nofun⟩⟩
  | drives h out hub moves =>
      obtain ⟨one, same⟩ := owned.drives here hub moves
      exact ⟨leased, Leased.forall_update (p := fun handle h => Owns (w.conns.set k _) handle h)
        (fun handle h hub => (owned.owns handle h hub).set here same) one⟩
  | delists registry was next =>
      exact ⟨leased, fun handle h hub => (owned.owns handle h hub).set here (.inr ⟨rfl, rfl⟩)⟩

theorem onPty (owned : Owned w) (handle : UInt64) {f : Pty → Pty} (leased : Leased (w.onPty handle f))
    (writes : ∀ p, (f p).writes = p.writes) : Owned (w.onPty handle f) := by
  unfold World.onPty at *
  cases here : w.hub handle with
  | none => exact owned
  | some h =>
      rw [here] at leased
      exact ⟨leased, Leased.forall_update (p := fun handle h => Owns w.conns handle h) owned.owns
        ((owned.owns handle h here).congr rfl (writes h.pty))⟩

theorem step (event : WorldEvent) (w : World) (owned : Owned w) : Owned (World.step event w) := by
  have leased := owned.leased.step event
  cases event with
  | connect =>
      refine ⟨leased, fun handle h hub => ⟨fun t mem => ?_, (owned.owns handle h hub).written⟩⟩
      obtain ⟨some_, j, d, there, its, token⟩ := (owned.owns handle h hub).owner t mem
      refine ⟨some_, j, d, ?_, its, token⟩
      show (w.conns ++ [_])[j]? = some d
      rw [List.getElem?_append_left (List.getElem?_eq_some_iff.mp there).1]
      exact there
  | pass time => exact ⟨leased, owned.owns⟩
  | emit handle bytes =>
      refine owned.onPty handle leased fun p => ?_
      unfold Pty.emit
      split <;> rfl
  | hangUp handle => exact owned.onPty handle leased fun _ => rfl
  | exits handle status =>
      refine owned.onPty handle leased fun p => ?_
      unfold Pty.ends
      split <;> rfl
  | conn k act =>
      unfold World.step
      dsimp only
      split
      · exact owned
      · rename_i c here
        exact owned.conn here (w.connStep_moves k c act)

theorem run (opts : ServeOptions) (leaseTimeout : Nat) (events : List WorldEvent) :
    Owned (Library.run World.step events (.start opts leaseTimeout)) :=
  run_invariant World.step step events ⟨.start opts leaseTimeout, fun _ _ hub => nomatch hub⟩

end Owned

/-- **What was written to a terminal is, in the order of the tokens granted, what was written
under each**, and that is a prefix of the input one connection received. -/
theorem writes_are_prefixes (opts : ServeOptions) (leaseTimeout : Nat) (events : List WorldEvent) :
    let w := Library.run World.step events (.start opts leaseTimeout)
    ∀ handle h, w.hub handle = some h →
      h.pty.writes.flatMap (·.2) = h.granted.flatMap h.pty.writtenBy ∧
        (h.granted.Pairwise fun a b => a.get < b.get) ∧
        ∀ t ∈ h.granted, ∃ (k : Nat) (c : Drive), w.conns[k]? = some c ∧ c.handle = handle ∧ c.token = t ∧
          h.pty.writtenBy t <+: inputs c.frames := by
  intro w handle h hub
  have owned : Owned w := Owned.run opts leaseTimeout events
  have keeping : Keeping Feeds w := World.feeds.run opts leaseTimeout events
  have fenced := owned.leased.fenced handle h hub
  have increasing : h.granted.Pairwise fun a b => a.get < b.get := fenced.increasing
  refine ⟨?_, increasing, fun t mem => ?_⟩
  · have keys : (h.granted.map (·.get.toNat)).Pairwise (· < ·) :=
      List.pairwise_map.mpr (increasing.imp UInt64.lt_iff_toNat_lt.mp)
    have sorted : h.pty.writes.Pairwise fun a b => a.1.get.toNat ≤ b.1.get.toNat :=
      (List.pairwise_map.mp fenced.ordered).imp UInt64.le_iff_toNat_le.mp
    have known : ∀ write ∈ h.pty.writes, write.1.get.toNat ∈ h.granted.map (·.get.toNat) :=
      fun write mem => List.mem_map_of_mem ((owned.owns handle h hub).written write mem)
    rw [flatMap_eq_groups (·.2) keys sorted known, List.flatMap_map]
    refine List.flatMap_congr fun t _ => ?_
    unfold Pty.writtenBy
    congr 1
    refine List.filter_congr fun write _ => ?_
    obtain ⟨⟨token⟩, bytes⟩ := write
    obtain ⟨t⟩ := t
    simp [UInt64.toNat_inj]
  · obtain ⟨some_, k, c, there, its, token⟩ := (owned.owns handle h hub).owner t mem
    refine ⟨k, c, there, its, token, ?_⟩
    have feeds := keeping.keeps c (List.mem_of_getElem? there) (token ▸ some_) h (its ▸ hub)
    rw [← token]
    exact feeds.some_

end World

end Jbuu.Terminal
