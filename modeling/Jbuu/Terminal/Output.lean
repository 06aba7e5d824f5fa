/-
# Terminal.Output — what of a terminal's output goes out to a client

What a connection reads of its terminal is pending until it has gone out in chunks. A send that
fails in the drain of the turn ends the loop. One that fails between two slices of an input
leaves the slices only: what is pending stays, the drain of the turn sends it once more, and
the loop ends after that. So what goes out is what was read, in its order and with nothing left
out in between, but one piece of it may come twice, and only at the end (`Going`, `Over`).

Here a frame has gone out once it is sealed, whatever `send_frame` then says: the transport may
have delivered it all the same. Every byte a terminal gave out is read once, under one token
(`Drained`, `World.accounted`).
-/
import Jbuu.Terminal.Integrity
import Jbuu.Terminal.Retire

namespace Jbuu.Terminal

set_option autoImplicit false

open Jbuu.Library.BigEndian (Bytes)
open Jbuu.Library
open LeaseWorld (Fenced)

/-! ## What was read under a token -/

/-- What was read under a token. -/
def Pty.readBy (token : FencingToken) (p : Pty) : Bytes := (p.drains.filter (·.token = token)).flatMap (·.bytes)

theorem Pty.readBy_congr {p p' : Pty} (drains : p'.drains = p.drains) (token : FencingToken) :
    p'.readBy token = p.readBy token := by
  rw [Pty.readBy, drains]
  rfl

theorem Pty.readBy_more {p p' : Pty} {d : Drain} (drains : p'.drains = p.drains ++ [d]) (token : FencingToken) :
    p'.readBy token = p.readBy token ++ if d.token = token then d.bytes else [] := by
  rw [Pty.readBy, drains, List.filter_append, List.flatMap_append]
  congr 1
  by_cases same : d.token = token
  · simp [same]
  · simp [same]

/-- Another connection reads under its own token. -/
theorem Drive.Moves.readBy_of_ne {opts : ServeOptions} {now : Nat} {act : DriveAct} {c : Drive} {h : PtyHub}
    {out : Drive × PtyHub} (moves : Moves opts now act c h out) {token : FencingToken} (other : c.token ≠ token) :
    out.2.pty.readBy token = h.pty.readBy token := by
  rcases moves.drains with same | ⟨bytes, -, more⟩
  · exact Pty.readBy_congr same token
  · rw [Pty.readBy_more more, if_neg other, List.append_nil]

theorem Pty.exit_of_polled {waited : Bool} {p : Pty} {status : ExitStatus}
    (out : (p.pollExit waited).1 = some status) : (p.pollExit waited).2.exit = some status.code := by
  unfold Pty.pollExit at out ⊢
  split at out
  · rename_i code known
    rw [known, ← Option.some.inj out]
  · split at out
    · rw [← Option.some.inj out]
    · nomatch out

/-- What a step sees of the exit: nothing new, or for the first time how the child ended. -/
theorem Drive.Moves.exit_cases {opts : ServeOptions} {now : Nat} {act : DriveAct} {c : Drive} {h : PtyHub}
    {out : Drive × PtyHub} (moves : Moves opts now act c h out) :
    out.2.pty.child = h.pty.child ∧ (out.2.pty.exit = h.pty.exit ∨
      h.pty.exit = none ∧ ∃ status, h.pty.child = some status ∧ out.2.pty.exit = some status.code) := by
  have read (n : Nat) : (h.pty.readTimeout n).2.child = h.pty.child ∧ (h.pty.readTimeout n).2.exit = h.pty.exit := by
    rcases h.pty.readTimeout_cases n with ⟨-, same⟩ | ⟨bytes, rest, -, -, same⟩ <;> rw [same] <;>
      exact ⟨rfl, rfl⟩
  have written (data : Bytes) (rounds : List WriteRound) :
      (h.writeInput now c.token data rounds).2.pty.child = h.pty.child ∧
        (h.writeInput now c.token data rounds).2.pty.exit = h.pty.exit := by
    rcases h.writeInput_cases now c.token data rounds with ⟨-, same⟩ | ⟨-, same⟩ | ⟨-, same⟩ <;> rw [same] <;>
      exact ⟨rfl, rfl⟩
  have polled (ok : Bool) : (h.pty.pollExit ok).2.child = h.pty.child ∧ ((h.pty.pollExit ok).2.exit = h.pty.exit ∨
      h.pty.exit = none ∧ ∃ status, h.pty.child = some status ∧ (h.pty.pollExit ok).2.exit = some status.code) := by
    unfold Pty.pollExit
    split
    · exact ⟨rfl, .inl rfl⟩
    · rename_i none_
      split
      · rename_i status ended
        exact ⟨rfl, .inr ⟨none_, status, ended, rfl⟩⟩
      · exact ⟨rfl, .inl rfl⟩
  cases moves with
  | panics => rw [PtyHub.acquire_pty]; exact ⟨rfl, .inl rfl⟩
  | busy => rw [PtyHub.acquire_pty]; exact ⟨rfl, .inl rfl⟩
  | granted => rw [PtyHub.acquire_pty]; exact ⟨rfl, .inl rfl⟩
  | writes slice rest rounds => exact (written slice rounds).imp_right .inl
  | rejected slice rest rounds => exact (written slice rounds).imp_right .inl
  | reads next n => exact (read n).imp_right .inl
  | readsNothing next n => exact (read n).imp_right .inl
  | pollsRunning second ok => exact polled ok
  | pollsFirst ok => exact polled ok
  | pollsExit ok => exact polled ok
  | _ => exact ⟨rfl, .inl rfl⟩

/-- An exit that was observed stays as it is. -/
theorem Drive.Moves.exit_keeps {opts : ServeOptions} {now : Nat} {act : DriveAct} {c : Drive} {h : PtyHub}
    {out : Drive × PtyHub} (moves : Moves opts now act c h out) {code : Int32} (known : h.pty.exit = some code) :
    out.2.pty.exit = some code := by
  rcases moves.exit_cases with ⟨-, same | ⟨none_, -⟩⟩
  · exact same.trans known
  · nomatch none_.symm.trans known

/-- After the grant the token stays. -/
theorem Drive.Moves.token_kept {opts : ServeOptions} {now : Nat} {act : DriveAct} {c : Drive} {h : PtyHub}
    {out : Drive × PtyHub} (moves : Moves opts now act c h out) (late : c.stage.early = false) :
    out.1.token = c.token := by
  cases moves.tokens with
  | kept out token => exact token
  | granted grant was => simp [was, DriveStage.early] at late

/-- **The exit that was observed is how the child ended.** -/
theorem World.exit_is_childs : World.HubInvariant fun h => ∀ code, h.pty.exit = some code →
    ∃ status, h.pty.child = some status ∧ status.code = code where
  new timeout now h made := by
    obtain ⟨lease, -, rfl⟩ := Option.map_eq_some_iff.mp made
    nofun
  moved opts now act c h out moves proper := by
    intro code known
    obtain ⟨child, same | ⟨-, status, ended, seen⟩⟩ := moves.exit_cases
    · rw [child]
      exact proper code (same.symm.trans known)
    · rw [child]
      exact ⟨status, ended, Option.some.inj (seen.symm.trans known)⟩
  emits h bytes proper := by
    unfold Pty.emit
    split <;> exact proper
  hangsUp _ := id
  ends h status proper := by
    intro code known
    unfold Pty.ends at known ⊢
    split at known
    · rename_i none_
      obtain ⟨other, ended, -⟩ := proper code known
      nomatch none_.symm.trans ended
    · rename_i some_
      rw [if_neg some_]
      exact proper code known

/-! ## The end of the loop -/

namespace DriveStage

/-- Nothing is read any more, and nothing sent but an Exit. -/
def closing : DriveStage → Bool
  | .polling _ => true
  | .exiting _ => true
  | .gracing => true
  | .leaving => true
  | .retiring => true
  | .delisting => true
  | .failing _ => true
  | .ended _ => true
  | .panicked => true
  | _ => false

/-- In the drain of a last turn, or after it. -/
def last : DriveStage → Bool
  | .draining none => true
  | .sending _ _ none => true
  | stage => stage.closing

theorem last_of_closing {stage : DriveStage} (closing : stage.closing = true) : stage.last = true := by
  cases stage <;> first | exact closing | nomatch closing

end DriveStage

namespace Drive

variable {c : Drive}

theorem closing_again (ended : c.ends ≠ none) : c.again.closing = true := by
  rw [again, if_neg ended]
  rfl

theorem closing_check (ended : c.ends ≠ none) : c.check.closing = true := by
  rw [check, if_neg fun both => ended both.1]
  exact closing_again ended

theorem closing_grace (ended : c.ends ≠ none) : c.grace.closing = true := by
  unfold grace
  split
  · rfl
  · exact closing_check ended

theorem closing_turn (ended : c.ends ≠ none) : c.turn.closing = true := by
  unfold turn
  split
  · rfl
  · exact closing_grace ended

theorem last_drainTurn (ended : c.ends ≠ none) : c.drainTurn.last = true := by
  unfold drainTurn
  split
  · exact DriveStage.last_of_closing (closing_turn ended)
  · rfl

theorem last_flush (ended : c.ends ≠ none) : (c.flush none).last = true := by
  unfold flush
  split
  · exact DriveStage.last_of_closing (closing_turn ended)
  · rfl

theorem unsent_of_silent (silent : c.saying = none) : c.unsent = c.pending := by
  unfold unsent
  split
  · rename_i was
    rw [saying, was] at silent
    nomatch silent
  · rfl

end Drive

/-- The loop is in no drain, and neither at a send nor at the exit. -/
def DriveStage.idle : DriveStage → Bool
  | .draining _ => false
  | .sending _ _ _ => false
  | .polling _ => false
  | .exiting _ => false
  | _ => true

theorem Drive.plain_of_idle {c : Drive} {stage : DriveStage} (idle : stage.idle = true) : Plain c stage where
  sending chunk rest next was := by simp [was, DriveStage.idle] at idle
  exiting status was := by simp [was, DriveStage.idle] at idle
  draining next was := by simp [was, DriveStage.idle] at idle
  polling second was := by simp [was, DriveStage.idle] at idle

/-! ## One connection -/

/-- Of what a connection read, `once` has gone out and is done with; `again` is the beginning of
what is pending, and has gone out already. -/
structure Going (c : Drive) (read out once again : Bytes) : Prop where
  front : once ++ again <+: out
  all : out ++ c.unsent = once ++ (again ++ c.pending)
  read : once ++ c.pending = read
  twice : again <+: c.pending
  last : again ≠ [] → c.ends ≠ none ∧ c.stage.last = true

/-- What is read of the terminal has all gone out that ever will. -/
structure Over (c : Drive) (read out : Bytes) : Prop where
  ends : c.ends ≠ none
  closing : c.stage.closing = true
  some_ : ∃ once again rest, out <+: once ++ (again ++ rest) ∧ again <+: rest ∧ once ++ rest <+: read

/-- What a connection sent of what it read. -/
inductive Prints (c : Drive) (read out : Bytes) : Prop
  | going (once again : Bytes) (going : Going c read out once again)
  | gone (gone : Over c read out)

/-- The loop is no less at its end than it was. -/
structure Drive.Winds (c c' : Drive) (stage : DriveStage) : Prop where
  last : c.ends ≠ none → c.stage.last = true → c'.ends ≠ none ∧ stage.last = true
  closing : c.ends ≠ none → c.stage.closing = true → c'.ends ≠ none ∧ stage.closing = true

/-- Before its end the loop goes anywhere. -/
theorem Drive.Winds.of_not_last {c c' : Drive} {stage : DriveStage} (before : c.stage.last = false) :
    c.Winds c' stage where
  last _ last := nomatch before.symm.trans last
  closing _ closing := nomatch before.symm.trans (DriveStage.last_of_closing closing)

/-- After the last drain the loop goes on to its end. -/
theorem Drive.Winds.of_closing {c c' : Drive} {stage : DriveStage} (ends : c.ends ≠ none → c'.ends ≠ none)
    (closing : c.ends ≠ none → stage.closing = true) : c.Winds c' stage where
  last ended _ := ⟨ends ended, DriveStage.last_of_closing (closing ended)⟩
  closing ended _ := ⟨ends ended, closing ended⟩

namespace Prints

variable {c c' : Drive} {read out : Bytes}

theorem Going.on {stage : DriveStage} {once again : Bytes} (going : Going c read out once again)
    (unsent : c.unsent = c.pending) (pending : c'.pending = c.pending)
    (sending : ∀ chunk rest next, stage ≠ .sending chunk rest next) (winds : c.Winds c' stage) :
    Going (c'.at_ stage) read out once again where
  front := going.front
  all := by
    show out ++ (c'.at_ stage).unsent = once ++ (again ++ c'.pending)
    have unsent' : (c'.at_ stage).unsent = c'.pending := by
      unfold Drive.unsent
      split
      · rename_i chunk rest next was
        exact absurd was (sending chunk rest next)
      · rfl
    rw [unsent', pending, ← unsent]
    exact unsent ▸ going.all
  read := by
    show once ++ c'.pending = read
    rw [pending]
    exact going.read
  twice := by
    show again <+: c'.pending
    rw [pending]
    exact going.twice
  last some_ := winds.last (going.last some_).1 (going.last some_).2

/-- A step of the loop that reads nothing and sends nothing. -/
theorem on {stage : DriveStage} (prints : Prints c read out) (unsent : c.unsent = c.pending)
    (pending : c'.pending = c.pending) (sending : ∀ chunk rest next, stage ≠ .sending chunk rest next)
    (winds : c.Winds c' stage) : Prints (c'.at_ stage) read out := by
  cases prints with
  | going once again going => exact .going once again (Going.on going unsent pending sending winds)
  | gone gone =>
      obtain ⟨ended, closing⟩ := winds.closing gone.ends gone.closing
      exact .gone ⟨ended, closing, gone.some_⟩

/-- More is read. -/
theorem more {once again : Bytes} (going : Going c read out once again) (unsent : c.unsent = c.pending)
    {bytes : Bytes} {stage : DriveStage} (was : c.stage = stage) (drain : ∃ next, stage = .draining next) :
    Going { c with pending := c.pending ++ bytes } (read ++ bytes) out once again := by
  obtain ⟨next, rfl⟩ := drain
  refine ⟨going.front, ?_, ?_, going.twice.trans (List.prefix_append ..), going.last⟩
  · have unsent' : Drive.unsent { c with pending := c.pending ++ bytes } = c.pending ++ bytes := by
      unfold Drive.unsent
      rw [was]
    rw [unsent', ← List.append_assoc, ← unsent, going.all, unsent]
    simp only [List.append_assoc]
  · show once ++ (c.pending ++ bytes) = _
    rw [← List.append_assoc, going.read]

/-- What is pending goes out, or there is nothing. -/
theorem Going.flush {once again : Bytes} (going : Going c read out once again) (unsent : c.unsent = c.pending)
    {next : Option (List Bytes)} (was : c.stage = .draining next) :
    Going (c.goes (Drive.flush next)) read out once again := by
  have whole : (chunkInput c.pending).flatten = c.pending := flatten_chunks _ _
  have last : again ≠ [] → c.ends ≠ none ∧ (c.flush next).last = true := by
    intro some_
    obtain ⟨ended, last⟩ := going.last some_
    rw [was] at last
    cases next with
    | none => exact ⟨ended, Drive.last_flush ended⟩
    | some rest => nomatch last
  have all : out ++ c.pending = once ++ (again ++ c.pending) := unsent ▸ going.all
  have unsent' : (c.goes (Drive.flush next)).unsent = c.pending := by
    unfold Drive.goes Drive.flush
    split
    · rename_i empty
      unfold Drive.unsent
      split
      · rename_i chunk rest next' at_
        exact absurd at_ ((Drive.plain_drained next).sending chunk rest next')
      · rfl
    · rename_i chunk rest cut
      rw [cut] at whole
      exact whole
  exact ⟨going.front, unsent' ▸ all, going.read, going.twice, last⟩

end Prints

/-! ## What a step leaves -/

/-- What a connection sent, and of the exit what it knows and what it said. -/
structure Emits (c : Drive) (h : PtyHub) (frames : List TerminalFrame) : Prop where
  prints : Prints c (h.pty.readBy c.token) (outputs frames)
  exiting : ∀ status, c.stage = .exiting status → h.pty.exit = some status.code
  told : ∀ code, .exit code ∈ frames → h.pty.exit = some code

namespace Emits

variable {c c' : Drive} {h h' : PtyHub} {frames : List TerminalFrame}

/-- Nobody read under the token of the connection. -/
theorem beside (emits : Emits c h frames) (read : h'.pty.readBy c.token = h.pty.readBy c.token)
    (exit : ∀ code, h.pty.exit = some code → h'.pty.exit = some code) : Emits c h' frames where
  prints := by
    rw [read]
    exact emits.prints
  exiting status was := exit _ (emits.exiting status was)
  told code mem := exit _ (emits.told code mem)

/-- A step of a connection that is at no frame. -/
theorem moves {opts : ServeOptions} {now : Nat} {act : DriveAct} {out : Drive × PtyHub} (emits : Emits c h frames)
    (silent : c.saying = none) (late : c.stage.early = false) (moves : Drive.Moves opts now act c h out) :
    Emits out.1 out.2 frames := by
  have unsent := Drive.unsent_of_silent silent
  have kept : ∀ code, h.pty.exit = some code → out.2.pty.exit = some code := fun code => moves.exit_keeps
  -- on to a stage that is no send, with what was read as it was
  have prints {c' : Drive} {stage : DriveStage} (drains : out.2.pty.drains = h.pty.drains) (token : c'.token = c.token)
      (pending : c'.pending = c.pending) (sending : ∀ chunk rest next, stage ≠ .sending chunk rest next)
      (winds : c.Winds c' stage) : Prints (c'.at_ stage) (out.2.pty.readBy c'.token) (outputs frames) := by
    have read : out.2.pty.readBy c'.token = h.pty.readBy c.token := by rw [token, Pty.readBy_congr drains]
    rw [read]
    exact emits.prints.on unsent pending sending winds
  have told : ∀ code, .exit code ∈ frames → out.2.pty.exit = some code :=
    fun code mem => kept code (emits.told code mem)
  have on {c' : Drive} {stage : DriveStage} (drains : out.2.pty.drains = h.pty.drains) (token : c'.token = c.token)
      (pending : c'.pending = c.pending) (plain : Drive.Plain c' stage) (winds : c.Winds c' stage) :
      Emits (c'.at_ stage) out.2 frames :=
    ⟨prints drains token pending plain.sending winds, fun status was => absurd was (plain.exiting status), told⟩
  cases moves with
  | stays => exact emits
  | panics was => simp [was, DriveStage.early] at late
  | busy denied was => simp [was, DriveStage.early] at late
  | granted grant was => simp [was, DriveStage.early] at late
  | announces was => simp [Drive.saying, was] at silent
  | fails e was => rcases was with was | ⟨status, was⟩ <;> simp [Drive.saying, was] at silent
  | aligns was => exact on rfl rfl rfl (Drive.plain_of_idle rfl) (.of_not_last (by rw [was]; rfl))
  | receives f was =>
      exact @on { c with frames := c.frames ++ [f] } _ rfl rfl rfl (Drive.plain_of_idle rfl)
        (.of_not_last (by rw [was]; rfl))
  | idles was => exact on rfl rfl rfl Drive.plain_drainTurn (.of_not_last (by rw [was]; rfl))
  | hangsUp ends was =>
      exact @on (c.ending ends) _ rfl rfl rfl (Drive.plain_of_idle rfl) (.of_not_last (by rw [was]; rfl))
  | beats f was =>
      have before : c.stage.last = false := by rw [was]; rfl
      refine c.handles_cases (p := fun c' => Emits c' (h.heartbeat now c.token).2 frames) _ f ?_ ?_ ?_ ?_
      · exact fun data _ _ => on rfl rfl rfl (Drive.plain_goOn (Drive.slices data)) (.of_not_last before)
      · exact fun rows cols _ =>
          @on { c with window := ⟨rows, cols⟩ } _ rfl rfl rfl (Drive.plain_of_idle rfl) (.of_not_last before)
      · exact fun _ => on rfl rfl rfl Drive.plain_drainTurn (.of_not_last before)
      · exact fun ends => @on (c.ending ends) _ rfl rfl rfl (Drive.plain_of_idle rfl) (.of_not_last before)
  | writes slice rest rounds was =>
      exact on (PtyHub.writeInput_drains ..) rfl rfl (Drive.plain_drainBetween rest) (.of_not_last (by rw [was]; rfl))
  | rejected slice rest rounds ends was =>
      exact on (PtyHub.writeInput_drains ..) rfl rfl Drive.plain_drainTurn (.of_not_last (by rw [was]; rfl))
  | resizes set was => exact on rfl rfl rfl Drive.plain_drainTurn (.of_not_last (by rw [was]; rfl))
  | outdated was =>
      exact @on (c.ending .fenced) _ rfl rfl rfl (Drive.plain_of_idle rfl) (.of_not_last (by rw [was]; rfl))
  | readFails next was =>
      refine on rfl rfl rfl (Drive.plain_drainFailed next) ?_
      cases next with
      | none => exact .of_closing (fun _ => Option.some_ne_none _) fun _ => rfl
      | some rest => exact .of_not_last (by rw [was]; rfl)
  | reads next n bytes was came out =>
      have drains : ((h.drainOutput n).2.noteDrain now c.token (.data bytes)).pty.drains =
          h.pty.drains ++ [⟨c.token, bytes, h.leaseIsCurrent now c.token⟩] := by
        show (h.pty.readTimeout n).2.drains ++ _ = _
        rw [Pty.drains_readTimeout]
        rfl
      have read : ((h.drainOutput n).2.noteDrain now c.token (.data bytes)).pty.readBy c.token =
          h.pty.readBy c.token ++ bytes := by
        rw [Pty.readBy_more drains, if_pos rfl]
      have before := emits.prints
      cases before with
      | gone gone =>
          have closing := gone.closing
          simp [was, DriveStage.closing] at closing
      | going once again going =>
          have more : Going { c with pending := c.pending ++ bytes } (h.pty.readBy c.token ++ bytes)
              (outputs frames) once again :=
            Prints.more going unsent was ⟨next, rfl⟩
          dsimp only
          split
          · refine ⟨.going once again ?_, ?_, told⟩
            · show Going _ (((h.drainOutput n).2.noteDrain now c.token (.data bytes)).pty.readBy c.token) _ _ _
              rw [read]
              exact Prints.Going.flush more (by rw [Drive.unsent, was]) was
            · exact fun status at_ => absurd at_ (Drive.exiting_flush status)
          · refine ⟨.going once again ?_, ?_, told⟩
            · show Going _ (((h.drainOutput n).2.noteDrain now c.token (.data bytes)).pty.readBy c.token) _ _ _
              rw [read]
              exact more
            · intro status at_
              simp [was] at at_
  | readsNothing next n eof was =>
      have drains : (h.drainOutput n).2.pty.drains = h.pty.drains := Pty.drains_readTimeout n h.pty
      refine ⟨?_, fun status at_ => absurd at_ (Drive.exiting_flush status), told⟩
      show Prints _ ((h.drainOutput n).2.pty.readBy c.token) _
      rw [Pty.readBy_congr drains]
      have before := emits.prints
      cases before with
      | gone gone =>
          have closing := gone.closing
          simp [was, DriveStage.closing] at closing
      | going once again going =>
          have same : Going { c with ptyEof := c.ptyEof || eof } (h.pty.readBy c.token) (outputs frames) once again :=
            ⟨going.front, going.all, going.read, going.twice, going.last⟩
          exact .going once again (Prints.Going.flush same unsent was)
  | sendsLast chunk next was => simp [Drive.saying, was] at silent
  | sendsMore chunk other rest next was => simp [Drive.saying, was] at silent
  | sendFails chunk rest next e was => simp [Drive.saying, was] at silent
  | pollsRunning second ok =>
      exact on (Pty.drains_pollExit ok h.pty) rfl rfl Drive.plain_grace (.of_closing id Drive.closing_grace)
  | pollsFirst ok =>
      refine ⟨prints (Pty.drains_pollExit ok h.pty) rfl rfl (by simp) (.of_closing id fun _ => rfl), ?_, told⟩
      simp [Drive.at_]
  | pollsExit ok status was came out =>
      have known : (h.pty.pollExit ok).2.exit = some status.code := Pty.exit_of_polled out
      refine ⟨@prints { c with exit := some status } _ (Pty.drains_pollExit ok h.pty) rfl rfl (by simp)
        (.of_closing id fun _ => rfl), fun status' at_ => ?_, told⟩
      rw [← DriveStage.exiting.inj at_]
      exact known
  | exits status was => simp [Drive.saying, was] at silent
  | graceOver ends =>
      exact @on (c.ending ends) _ rfl rfl rfl (Drive.plain_of_idle rfl) (.of_closing (fun _ => Option.some_ne_none _) fun _ => rfl)
  | graceGoes => exact on rfl rfl rfl Drive.plain_check (.of_closing id Drive.closing_check)
  | checks was => exact on rfl rfl rfl Drive.plain_again (.of_not_last (by rw [was]; rfl))
  | lapses was => exact on rfl rfl rfl (Drive.plain_of_idle rfl) (.of_not_last (by rw [was]; rfl))
  | judged ends was =>
      exact @on (c.ending ends) _ rfl rfl rfl (Drive.plain_of_idle rfl) (.of_not_last (by rw [was]; rfl))
  | leaves => exact on rfl rfl rfl (Drive.plain_of_idle rfl) (.of_closing id fun _ => rfl)
  | retires =>
      refine on rfl rfl rfl ?_ (.of_closing id fun _ => ?_)
      · split <;> exact (Drive.plain_of_idle rfl)
      · split <;> rfl
  | returns => exact on rfl rfl rfl (Drive.plain_of_idle rfl) (.of_closing id fun _ => rfl)

/-- The end of what is pending goes out. -/
theorem Going.sent {read out once again : Bytes} (going : Going c read out once again) {chunk : Bytes}
    {next : Option (List Bytes)} (was : c.stage = .sending chunk [] next) (same : c'.ends = c.ends)
    (none_ : c'.pending = []) {stage : DriveStage} (sending : ∀ chunk rest next, stage ≠ .sending chunk rest next)
    (closing : next = none → c'.ends ≠ none → stage.closing = true) :
    Prints (c'.at_ stage) read (out ++ chunk) := by
  have unsent : c.unsent = chunk := by
    rw [Drive.unsent, was]
    exact List.append_nil chunk
  have all := going.all
  rw [unsent] at all
  cases again with
  | nil =>
      rw [List.nil_append] at all
      have unsent' : (c'.at_ stage).unsent = [] := by
        unfold Drive.unsent
        split
        · rename_i chunk rest next' at_
          exact absurd at_ (sending chunk rest next')
        · exact none_
      refine .going (once ++ c.pending) [] ⟨?_, ?_, ?_, List.nil_prefix, fun some_ => absurd rfl some_⟩
      · rw [List.append_nil, all]
      · rw [unsent', all, List.append_nil]
        show _ = once ++ c.pending ++ ([] ++ c'.pending)
        rw [none_, List.append_nil, List.append_nil]
      · show once ++ c.pending ++ c'.pending = read
        rw [none_, List.append_nil]
        exact going.read
  | cons b more =>
      obtain ⟨ended, last⟩ := going.last (List.cons_ne_nil b more)
      rw [was] at last
      have inTurn : next = none := by
        cases next with
        | none => rfl
        | some rest => simp [DriveStage.last, DriveStage.closing] at last
      rw [← same] at ended
      refine .gone ⟨ended, closing inTurn ended, once, b :: more, c.pending, ?_, going.twice, ?_⟩
      · rw [all]
      · rw [going.read]

/-- A chunk of what is pending fails to go out, or went out all the same. -/
theorem Going.fails {read out once again : Bytes} (going : Going c read out once again) {chunk : Bytes}
    {rest : List Bytes} {next : Option (List Bytes)} (was : c.stage = .sending chunk rest next) {sent : Bytes}
    (some_ : sent <+: chunk) (e : TerminalError) :
    Prints ((c.ending (.failed e)).goes (Drive.drainFailed next)) read (out ++ sent) := by
  have unsent : c.unsent = chunk ++ rest.flatten := by rw [Drive.unsent, was]
  have all := going.all
  rw [unsent] at all
  cases next with
  | none =>
      -- the loop ends here
      refine .gone ⟨Option.some_ne_none _, rfl, once, again, c.pending, ?_, going.twice, ?_⟩
      · rw [← all]
        exact (List.prefix_append_right_inj out).mpr (some_.trans (List.prefix_append ..))
      · rw [going.read]
  | some slices =>
      -- what is pending stays, with what of it has gone out
      have once_ : again = [] := by
        by_contra twice
        obtain ⟨-, last⟩ := going.last twice
        simp [was, DriveStage.last, DriveStage.closing] at last
      subst once_
      obtain ⟨front, gone⟩ := going.front
      rw [List.append_nil] at gone
      subst gone
      rw [List.append_assoc, List.nil_append] at all
      have all := List.append_cancel_left all
      have ended : (c.ending (.failed e)).ends ≠ none := Option.some_ne_none _
      have unsent' : ((c.ending (.failed e)).goes (Drive.drainFailed (some slices))).unsent = c.pending := by
        unfold Drive.unsent
        split
        · rename_i chunk rest next' at_
          exact absurd at_ ((Drive.plain_drainFailed (some slices)).sending chunk rest next')
        · rfl
      refine .going once (front ++ sent) ⟨?_, ?_, going.read, ?_, fun _ => ⟨ended, Drive.last_drainTurn ended⟩⟩
      · rw [List.append_assoc]
      · rw [unsent']
        show _ = once ++ (front ++ sent ++ c.pending)
        simp only [List.append_assoc]
      · show front ++ sent <+: c.pending
        rw [← all]
        exact (List.prefix_append_right_inj front).mpr (some_.trans (List.prefix_append ..))

/-- A frame goes out, or may have gone out, or has not. -/
theorem tells {opts : ServeOptions} {now : Nat} {f : TerminalFrame} {result : Except TerminalError Unit}
    {more : List TerminalFrame} (emits : Emits c h frames) (holds : c.stage.holds = true) (saying : c.saying = some f)
    (spoken : more = [f] ∨ more = [] ∧ ∃ e, result = .error e) :
    Emits (c.onHub opts now (.done result) h).1 (c.onHub opts now (.done result) h).2 (frames ++ more) := by
  have told (none_ : ∀ code, .exit code ∉ more) : ∀ code, .exit code ∈ frames ++ more → h.pty.exit = some code := by
    intro code mem
    rcases List.mem_append.mp mem with old | new
    · exact emits.told code old
    · exact absurd new (none_ code)
  -- a frame that is no Output
  have quiet {c' : Drive} {stage : DriveStage} (silent : outputs more = []) (unsent : c.unsent = c.pending)
      (token : c'.token = c.token) (pending : c'.pending = c.pending)
      (sending : ∀ chunk rest next, stage ≠ .sending chunk rest next) (winds : c.Winds c' stage) :
      Prints (c'.at_ stage) (h.pty.readBy c'.token) (outputs (frames ++ more)) := by
    rw [outputs_append, silent, List.append_nil, token]
    exact emits.prints.on unsent pending sending winds
  unfold Drive.saying at saying
  split at saying
  · rename_i was
    simp [was, DriveStage.holds] at holds
  · rename_i was
    obtain rfl := Option.some.inj saying
    have unsent : c.unsent = c.pending := by rw [Drive.unsent, was]
    have silent : outputs more = [] := by rcases spoken with rfl | ⟨rfl, -⟩ <;> rfl
    have none_ : ∀ code, .exit code ∉ more := by rcases spoken with rfl | ⟨rfl, -⟩ <;> simp
    have before : c.stage.last = false := by rw [was]; rfl
    unfold Drive.onHub
    rw [was]
    cases result with
    | ok =>
        exact ⟨@quiet (c.sends _) _ silent unsent rfl rfl (@Drive.plain_of_idle c _ rfl).sending (.of_not_last before),
          fun status at_ => absurd at_ ((@Drive.plain_of_idle c _ rfl).exiting status), told none_⟩
    | error e =>
        exact ⟨quiet silent unsent rfl rfl (@Drive.plain_of_idle c _ rfl).sending (.of_not_last before),
          fun status at_ => absurd at_ ((@Drive.plain_of_idle c _ rfl).exiting status), told none_⟩
  · rename_i chunk rest next was
    obtain rfl := Option.some.inj saying
    have none_ : ∀ code, .exit code ∉ more := by rcases spoken with rfl | ⟨rfl, -⟩ <;> simp
    have notOver (gone : Over c (h.pty.readBy c.token) (outputs frames)) : False := by
      have closing := gone.closing
      simp [was, DriveStage.closing] at closing
    have before := emits.prints
    unfold Drive.onHub
    rw [was]
    cases before with
    | gone gone => exact (notOver gone).elim
    | going once again going =>
    cases result with
    | ok =>
        have more_ : more = [.output chunk] := spoken.resolve_right (by rintro ⟨-, e, ⟨⟩⟩)
        have out : outputs (frames ++ more) = outputs frames ++ chunk := by
          rw [outputs_append, more_]
          exact congrArg _ (List.append_nil chunk)
        dsimp only
        cases rest with
        | nil =>
            refine ⟨?_, fun status at_ => absurd at_ ((Drive.plain_drained next).exiting status), told none_⟩
            rw [out]
            refine Going.sent going was (by rfl) (by rfl) (Drive.plain_drained next).sending ?_
            rintro rfl ended
            exact Drive.closing_turn ended
        | cons other rest =>
            refine ⟨.going once again ?_, by simp [Drive.at_], told none_⟩
            have all := going.all
            rw [Drive.unsent, was] at all
            rw [out]
            refine ⟨going.front.trans (List.prefix_append ..), ?_, going.read, going.twice, fun some_ => ?_⟩
            · rw [List.append_assoc]
              exact all
            · obtain ⟨ended, last⟩ := going.last some_
              rw [was] at last
              cases next with
              | none => exact ⟨ended, rfl⟩
              | some slices => simp [DriveStage.last, DriveStage.closing] at last
    | error e =>
        refine ⟨?_, fun status at_ => absurd at_ ((Drive.plain_drainFailed next).exiting status), told none_⟩
        have out : ∃ sent, outputs (frames ++ more) = outputs frames ++ sent ∧ sent <+: chunk := by
          rcases spoken with rfl | ⟨rfl, -⟩
          · exact ⟨chunk, by rw [outputs_append]; exact congrArg _ (List.append_nil chunk), List.prefix_rfl⟩
          · exact ⟨[], by rw [outputs_append]; rfl, List.nil_prefix⟩
        obtain ⟨sent, out, some_⟩ := out
        rw [out]
        exact Going.fails going was some_ e
  · rename_i status was
    obtain rfl := Option.some.inj saying
    have unsent : c.unsent = c.pending := by rw [Drive.unsent, was]
    have silent : outputs more = [] := by rcases spoken with rfl | ⟨rfl, -⟩ <;> rfl
    have told : ∀ code, .exit code ∈ frames ++ more → h.pty.exit = some code := by
      intro code mem
      rcases List.mem_append.mp mem with old | new
      · exact emits.told code old
      · rcases spoken with rfl | ⟨rfl, -⟩
        · rw [TerminalFrame.exit.inj (List.mem_singleton.mp new)]
          exact emits.exiting status was
        · exact absurd new List.not_mem_nil
    unfold Drive.onHub
    rw [was]
    cases result with
    | ok =>
        exact ⟨@quiet { c.sends _ with exitSentAt := some now } _ silent unsent rfl rfl (@Drive.plain_of_idle c _ rfl).sending
          (.of_closing id fun _ => rfl), fun status' at_ => absurd at_ ((@Drive.plain_of_idle c _ rfl).exiting status'), told⟩
    | error e =>
        exact ⟨quiet silent unsent rfl rfl (@Drive.plain_of_idle c _ rfl).sending (.of_closing id fun _ => rfl),
          fun status' at_ => absurd at_ ((@Drive.plain_of_idle c _ rfl).exiting status'), told⟩
  · exact absurd saying (Option.some_ne_none f).symm

end Emits

/-! ## All connections -/

/-- A frame of a connection is sealed with a step, or none is. -/
inductive Drive.Spoken (c : Drive) : DriveAct → List TerminalFrame → Prop
  | silent (act : DriveAct) (silent : c.saying = none) : Spoken c act []
  | idle (act : DriveAct) (other : ∀ result, act ≠ .done result) : Spoken c act []
  | sealed (f : TerminalFrame) (saying : c.saying = some f) (result : Except TerminalError Unit) :
      Spoken c (.done result) [f]
  | refused (f : TerminalFrame) (saying : c.saying = some f) (e : TerminalError) : Spoken c (.done (.error e)) []

namespace Drive

variable {c : Drive} {act : DriveAct} {more : List TerminalFrame}

/-- Before the grant a connection says nothing but a denial. -/
theorem Spoken.unheard (spoken : c.Spoken act more) (early : c.stage.holds = false) :
    outputs more = [] ∧ ∀ code, .exit code ∉ more := by
  cases spoken with
  | silent => exact ⟨rfl, by simp⟩
  | idle => exact ⟨rfl, by simp⟩
  | refused => exact ⟨rfl, by simp⟩
  | sealed f saying =>
      unfold Drive.saying at saying
      split at saying
      · rw [← Option.some.inj saying]
        exact ⟨rfl, by simp⟩
      · rename_i was
        rw [was] at early
        nomatch early
      · rename_i was
        rw [was] at early
        nomatch early
      · rename_i was
        rw [was] at early
        nomatch early
      · nomatch saying

/-- A connection that is at a frame waits for what becomes of it. -/
theorem onHub_saying {opts : ServeOptions} {now : Nat} {h : PtyHub} {f : TerminalFrame} (saying : c.saying = some f)
    (holds : c.stage.holds = true) (other : ∀ result, act ≠ .done result) : c.onHub opts now act h = (c, h) := by
  unfold Drive.saying at saying
  split at saying
  · rename_i was
    rw [was] at holds
    nomatch holds
  · rename_i was
    unfold onHub
    rw [was]
    cases act <;> first | rfl | exact absurd rfl (other _)
  · rename_i was
    unfold onHub
    rw [was]
    cases act <;> first | rfl | exact absurd rfl (other _)
  · rename_i was
    unfold onHub
    rw [was]
    cases act <;> first | rfl | exact absurd rfl (other _)
  · nomatch saying

theorem holds_of_saying {f : TerminalFrame} (saying : c.saying = some f) (late : c.stage.early = false) :
    c.stage.holds = true := by
  unfold Drive.saying at saying
  split at saying
  · rename_i was
    rw [was] at late
    nomatch late
  · rename_i was
    rw [was]
    rfl
  · rename_i was
    rw [was]
    rfl
  · rename_i was
    rw [was]
    rfl
  · nomatch saying

end Drive

/-- **A step of a connection on its terminal**, with what it seals. -/
theorem Emits.steps {c : Drive} {h : PtyHub} {frames more : List TerminalFrame} {opts : ServeOptions} {now : Nat}
    {act : DriveAct} (emits : Emits c h frames) (late : c.stage.early = false) (spoken : c.Spoken act more) :
    Emits (c.onHub opts now act h).1 (c.onHub opts now act h).2 (frames ++ more) := by
  have quiet : c.saying = none → Emits (c.onHub opts now act h).1 (c.onHub opts now act h).2 frames :=
    fun silent => emits.moves silent late (c.onHub_moves opts now act h)
  cases spoken with
  | silent act silent =>
      rw [List.append_nil]
      exact quiet silent
  | idle act other =>
      rw [List.append_nil]
      cases saying : c.saying with
      | none => exact quiet saying
      | some f =>
          rw [Drive.onHub_saying saying (Drive.holds_of_saying saying late) other]
          exact emits
  | sealed f saying result => exact emits.tells (Drive.holds_of_saying saying late) saying (.inl rfl)
  | refused f saying e => exact emits.tells (Drive.holds_of_saying saying late) saying (.inr ⟨rfl, e, rfl⟩)

/-- What was read was read under tokens that were granted. -/
def PtyHub.Known (h : PtyHub) : Prop := ∀ d ∈ h.pty.drains, d.token ∈ h.granted

namespace World

/-- Nothing is read of a terminal but under a token it granted. -/
structure Drained (w : World) : Prop where
  leased : Leased w
  granted : ∀ handle h, w.hub handle = some h → h.Known

namespace Drained

variable {w : World} {k : Nat} {c : Drive} {act : DriveAct}

theorem start (opts : ServeOptions) (leaseTimeout : Nat) : Drained (.start opts leaseTimeout) where
  leased := .start opts leaseTimeout
  granted _ _ here := nomatch here

theorem conn (drained : Drained w) (here : w.conns[k]? = some c) {w' : World} (moves : ConnMoves w k c act w') :
    Drained w' := by
  have leased := drained.leased.conn here moves
  have mem := List.mem_of_getElem? here
  cases moves with
  | stays => exact drained
  | early => exact ⟨leased, drained.granted⟩
  | opens registry h was next made =>
      obtain ⟨lease, -, rfl⟩ := Option.map_eq_some_iff.mp made
      exact ⟨leased, Leased.forall_update (p := fun _ h => h.Known) drained.granted nofun⟩
  | drives h out hub moves =>
      refine ⟨leased, Leased.forall_update (p := fun _ h => h.Known) drained.granted ?_⟩
      have drains := moves.drains
      have tokens := moves.tokens
      have grown : ∀ t ∈ h.granted, t ∈ out.2.granted := by
        cases tokens with
        | kept out token granted =>
            rw [granted]
            exact fun _ => id
        | granted grant was acquired =>
            rw [(PtyHub.acquire_granted (drained.leased.fenced _ h hub) acquired).1]
            exact fun t => List.mem_append_left _
      unfold PtyHub.Known
      rcases drains with same | ⟨bytes, reads, more⟩
      · rw [same]
        exact fun d mem' => grown _ (drained.granted _ h hub d mem')
      · rw [more]
        intro d mem'
        rcases List.mem_append.mp mem' with old | new
        · exact grown _ (drained.granted _ h hub d old)
        · have holder := drained.leased.holds c mem (DriveStage.holds_of_reading reads)
          obtain ⟨g, at_, known⟩ := drained.leased.known c mem holder
          obtain rfl : h = g := Option.some.inj (hub.symm.trans at_)
          rw [List.mem_singleton.mp new]
          exact grown _ known
  | delists => exact ⟨leased, drained.granted⟩

theorem onPty (drained : Drained w) (handle : UInt64) {f : Pty → Pty} (leased : Leased (w.onPty handle f))
    (drains : ∀ p, (f p).drains = p.drains) : Drained (w.onPty handle f) := by
  unfold World.onPty at *
  cases here : w.hub handle with
  | none => exact drained
  | some h =>
      rw [here] at leased
      refine ⟨leased, Leased.forall_update (p := fun _ h => h.Known) drained.granted ?_⟩
      unfold PtyHub.Known
      dsimp only
      rw [drains]
      exact drained.granted handle h here

theorem step (event : WorldEvent) (w : World) (drained : Drained w) : Drained (World.step event w) := by
  have leased := drained.leased.step event
  cases event with
  | connect => exact ⟨leased, drained.granted⟩
  | pass time => exact ⟨leased, drained.granted⟩
  | emit handle bytes =>
      refine drained.onPty handle leased fun p => ?_
      unfold Pty.emit
      split <;> rfl
  | hangUp handle => exact drained.onPty handle leased fun _ => rfl
  | exits handle status =>
      refine drained.onPty handle leased fun p => ?_
      unfold Pty.ends
      split <;> rfl
  | conn k act =>
      unfold World.step
      dsimp only
      split
      · exact drained
      · rename_i c here
        exact drained.conn here (w.connStep_moves k c act)

end Drained

theorem step_conn {w : World} {k : Nat} {c : Drive} (here : w.conns[k]? = some c) (act : DriveAct) :
    World.step (.conn k act) w = w.connStep k c act := by
  simp only [World.step, here]

/-- What a step does to a terminal. -/
inductive HubMoves (w : World) (event : WorldEvent) (handle : UInt64) (h : PtyHub) : PtyHub → Prop
  | same : HubMoves w event handle h h
  | drives (j : Nat) (act : DriveAct) (d : Drive) (out : Drive × PtyHub) (came : event = .conn j act)
      (there : w.conns[j]? = some d) (handle_ : d.handle = handle) (moves : Drive.Moves w.opts w.clock act d h out) :
      HubMoves w event handle h out.2
  | emits (bytes : Bytes) : HubMoves w event handle h { h with pty := h.pty.emit bytes }
  | hangsUp : HubMoves w event handle h { h with pty := h.pty.hangUp }
  | ends (status : ChildEnd) : HubMoves w event handle h { h with pty := h.pty.ends status }

theorem hub_moves {w : World} {event : WorldEvent} {handle : UInt64} {h h' : PtyHub} (leased : Leased w)
    (hub : w.hub handle = some h) (hub' : (World.step event w).hub handle = some h') :
    HubMoves w event handle h h' := by
  have kept (same : w.hub handle = some h') : HubMoves w event handle h h' := by
    rw [← Option.some.inj (hub.symm.trans same)]
    exact .same
  -- the terminal that is written, or another one
  have update {other : UInt64} {g : PtyHub} (at_ : Function.update w.hub other (some g) handle = some h')
      (one : handle = other → HubMoves w event handle h g) : HubMoves w event handle h h' := by
    by_cases same : handle = other
    · rw [same, Function.update_self] at at_
      rw [← Option.some.inj at_]
      exact one same
    · rw [Function.update_of_ne same] at at_
      exact kept at_
  have onPty {other : UInt64} {f : Pty → Pty} (at_ : (w.onPty other f).hub handle = some h')
      (one : HubMoves w event handle h { h with pty := f h.pty }) : HubMoves w event handle h h' := by
    unfold World.onPty at at_
    cases there : w.hub other with
    | none =>
        rw [there] at at_
        exact kept at_
    | some g =>
        rw [there] at at_
        refine update at_ fun same => ?_
        obtain rfl : h = g := Option.some.inj (hub.symm.trans (same ▸ there))
        exact one
  cases event with
  | connect => exact kept hub'
  | pass time => exact kept hub'
  | emit other bytes => exact onPty hub' (.emits bytes)
  | hangUp other => exact onPty hub' .hangsUp
  | exits other status => exact onPty hub' (.ends status)
  | conn j act =>
      unfold World.step at hub'
      dsimp only at hub'
      cases there : w.conns[j]? with
      | none =>
          rw [there] at hub'
          exact kept hub'
      | some d =>
          rw [there] at hub'
          dsimp only at hub'
          have moves := w.connStep_moves j d act
          generalize w.connStep j d act = w' at hub' moves
          cases moves with
          | stays => exact kept hub'
          | early => exact kept hub'
          | opens registry g was next made =>
              refine update hub' fun same => ?_
              have below := leased.below _ h hub
              rw [same] at below
              exact absurd below (Nat.lt_irrefl _)
          | drives g out at_ moves =>
              refine update hub' fun same => ?_
              obtain rfl : h = g := Option.some.inj (hub.symm.trans (same ▸ at_))
              exact .drives j act d out rfl there same.symm moves
          | delists => exact kept hub'

/-- What a connection sealed, on the terminal that granted it its token. -/
structure Outward (w : World) (c : Drive) (frames : List TerminalFrame) : Prop where
  unheard : c.token = ⟨0⟩ → outputs frames = [] ∧ ∀ code, .exit code ∉ frames
  emits : c.token ≠ ⟨0⟩ → ∀ h, w.hub c.handle = some h → Emits c h frames

namespace Outward

variable {w : World} {k : Nat} {c : Drive} {act : DriveAct} {frames more : List TerminalFrame}

/-- A connection on its terminal. -/
theorem connStep_late (late : c.stage.early = false) (more_ : c.stage ≠ .delisting) {h : PtyHub}
    (hub : w.hub c.handle = some h) :
    w.connStep k c act =
      (w.setHub c.handle (c.onHub w.opts w.clock act h).2).setConn k (c.onHub w.opts w.clock act h).1 := by
  unfold connStep
  split
  case h_12 was => exact absurd was more_
  case h_13 => rw [hub]
  all_goals
    rename_i was
    rw [was] at late
    nomatch late

/-- Before the grant, and up to it. -/
theorem early (outward : Outward w c frames) (drained : Drained w) (keeping : Keeping SawExit w)
    (here : w.conns[k]? = some c) (early : c.stage.early = true) (spoken : c.Spoken act more) {w' : World}
    (moves : ConnMoves w k c act w') : ∃ c', w'.conns = w.conns.set k c' ∧ Outward w' c' (frames ++ more) := by
  have mem := List.mem_of_getElem? here
  have zero := drained.leased.early c mem early
  have stays : w.conns = w.conns.set k c := by
    obtain ⟨inside, rfl⟩ := List.getElem?_eq_some_iff.mp here
    exact (List.set_getElem_self inside).symm
  have nothing : outputs (frames ++ more) = [] ∧ ∀ code, .exit code ∉ frames ++ more := by
    obtain ⟨silent, none_⟩ := outward.unheard zero
    obtain ⟨silent', none_'⟩ := spoken.unheard (DriveStage.not_holds_of_early early)
    refine ⟨by rw [outputs_append, silent, silent']; rfl, fun code mem => ?_⟩
    rcases List.mem_append.mp mem with old | new
    · exact none_ code old
    · exact none_' code new
  have quiet {w' : World} {c' : Drive} (token : c'.token = ⟨0⟩) : Outward w' c' (frames ++ more) :=
    ⟨fun _ => nothing, fun some_ => absurd token some_⟩
  cases moves with
  | stays => exact ⟨c, stays, quiet zero⟩
  | early registry c' was next token => exact ⟨c', rfl, quiet (token.trans zero)⟩
  | opens registry h was next made => exact ⟨_, rfl, quiet zero⟩
  | drives h out hub moves =>
      refine ⟨out.1, rfl, ?_⟩
      have handle := moves.handle
      have tokens := moves.tokens
      cases tokens with
      | kept out token => exact quiet (token.trans zero)
      | granted grant was acquired =>
          obtain ⟨-, pty, -, positive, -, -⟩ := PtyHub.acquire_granted (drained.leased.fenced _ h hub) acquired
          refine ⟨fun token => absurd token positive, fun _ g there => ?_⟩
          have there : Function.update w.hub c.handle (some (h.acquire w.clock c.conn).2) c.handle = some g := there
          rw [Function.update_self] at there
          rw [← Option.some.inj there]
          -- nothing was read under a token that was not yet granted
          have fresh : h.pty.readBy grant.token = [] := by
            have next := PtyHub.acquire_next (drained.leased.fenced _ h hub) acquired
            have none_ : h.pty.drains.filter (·.token = grant.token) = [] := by
              refine List.filter_eq_nil_iff.mpr fun d mem' same => ?_
              have known := drained.granted _ h hub d mem'
              have old : d.token.get ≤ h.lease.inner.token := (drained.leased.fenced _ h hub).known d.token known
              have old := UInt64.le_iff_toNat_le.mp old
              rw [of_decide_eq_true same] at old
              omega
            rw [Pty.readBy, none_]
            rfl
          have pending : c.pending = [] := (keeping.fresh c mem early).pending
          refine ⟨.going [] [] ⟨List.nil_prefix, ?_, ?_, List.nil_prefix, fun some_ => absurd rfl some_⟩, nofun,
            fun code mem' => absurd mem' (nothing.2 code)⟩
          · rw [nothing.1]
            rfl
          · show [] ++ c.pending = (h.acquire w.clock c.conn).2.pty.readBy grant.token
            rw [pty, fresh, pending]
            rfl
  | delists registry was =>
      rw [was] at early
      nomatch early

/-- **A step of the connection**, with what it seals. -/
theorem own (outward : Outward w c frames) (drained : Drained w) (keeping : Keeping SawExit w)
    (here : w.conns[k]? = some c) (spoken : c.Spoken act more) :
    ∃ c', (w.connStep k c act).conns = w.conns.set k c' ∧ Outward (w.connStep k c act) c' (frames ++ more) := by
  have mem := List.mem_of_getElem? here
  have moves := w.connStep_moves k c act
  cases early : c.stage.early with
  | true => exact outward.early drained keeping here early spoken moves
  | false =>
  have stays : w.conns = w.conns.set k c := by
    obtain ⟨inside, rfl⟩ := List.getElem?_eq_some_iff.mp here
    exact (List.set_getElem_self inside).symm
  by_cases at_ : c.stage.holds = true
  · -- with its grant
    have some_ := drained.leased.holds c mem at_
    obtain ⟨h, hub, -⟩ := drained.leased.known c mem some_
    have listed : c.stage ≠ .delisting := by
      intro was
      rw [was] at at_
      nomatch at_
    have emits : Emits (c.onHub w.opts w.clock act h).1 (c.onHub w.opts w.clock act h).2 (frames ++ more) :=
      (outward.emits some_ h hub).steps early spoken
    have moves := c.onHub_moves w.opts w.clock act h
    have token := moves.token_kept early
    rw [connStep_late early listed hub]
    refine ⟨_, rfl, fun zero => absurd (token ▸ zero) some_, fun _ g there => ?_⟩
    have there : Function.update w.hub c.handle (some (c.onHub w.opts w.clock act h).2)
        (c.onHub w.opts w.clock act h).1.handle = some g := there
    rw [moves.handle, Function.update_self] at there
    rw [← Option.some.inj there]
    exact emits
  · -- after its end nothing is sealed
    have silent : c.saying = none := by
      by_contra saying
      obtain ⟨f, saying⟩ := Option.ne_none_iff_exists'.mp saying
      exact at_ (Drive.holds_of_saying saying early)
    have none_ : more = [] := by
      cases spoken with
      | silent => rfl
      | idle => rfl
      | sealed f saying => nomatch silent.symm.trans saying
      | refused => rfl
    subst none_
    rw [List.append_nil]
    generalize w.connStep k c act = w' at moves
    cases moves with
    | stays => exact ⟨c, stays, outward⟩
    | early registry c' was => nomatch early.symm.trans was
    | opens registry h was => rw [was] at early; nomatch early
    | drives h out hub moves =>
        have token := moves.token_kept early
        refine ⟨out.1, rfl, fun zero => outward.unheard (token ▸ zero), fun some_ g there => ?_⟩
        have there : Function.update w.hub c.handle (some out.2) out.1.handle = some g := there
        rw [moves.handle, Function.update_self] at there
        rw [← Option.some.inj there]
        exact (outward.emits (token ▸ some_) h hub).moves silent early moves
    | delists registry was =>
        refine ⟨_, rfl, outward.unheard, fun some_ h hub => ?_⟩
        obtain ⟨prints, -, told⟩ := outward.emits some_ h hub
        exact ⟨prints.on (Drive.unsent_of_silent silent) rfl nofun (.of_closing id fun _ => rfl), nofun, told⟩

/-- The terminal of a connection under a step that is not its own. -/
theorem hub_beside (leased : Leased w) (here : w.conns[k]? = some c) (some_ : c.token ≠ ⟨0⟩) {event : WorldEvent}
    (apart : ∀ act, event ≠ .conn k act) {h' : PtyHub} (hub' : (World.step event w).hub c.handle = some h') :
    ∃ h, w.hub c.handle = some h ∧ h'.pty.readBy c.token = h.pty.readBy c.token ∧
      ∀ code, h.pty.exit = some code → h'.pty.exit = some code := by
  obtain ⟨h, hub, -⟩ := leased.known c (List.mem_of_getElem? here) some_
  refine ⟨h, hub, ?_⟩
  cases hub_moves leased hub hub' with
  | same => exact ⟨rfl, fun _ => id⟩
  | drives j act d out came there handle moves =>
      refine ⟨moves.readBy_of_ne fun token => ?_, fun code => moves.exit_keeps⟩
      have own := leased.distinct k j c d here there some_ handle.symm token.symm
      exact apart act (own ▸ came)
  | emits bytes =>
      unfold Pty.emit
      split <;> exact ⟨rfl, fun _ => id⟩
  | hangsUp => exact ⟨rfl, fun _ => id⟩
  | ends status =>
      unfold Pty.ends
      split <;> exact ⟨rfl, fun _ => id⟩

/-- A step of another connection, or of the terminals, or of time. -/
theorem beside (outward : Outward w c frames) (leased : Leased w) (here : w.conns[k]? = some c) {event : WorldEvent}
    (apart : ∀ act, event ≠ .conn k act) : Outward (World.step event w) c frames where
  unheard := outward.unheard
  emits some_ h' hub' := by
    obtain ⟨h, hub, read, exit⟩ := hub_beside leased here some_ apart hub'
    exact (outward.emits some_ h hub).beside read exit

end Outward

/-- What a proof about the frames that connections seal rests on: it holds of a connection that
starts, its own steps keep it where each frame is sealed as `ok` has it, and so do all others. -/
structure FrameInvariant (base : World → Prop) (ok : World → Nat → Drive → Prop)
    (p : World → Nat → Drive → List TerminalFrame → Prop) : Prop where
  based : ∀ event w, base w → base (World.step event w)
  starts : ∀ w k conn, p w k (.start conn) []
  own : ∀ {w k c act frames more}, base w → w.conns[k]? = some c → c.Spoken act more → (more ≠ [] → ok w k c) →
    p w k c frames → ∃ c', (w.connStep k c act).conns = w.conns.set k c' ∧ p (w.connStep k c act) k c' (frames ++ more)
  beside : ∀ {w k c frames event}, base w → w.conns[k]? = some c → (∀ act, event ≠ .conn k act) → p w k c frames →
    p (World.step event w) k c frames

theorem outward : FrameInvariant (fun w => Drained w ∧ Keeping SawExit w) (fun _ _ _ => True)
    (fun w _ c frames => Outward w c frames) where
  based event w base := ⟨base.1.step event, World.sawExit.step event w base.2⟩
  starts _ _ _ := ⟨fun _ => ⟨rfl, fun _ => List.not_mem_nil⟩, fun some_ => absurd rfl some_⟩
  own base here spoken _ outward := outward.own base.1 base.2 here spoken
  beside base here apart outward := outward.beside base.1.leased here apart

end World

end Jbuu.Terminal
