/-
# Terminal.Completeness — the client that returns the exit has shown everything

`Terminal.Display` says that nothing is shown that the terminal did not give out. This is the
converse: what was given out and belongs to the client is shown before the client returns how
the child ended. The Exit is sealed after all that was read had gone out, if the loop was not at
its end then (`Drive.Trim`, `Emits`); and if nothing was unread then, nothing is read any more,
for the child has ended (`PtyHub.Exhausted`). So, where the Exit of a connection is sent at no
end of its loop and with nothing unread, its client shows exactly what was read under its token
(`terminal_output_is_complete`).

Both conditions are the code's. A send that fails between two slices of an input sets the end
and leaves the turn, with its Exit, to go on; and what is written after the last drain of a turn,
before the status is asked for, is still unread when the Exit goes out.
-/
import Jbuu.Terminal.Display

namespace Jbuu.Terminal

set_option autoImplicit false

open Jbuu.Library.BigEndian (Bytes)
open Jbuu.Library

/-! ## What is pending -/

/-- In the loop nothing is pending but in a drain, or after one that failed. -/
def Drive.Trim (c : Drive) : Prop := c.stage.tidy = true → c.ends = none → c.pending = []

namespace Drive.Trim

variable {c c' : Drive}

/-- From one stage of the loop to another. -/
theorem on {stage : DriveStage} (trim : c.Trim) (was : c.stage.tidy = true) (ends : c'.ends = c.ends)
    (pending : c'.pending = c.pending) : (c'.at_ stage).Trim :=
  fun _ going => pending.trans (trim was (ends ▸ going))

/-- The end of the loop is set. -/
theorem ended (ends : c.ends ≠ none) : c.Trim := fun _ going => absurd going ends

/-- Out of the loop. -/
theorem off {stage : DriveStage} (gone : stage.tidy = false) : (c.at_ stage).Trim := by
  intro tidy
  rw [show (c.at_ stage).stage = stage from rfl, gone] at tidy
  exact absurd tidy Bool.false_ne_true

/-- Nothing is pending. -/
theorem empty (none_ : c.pending = []) : c.Trim := fun _ _ => none_

/-- What is pending goes out, or there is nothing. -/
theorem flush (next : Option (List Bytes)) : (c.goes (Drive.flush next)).Trim := by
  have whole : (chunkInput c.pending).flatten = c.pending := flatten_chunks _ _
  unfold Drive.goes Drive.flush
  split
  · rename_i nothing
    rw [nothing, List.flatten_nil] at whole
    exact empty whole.symm
  · exact off rfl

theorem moves {opts : ServeOptions} {now : Nat} {act : DriveAct} {h : PtyHub} {out : Drive × PtyHub}
    (trim : c.Trim) (late : c.stage.early = false) (moves : Drive.Moves opts now act c h out) : out.1.Trim := by
  cases moves with
  | stays => exact trim
  | panics => exact off rfl
  | busy => exact off rfl
  | granted grant was => simp [was, DriveStage.early] at late
  | announces was => exact @on c (c.sends _) _ trim (by rw [was]; rfl) rfl rfl
  | fails => exact off rfl
  | aligns was => exact trim.on (by rw [was]; rfl) rfl rfl
  | receives f was => exact @on c { c with frames := c.frames ++ [f] } _ trim (by rw [was]; rfl) rfl rfl
  | idles was => exact trim.on (by rw [was]; rfl) rfl rfl
  | hangsUp => exact off rfl
  | beats f was =>
      have tidy : c.stage.tidy = true := by rw [was]; rfl
      refine c.handles_cases (p := fun c' => c'.Trim) _ f ?_ ?_ ?_ ?_
      · exact fun data _ _ => trim.on tidy rfl rfl
      · exact fun rows cols _ => @on c { c with window := ⟨rows, cols⟩ } _ trim tidy rfl rfl
      · exact fun _ => trim.on tidy rfl rfl
      · exact fun ends => off rfl
  | writes slice rest rounds was => exact trim.on (by rw [was]; rfl) rfl rfl
  | rejected slice rest rounds ends => exact ended (Option.some_ne_none _)
  | resizes set was => exact trim.on (by rw [was]; rfl) rfl rfl
  | outdated => exact off rfl
  | readFails => exact ended (Option.some_ne_none _)
  | reads next n bytes was =>
      dsimp only
      split
      · exact flush next
      · exact @off { c with pending := c.pending ++ bytes } _ (by rw [was]; rfl)
  | readsNothing next => exact flush next
  | sendsLast => exact empty rfl
  | sendsMore => exact off rfl
  | sendFails => exact ended (Option.some_ne_none _)
  | pollsRunning second ok was => exact trim.on (by rw [was]; rfl) rfl rfl
  | pollsFirst ok was => exact trim.on (by rw [was]; rfl) rfl rfl
  | pollsExit ok status was => exact @on c { c with exit := some status } _ trim (by rw [was]; rfl) rfl rfl
  | exits status was =>
      exact @on c { c.sends _ with exitSentAt := some now } _ trim (by rw [was]; rfl) rfl rfl
  | graceOver => exact off rfl
  | graceGoes was => exact trim.on (by rw [was]; rfl) rfl rfl
  | checks was => exact trim.on (by rw [was]; rfl) rfl rfl
  | lapses was => exact trim.on (by rw [was]; rfl) rfl rfl
  | judged => exact off rfl
  | leaves => exact off rfl
  | retires =>
      refine off ?_
      split <;> rfl
  | returns => exact off rfl

end Drive.Trim

theorem World.trim : World.ConnInvariant fun c _ => c.Trim where
  granted _ _ _ _ _ fresh _ := .empty fresh.pending
  moved _ _ _ _ _ _ moves late trim := trim.moves late moves
  beside _ _ _ _ _ _ _ _ _ trim := trim
  delisted _ _ _ _ _ := .off rfl
  emits _ _ _ trim := trim
  hangsUp _ _ trim := trim
  ends _ _ _ trim := trim

/-! ## A terminal with nothing more to give out -/

/-- The child has ended and all it wrote was read. -/
structure PtyHub.Exhausted (h : PtyHub) : Prop where
  child : h.pty.child.isSome = true
  output : h.pty.output = []

/-- Of such a terminal nothing is read any more. -/
theorem Drive.Moves.exhausted {opts : ServeOptions} {now : Nat} {act : DriveAct} {c : Drive} {h : PtyHub}
    {out : Drive × PtyHub} (moves : Moves opts now act c h out) (exhausted : h.Exhausted) :
    out.2.Exhausted ∧ out.2.pty.drains = h.pty.drains := by
  obtain ⟨ended, unread⟩ := exhausted
  have child : out.2.pty.child.isSome = true := moves.exit_cases.1 ▸ ended
  have read (n : Nat) : h.pty.readTimeout n = (if h.pty.hungUp then .eof else .timeout, h.pty) := by
    rcases h.pty.readTimeout_cases n with ⟨-, same⟩ | ⟨bytes, rest, some_, more, -⟩
    · exact same
    · rw [unread] at more
      exact absurd (List.append_eq_nil_iff.mp more.symm).1 some_
  have written (data : Bytes) (rounds : List WriteRound) :
      (h.writeInput now c.token data rounds).2.pty.output = [] ∧
        (h.writeInput now c.token data rounds).2.pty.drains = h.pty.drains :=
    ⟨(h.writeInput_output now c.token data rounds).1.trans unread, PtyHub.writeInput_drains ..⟩
  have polled (ok : Bool) : (h.pty.pollExit ok).2.output = [] := by
    unfold Pty.pollExit
    split
    · exact unread
    · split <;> exact unread
  have same : out.2.pty.output = [] ∧ out.2.pty.drains = h.pty.drains := by
    cases moves with
    | panics => rw [PtyHub.acquire_pty]; exact ⟨unread, rfl⟩
    | busy => rw [PtyHub.acquire_pty]; exact ⟨unread, rfl⟩
    | granted => rw [PtyHub.acquire_pty]; exact ⟨unread, rfl⟩
    | writes slice rest rounds => exact written slice rounds
    | rejected slice rest rounds => exact written slice rounds
    | reads next n bytes was came out =>
        have out : (h.pty.readTimeout n).1 = .data bytes := out
        rw [read] at out
        split at out <;> cases out
    | readsNothing next n =>
        show (h.pty.readTimeout n).2.output = [] ∧ (h.pty.readTimeout n).2.drains = _
        rw [read]
        exact ⟨unread, rfl⟩
    | pollsRunning second ok => exact ⟨polled ok, Pty.drains_pollExit ok h.pty⟩
    | pollsFirst ok => exact ⟨polled ok, Pty.drains_pollExit ok h.pty⟩
    | pollsExit ok => exact ⟨polled ok, Pty.drains_pollExit ok h.pty⟩
    | _ => exact ⟨unread, rfl⟩
  exact ⟨⟨child, same.1⟩, same.2⟩

namespace World

variable {w : World} {k : Nat} {c : Drive} {act : DriveAct} {frames more : List TerminalFrame}

theorem HubMoves.exhausted {event : WorldEvent} {handle : UInt64} {h h' : PtyHub}
    (moves : HubMoves w event handle h h') (exhausted : h.Exhausted) :
    h'.Exhausted ∧ h'.pty.drains = h.pty.drains := by
  obtain ⟨ended, unread⟩ := exhausted
  have child : h.pty.child ≠ none := Option.isSome_iff_ne_none.mp ended
  cases moves with
  | same => exact ⟨⟨ended, unread⟩, rfl⟩
  | drives j act d out came there handle_ moves => exact moves.exhausted ⟨ended, unread⟩
  | emits bytes =>
      unfold Pty.emit
      rw [if_neg fun both => child both.1]
      exact ⟨⟨ended, unread⟩, rfl⟩
  | hangsUp => exact ⟨⟨ended, unread⟩, rfl⟩
  | ends status =>
      unfold Pty.ends
      rw [if_neg child]
      exact ⟨⟨ended, unread⟩, rfl⟩

end World

/-! ## The Exit -/

/-- What was sealed before an Exit is all that is ever read under the token. -/
def Told (token : FencingToken) (h : PtyHub) (frames : List TerminalFrame) : Prop :=
  ∀ pre code post, frames = pre ++ .exit code :: post → h.Exhausted ∧ outputs pre = h.pty.readBy token

namespace Told

variable {token : FencingToken} {h h' : PtyHub} {frames : List TerminalFrame}

/-- Another frame, which is an Exit only if all is out. -/
theorem sends (told : Told token h frames) {f : TerminalFrame}
    (exits : ∀ code, f = .exit code → h.Exhausted ∧ outputs frames = h.pty.readBy token) :
    Told token h (frames ++ [f]) := by
  intro pre code post split
  rcases List.eq_nil_or_concat post with rfl | ⟨post', last, rfl⟩
  · obtain ⟨same, exit⟩ := List.append_inj' split rfl
    rw [← same]
    exact exits code (List.cons.inj exit).1
  · have split : frames ++ [f] = (pre ++ .exit code :: post') ++ [last] := by simpa using split
    exact told pre code post' (List.append_inj' split rfl).1

/-- What is said of an exhausted terminal stays true. -/
theorem moves {w : World} {event : WorldEvent} {handle : UInt64} (told : Told token h frames)
    (moves : World.HubMoves w event handle h h') : Told token h' frames := by
  intro pre code post split
  obtain ⟨exhausted, all⟩ := told pre code post split
  obtain ⟨exhausted', drains⟩ := moves.exhausted exhausted
  exact ⟨exhausted', all.trans (Pty.readBy_congr drains token).symm⟩

end Told

/-- The Exit is to be sealed. -/
def DriveStage.atExit : DriveStage → Bool
  | .exiting _ => true
  | _ => false

/-- The Exit goes out at no end of the loop, and with nothing unread. -/
def Drive.Clean (c : Drive) (h : PtyHub) : Prop := c.stage.atExit = true → c.ends = none ∧ h.pty.output = []

instance decidableClean (c : Drive) (h : PtyHub) : Decidable (c.Clean h) :=
  decidable_of_iff (c.stage.atExit = true → c.ends.isNone = true ∧ h.pty.output.isEmpty = true)
    (imp_congr_right fun _ => and_congr Option.isNone_iff_eq_none List.isEmpty_iff)

theorem Drive.exiting_of_saying {c : Drive} {code : Int32} (saying : c.saying = some (.exit code)) :
    ∃ status, c.stage = .exiting status := by
  unfold Drive.saying at saying
  split at saying
  · cases saying
  · cases saying
  · cases saying
  · exact ⟨_, ‹_›⟩
  · cases saying

/-- The Exit that is sealed so comes after all that was read. -/
theorem Emits.all_out {c : Drive} {h : PtyHub} {frames : List TerminalFrame} {status : ExitStatus}
    (emits : Emits c h frames) (was : c.stage = .exiting status) (trim : c.Trim) (running : c.ends = none) :
    outputs frames = h.pty.readBy c.token := by
  have pending : c.pending = [] := trim (by rw [was]; rfl) running
  cases emits.prints with
  | gone gone => exact absurd running gone.ends
  | going once again going =>
      have unsent : c.unsent = [] := by
        rw [Drive.unsent, was]
        exact pending
      have none_ : again = [] := by
        have twice := going.twice
        rw [pending] at twice
        exact List.prefix_nil.mp twice
      have all := going.all
      have read := going.read
      rw [unsent, none_, pending, List.append_nil, List.append_nil, List.append_nil] at all
      rw [pending, List.append_nil] at read
      exact all.trans read

namespace World

/-- What a proof about the Exit rests on. -/
structure Ready (w : World) : Prop where
  drained : Drained w
  keeping : Keeping SawExit w
  trim : Keeping (fun c _ => c.Trim) w
  proper : ∀ handle h, w.hub handle = some h → h.pty.exit.isSome = true → h.pty.child.isSome = true

namespace Ready

theorem start (opts : ServeOptions) (leaseTimeout : Nat) : Ready (.start opts leaseTimeout) where
  drained := .start opts leaseTimeout
  keeping := ConnInvariant.start opts leaseTimeout
  trim := ConnInvariant.start opts leaseTimeout
  proper _ _ here := nomatch here

theorem step (event : WorldEvent) (w : World) (ready : Ready w) : Ready (World.step event w) where
  drained := ready.drained.step event
  keeping := World.sawExit.step event w ready.keeping
  trim := World.trim.step event w ready.trim
  proper := World.exit_of_child.step event w ready.proper

end Ready

/-- Where the connection `k` seals an Exit, it is as it should be. -/
def CleanAt (k : Nat) (w : World) (j : Nat) (c : Drive) : Prop := j = k → ∀ h ∈ w.hub c.handle, c.Clean h

instance decidableCleanAt (k : Nat) (w : World) (j : Nat) (c : Drive) : Decidable (CleanAt k w j c) :=
  inferInstanceAs (Decidable (_ → ∀ h ∈ w.hub c.handle, c.Clean h))

/-- What a connection sealed, and, of the connection `k`, what it sealed before an Exit. -/
structure Finishes (k : Nat) (w : World) (j : Nat) (c : Drive) (frames : List TerminalFrame) : Prop where
  outward : Outward w c frames
  told : j = k → c.token ≠ ⟨0⟩ → ∀ h, w.hub c.handle = some h → Told c.token h frames

namespace Finishes

variable {w : World} {k j : Nat} {c c' : Drive} {act : DriveAct} {frames more : List TerminalFrame}

/-- After the grant a connection keeps its terminal and its token. -/
theorem connStep_kept (here : w.conns[j]? = some c) (late : c.stage.early = false)
    (conns : (w.connStep j c act).conns = w.conns.set j c') : c'.handle = c.handle ∧ c'.token = c.token := by
  have inside := (List.getElem?_eq_some_iff.mp here).1
  have at_ : (w.connStep j c act).conns[j]? = some c' := by rw [conns, List.getElem?_set_self inside]
  have moves := w.connStep_moves j c act
  generalize w.connStep j c act = w' at at_ moves
  cases moves with
  | stays =>
      obtain rfl : c = c' := Option.some.inj (here.symm.trans at_)
      exact ⟨rfl, rfl⟩
  | early registry d was => simp [was] at late
  | opens registry h was => simp [was, DriveStage.early] at late
  | drives h out hub moves =>
      have at_ : (w.conns.set j out.1)[j]? = some c' := at_
      rw [List.getElem?_set_self inside] at at_
      rw [← Option.some.inj at_]
      exact ⟨moves.handle, moves.token_kept late⟩
  | delists registry was =>
      have at_ : (w.conns.set j (c.at_ (.ended (.ok c.summary))))[j]? = some c' := at_
      rw [List.getElem?_set_self inside] at at_
      rw [← Option.some.inj at_]
      exact ⟨rfl, rfl⟩

/-- What is sealed with a step, on the terminal as it was before. -/
theorem told_more (ready : Ready w) (here : w.conns[j]? = some c) (spoken : c.Spoken act more)
    (clean : more ≠ [] → CleanAt k w j c) (finishes : Finishes k w j c frames) (same : j = k)
    (some_ : c.token ≠ ⟨0⟩) {h : PtyHub} (hub : w.hub c.handle = some h) : Told c.token h (frames ++ more) := by
  have mem := List.mem_of_getElem? here
  have told := finishes.told same some_ h hub
  have kept : Told c.token h (frames ++ []) := by rwa [List.append_nil]
  cases spoken with
  | silent => exact kept
  | idle => exact kept
  | refused => exact kept
  | sealed f saying result =>
      refine told.sends fun code exit => ?_
      obtain ⟨status, was⟩ := Drive.exiting_of_saying (exit ▸ saying)
      have fine : c.Clean h := clean (List.cons_ne_nil f []) same h hub
      obtain ⟨running, unread⟩ := fine (by rw [was]; rfl)
      have saw := ready.keeping.keeps c mem some_ h hub
      have ended := ready.proper _ h hub (saw.known (saw.exiting status was))
      exact ⟨⟨ended, unread⟩,
        (finishes.outward.emits some_ h hub).all_out was (ready.trim.keeps c mem some_ h hub) running⟩

theorem own (ready : Ready w) (here : w.conns[j]? = some c) (spoken : c.Spoken act more)
    (clean : more ≠ [] → CleanAt k w j c) (finishes : Finishes k w j c frames) :
    ∃ c', (w.connStep j c act).conns = w.conns.set j c' ∧ Finishes k (w.connStep j c act) j c' (frames ++ more) := by
  have mem := List.mem_of_getElem? here
  have leased := ready.drained.leased
  obtain ⟨c', conns, outward⟩ := finishes.outward.own ready.drained ready.keeping here spoken
  refine ⟨c', conns, outward, fun same some_ h' hub' => ?_⟩
  by_cases zero : c.token = ⟨0⟩
  · -- no Exit is sealed without a grant
    intro pre code post split
    have idle : c.stage.holds = false := by
      by_contra held
      exact leased.holds c mem (by simpa using held) zero
    have none_ := (finishes.outward.unheard zero).2 code
    have none' := (spoken.unheard idle).2 code
    have mem' : .exit code ∈ frames ++ more := by simp [split]
    exact ((List.mem_append.mp mem').elim none_ none').elim
  · have late : c.stage.early = false := by
      by_contra early
      exact zero (leased.early c mem (by simpa using early))
    obtain ⟨h, hub, -⟩ := leased.known c mem zero
    obtain ⟨handle, token⟩ := connStep_kept here late conns
    rw [handle, ← World.step_conn here act] at hub'
    rw [token]
    exact (told_more ready here spoken clean finishes same zero hub).moves (hub_moves leased hub hub')

theorem beside (ready : Ready w) (here : w.conns[j]? = some c) {event : WorldEvent}
    (apart : ∀ act, event ≠ .conn j act) (finishes : Finishes k w j c frames) :
    Finishes k (World.step event w) j c frames where
  outward := finishes.outward.beside ready.drained.leased here apart
  told same some_ h' hub' := by
    obtain ⟨h, hub, -⟩ := ready.drained.leased.known c (List.mem_of_getElem? here) some_
    exact (finishes.told same some_ h hub).moves (hub_moves ready.drained.leased hub hub')

end Finishes

theorem finishes (k : Nat) : FrameInvariant Ready (CleanAt k) (Finishes k) where
  based := Ready.step
  starts w j conn := ⟨World.outward.starts w j conn, fun _ some_ => absurd rfl some_⟩
  own ready here spoken clean finishes := finishes.own ready here spoken clean
  beside ready here apart finishes := finishes.beside ready here apart

end World

namespace Site

instance decidableMeets (ok : World → Nat → Drive → Prop) [∀ w k c, Decidable (ok w k c)] (s : Site) :
    DecidablePred (Meets ok s)
  | .link k (.serverSends _ _) => inferInstanceAs (Decidable (∀ c ∈ s.world.conns[k]?, ok s.world k c))
  | .link _ (.confirm _ _) | .link _ (.server _) | .link _ (.serverReceives _ _) | .link _ .serverCloses
  | .link _ (.client _) | .link _ (.clientSends _ _) | .link _ (.clientReceives _ _) | .link _ (.clientReads _)
  | .connect _ _ _ | .pass _ | .emit _ _ | .hangUp _ | .exits _ _ => inferInstanceAs (Decidable True)

end Site

end Jbuu.Terminal
