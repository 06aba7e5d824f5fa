/-
# Terminal.Display — from a terminal's output to what the client shows

The other direction of `Terminal.Integrity`. A client shows what it received as Output, frame by
frame, up to the Exit or to the first error (`Shows`); what it received is a prefix of what the
server's session sealed (`Session.Channel`); and what that sealed comes from what its connection
read of the terminal (`Terminal.Output`). So what a user sees is a prefix of what was read under
the token of the connection, but for one piece that may come twice once the server has failed, and
the exit status a client returns is the child's (`terminal_output_integrity`).
-/
import Jbuu.Terminal.Output

namespace Jbuu.Terminal

set_option autoImplicit false

open Jbuu.Library.BigEndian (Bytes)
open Jbuu.Library
open Jbuu.Transport (TransportError)

/-! ## The client -/

/-- What the client is about to write to its output. -/
def ClientStage.shown : ClientStage → Bytes
  | .delivering data => data
  | _ => []

/-- A client returns this status. -/
def ClientStage.Returns : ClientStage → ExitStatus → Prop
  | .closing (.ok status), status' => status = status'
  | .ended (.ok status), status' => status = status'
  | _, _ => False

theorem ClientStage.not_returns_of_live {stage : ClientStage} (live : stage.live = true) (status : ExitStatus) :
    ¬stage.Returns status := by
  cases stage <;> first | exact id | nomatch live

/-- The status that a client returned. -/
def Client.returned (c : Client) : Option ExitStatus :=
  match c.stage with
  | .ended (.ok status) => some status
  | _ => none

theorem Client.returns_of_returned {c : Client} {status : ExitStatus} (returned : c.returned = some status) :
    c.stage.Returns status := by
  unfold Client.returned at returned
  split at returned
  · rename_i was
    rw [was]
    exact Option.some.inj returned
  · nomatch returned

/-- What a client shows, of the frames that its session opened. -/
structure Shows (c : Client) (frames : List TerminalFrame) : Prop where
  some_ : c.output <+: outputs frames
  all : c.stage.live = true → outputs frames = c.output ++ c.stage.shown
  /-- a status is that of a detach, or came in the last frame, with all before it shown -/
  status : ∀ status, c.stage.Returns status → (c.eofAt.isSome = true ∧ status = ⟨0⟩) ∨
    ∃ pre, frames = pre ++ [.exit status.code] ∧ c.output = outputs pre

namespace Shows

variable {c c' : Client} {frames : List TerminalFrame} {now : Nat} {active : Bool}

theorem start (opts : ClientOptions) : Shows (.start opts) [] where
  some_ := List.nil_prefix
  all _ := rfl
  status _ returns := returns.elim

/-- From one stage of the session to another, with nothing in hand. -/
theorem goes (shows : Shows c frames) (live : c.stage.live = true) (before : c.stage.shown = [])
    (after : c'.stage.live = true) (nothing : c'.stage.shown = []) (output : c'.output = c.output) :
    Shows c' frames where
  some_ := by
    rw [output]
    exact shows.some_
  all _ := by
    rw [nothing, output, ← before]
    exact shows.all live
  status status returns := absurd returns (ClientStage.not_returns_of_live after status)

/-- Out of the session, with an error. -/
theorem stops (shows : Shows c frames) (output : c'.output = c.output) (ended : c'.stage.live = false)
    (failed : ∀ status, ¬c'.stage.Returns status) : Shows c' frames where
  some_ := by
    rw [output]
    exact shows.some_
  all live := nomatch ended.symm.trans live
  status status returns := absurd returns (failed status)

theorem fails (shows : Shows c frames) (output : c'.output = c.output) (e : TerminalError) : Shows (c'.fails e) frames :=
  shows.stops output rfl fun _ => id

theorem opens {stage : ClientStage} (shows : Shows c frames) (live : c.stage.live = true) (before : c.stage.shown = [])
    (after : stage.live = true) (nothing : stage.shown = []) : Shows (c.opens active stage) frames := by
  unfold Client.opens
  split
  · exact shows.goes live before after nothing rfl
  · exact shows.fails rfl .closed

theorem goOn {chunks : List Bytes} (shows : Shows c frames) (live : c.stage.live = true) (before : c.stage.shown = [])
    (output : c'.output = c.output) : Shows (c'.goOn now chunks) frames := by
  cases chunks with
  | nil => exact shows.goes live before rfl rfl output
  | cons chunk rest => exact shows.goes live before rfl rfl output

/-- **A step that hears nothing shows what is in hand, or nothing.** -/
theorem step (shows : Shows c frames) (act : ClientAct) (quiet : ∀ result, act ≠ .heard result) :
    Shows (c.step now active act) frames := by
  have goes {c' : Client} {stage : ClientStage} (was : c.stage = stage) (live : stage.live = true)
      (before : stage.shown = []) (after : c'.stage.live = true) (nothing : c'.stage.shown = [])
      (output : c'.output = c.output) : Shows c' frames :=
    shows.goes (was ▸ live) (was ▸ before) after nothing output
  unfold Client.step
  split
  case h_1 was => exact goes was rfl rfl rfl rfl rfl
  case h_2 => exact shows.stops rfl rfl fun _ => id
  case h_3 was => exact goes was rfl rfl rfl rfl rfl
  case h_4 => exact shows.stops rfl rfl fun _ => id
  case h_5 => exact absurd rfl (quiet _)
  case h_6 => exact absurd rfl (quiet _)
  case h_7 => exact absurd rfl (quiet _)
  case h_8 => exact absurd rfl (quiet _)
  case h_9 => exact absurd rfl (quiet _)
  case h_10 was => exact goes was rfl rfl rfl rfl rfl
  case h_11 was =>
    split
    · rename_i detaches
      have eof : c.eofAt.isSome = true := by
        unfold Client.detaches at detaches
        split at detaches
        · rename_i same
          rw [same]
          rfl
        · nomatch detaches
      refine ⟨shows.some_, nofun, fun status returns => .inl ⟨eof, ?_⟩⟩
      exact (returns : ExitStatus.mk 0 = status).symm
    · split
      · exact goes was rfl rfl rfl rfl rfl
      · exact goes was rfl rfl rfl rfl rfl
  case h_12 was => exact shows.opens (by rw [was]; rfl) (by rw [was]; rfl) rfl rfl
  case h_13 => exact shows.fails rfl _
  case h_14 was => exact goes was rfl rfl rfl rfl rfl
  case h_15 => exact shows.fails rfl _
  case h_16 was =>
    split
    · exact goes was rfl rfl rfl rfl rfl
    · exact goes was rfl rfl rfl rfl rfl
    · split
      · exact shows.goOn (by rw [was]; rfl) (by rw [was]; rfl) rfl
      · rename_i block queue _ _
        exact @fails c { c with queue } _ shows rfl .closed
  case h_17 was => exact shows.goOn (by rw [was]; rfl) (by rw [was]; rfl) rfl
  case h_18 => exact shows.fails rfl _
  case h_19 was =>
    split
    · exact goes was rfl rfl rfl rfl rfl
    · split
      · exact shows.opens (by rw [was]; rfl) (by rw [was]; rfl) rfl rfl
      · exact goes was rfl rfl rfl rfl rfl
  case h_20 was => exact goes was rfl rfl rfl rfl rfl
  case h_21 => exact shows.fails rfl _
  case h_22 was => exact goes was rfl rfl rfl rfl rfl
  case h_23 => exact shows.fails rfl _
  case h_24 => exact absurd rfl (quiet _)
  case h_25 => exact absurd rfl (quiet _)
  case h_26 => exact absurd rfl (quiet _)
  case h_27 => exact absurd rfl (quiet _)
  case h_28 => exact absurd rfl (quiet _)
  case h_29 data was =>
    have all := shows.all (by rw [was]; rfl)
    rw [was] at all
    refine ⟨?_, fun _ => all.trans (List.append_nil _).symm, fun _ => False.elim⟩
    show c.output ++ data <+: outputs frames
    rw [all]
    exact List.prefix_rfl
  case h_30 => exact shows.fails rfl _
  case h_31 result was =>
    refine ⟨shows.some_, nofun, fun status returns => shows.status status ?_⟩
    rw [was]
    cases result with
    | ok status => exact returns
    | error e => exact returns
  case h_32 => exact shows

/-- The session is over, whatever it opened last. -/
theorem loses (shows : Shows c frames) (more : List TerminalFrame) (output : c'.output = c.output)
    (ended : c'.stage.live = false) (failed : ∀ status, ¬c'.stage.Returns status) : Shows c' (frames ++ more) where
  some_ := by
    rw [output, outputs_append]
    exact shows.some_.trans (List.prefix_append ..)
  all live := nomatch ended.symm.trans live
  status status returns := absurd returns (failed status)

/-- **A frame is heard**, or an error, or nothing. -/
theorem hears (shows : Shows c frames) (listens : c.stage.listens = true)
    (result : Except TerminalError (Option TerminalFrame)) {opened : List TerminalFrame}
    (took : match result with
      | .ok (some f) => opened = [f]
      | _ => opened = []) : Shows (c.step now active (.heard result)) (frames ++ opened) := by
  have fails (e : TerminalError) : Shows (c.fails e) (frames ++ opened) :=
    shows.loses opened rfl rfl fun _ => id
  cases stage : c.stage with
  | waiting deadline =>
      have all := shows.all (by rw [stage]; rfl)
      rw [stage] at all
      unfold Client.step
      rw [stage]
      rcases result with e | _ | f
      · exact shows.loses opened rfl rfl fun _ => id
      · dsimp only
        split
        · exact fails .timeout
        · rw [show opened = [] from took, List.append_nil]
          exact shows
      · obtain rfl : opened = [f] := took
        cases f with
        | granted handle token =>
            have same : outputs (frames ++ [.granted handle token]) = outputs frames := by
              rw [outputs_append]
              exact List.append_nil _
            refine ⟨?_, fun _ => ?_, fun _ => False.elim⟩
            · rw [same]
              exact shows.some_
            · rw [same]
              exact all
        | denied reason => exact fails (Client.deniedError reason)
        | _ => exact fails .protocol
  | receiving =>
      have all := shows.all (by rw [stage]; rfl)
      rw [stage] at all
      have all : outputs frames = c.output := all.trans (List.append_nil _)
      unfold Client.step
      rw [stage]
      rcases result with e | _ | f
      · exact fails e
      · rw [show opened = [] from took, List.append_nil]
        exact shows.goes (by rw [stage]; rfl) (by rw [stage]; rfl) rfl rfl rfl
      · obtain rfl : opened = [f] := took
        cases f with
        | output data =>
            have more : outputs (frames ++ [.output data]) = c.output ++ data := by
              rw [outputs_append, all]
              exact congrArg _ (List.append_nil data)
            refine ⟨?_, fun _ => more, fun _ => False.elim⟩
            rw [more]
            exact List.prefix_append ..
        | exit code =>
            refine ⟨?_, nofun, fun status returns => .inr ⟨frames, ?_, all.symm⟩⟩
            · rw [outputs_append]
              exact shows.some_.trans (List.prefix_append ..)
            · rw [← (returns : ExitStatus.mk code = status)]
        | _ => exact fails .protocol
  | _ => rw [stage] at listens; nomatch listens

/-- The thread reads more of the input. -/
theorem reads (shows : Shows c frames) (block : Option Bytes) : Shows (c.reads block) frames := by
  have same : (c.reads block).output = c.output ∧ (c.reads block).stage = c.stage ∧ (c.reads block).eofAt = c.eofAt := by
    unfold Client.reads
    split
    · split <;> exact ⟨rfl, rfl, rfl⟩
    · exact ⟨rfl, rfl, rfl⟩
  obtain ⟨output, stage, eof⟩ := same
  refine ⟨?_, ?_, ?_⟩
  · rw [output]
    exact shows.some_
  · rw [output, stage]
    exact shows.all
  · rw [output, stage, eof]
    exact shows.status

end Shows

end Jbuu.Terminal

namespace Jbuu.Exchange

open Jbuu.Library.BigEndian (Bytes)
open Jbuu.Transport (TransportError)
open Jbuu.Terminal (TerminalFrame)

variable {segment : Segment} {ctx : Role → SessionContext} {x : Exchange} {c : Channel}

/-- **What the client hears as a frame is what its session opened.** -/
theorem hears_follows (steady : Channel.Steady segment ctx c) (mirrors : Mirrors x c)
    (received : Except TransportError Bytes) (fates : List Fate) :
    ∃ opened, Follows segment ctx (x.clientHears received fates).2 c .client [] opened ∧
      match (x.clientHears received fates).1 with
      | some (.ok (some f)) => opened = [f]
      | _ => opened = [] := by
  unfold clientHears
  dsimp only
  rcases recvRaw_cases received (x.session .client) with ⟨out, quiet, same⟩ |
    ⟨wire, epoch, seq, data, rfl, decoded, same⟩
  · rw [same]
    refine ⟨[], follows_pure steady mirrors .client ?_ fates, ?_⟩
    · rcases out with e | _ | f <;> first | rfl | exact absurd rfl (quiet _)
    · rcases out with e | _ | f <;> first | rfl | exact absurd rfl (quiet _)
  · rw [same]
    obtain ⟨opened, follows, result⟩ := follows_open steady mirrors .client decoded fates heardOf
      (fun outcome => match outcome with
        | .ok (some _) => true
        | _ => false) fun _ => rfl
    refine ⟨opened, follows, ?_⟩
    revert result
    generalize returned _ = out
    cases out with
    | none => exact id
    | some out =>
        rintro ⟨plain, rfl, rfl⟩
        cases plain with
        | error e => rfl
        | ok plain =>
            unfold heardOf
            dsimp only
            cases TerminalFrame.decode plain <;> rfl

end Jbuu.Exchange

namespace Jbuu.Terminal

open Jbuu.Library.BigEndian (Bytes)
open Jbuu.Library
open Jbuu.Transport (TransportError)

/-! ## From end to end -/

/-- The records from `drive` to its client, and what each of the two has to do with them. -/
structure Carries (p : List TerminalFrame → Prop) (link : Link) (chan : Channel) : Prop where
  steady : Channel.Steady link.segment link.ctx chan
  mirrors : Exchange.Mirrors link.line chan
  shows : Shows link.client (framesOf (chan.endpoint .client).accepted)
  sealed : p (framesOf (chan.endpoint .server).sent)

namespace Carries

variable {p p' : List TerminalFrame → Prop} {link : Link} {chan : Channel}

theorem start (segment : Segment) (ctx : Role → SessionContext) (opts : ClientOptions) (none_ : p []) :
    Carries p (.start segment ctx opts) (.initial segment ctx) where
  steady := Channel.steady_initial
  mirrors := Exchange.mirrors_initial segment ctx
  shows := .start opts
  sealed := none_

/-- A call of the server. -/
theorem server (carries : Carries p link chan) {line : Exchange} {frames opened : List TerminalFrame}
    (follows : Exchange.Follows link.segment link.ctx line chan .server frames opened)
    (sealed : p' (framesOf (chan.endpoint .server).sent ++ frames)) :
    ∃ chan', Carries p' { link with line } chan' := by
  obtain ⟨chan', sent, accepted, steady, mirrors, adds, rfl, rfl⟩ := follows
  refine ⟨chan', steady, mirrors, ?_, ?_⟩
  · rw [adds.other .client nofun]
    exact carries.shows
  · rw [adds.sent, framesOf_append]
    exact sealed

/-- A call of the client. -/
theorem client (carries : Carries p link chan) {line : Exchange} {client : Client} {frames opened : List TerminalFrame}
    (follows : Exchange.Follows link.segment link.ctx line chan .client frames opened)
    (shows : Shows client (framesOf (chan.endpoint .client).accepted ++ opened)) :
    ∃ chan', Carries p { link with line, client } chan' := by
  obtain ⟨chan', sent, accepted, steady, mirrors, adds, rfl, rfl⟩ := follows
  refine ⟨chan', steady, mirrors, ?_, ?_⟩
  · rw [adds.accepted, framesOf_append]
    exact shows
  · rw [adds.other .server nofun]
    exact carries.sealed

/-- What the client received is a prefix of what `drive` sealed. -/
theorem relayed (carries : Carries p link chan) :
    framesOf (chan.endpoint .client).accepted <+: framesOf (chan.endpoint .server).sent :=
  framesOf_mono (carries.steady.relayed .client)

end Carries

namespace Site

/-- At every connection, what goes out and what is shown of it. -/
structure Displays (base : World → Prop) (p : World → Nat → Drive → List TerminalFrame → Prop) (s : Site) : Prop where
  based : base s.world
  paired : s.links.length = s.world.conns.length
  carries : ∀ (k : Nat) (c : Drive) (link : Link), s.world.conns[k]? = some c → s.links[k]? = some link →
    ∃ chan, Carries (p s.world k c) link chan

/-- Where a connection seals a frame, `ok` holds. -/
def Meets (ok : World → Nat → Drive → Prop) (s : Site) : SiteEvent → Prop
  | .link k (.serverSends _ _) => ∀ c ∈ s.world.conns[k]?, ok s.world k c
  | _ => True

theorem meets_true (event : SiteEvent) (s : Site) : Meets (fun _ _ _ => True) s event := by
  unfold Meets
  split
  · exact fun _ _ => trivial
  · exact trivial

variable {base : World → Prop} {ok : World → Nat → Drive → Prop} {p : World → Nat → Drive → List TerminalFrame → Prop}
  {s : Site} {k : Nat} {c : Drive} {link : Link}

/-- Only the link is replaced. -/
theorem Displays.setLink (displays : Displays base p s) (here : s.world.conns[k]? = some c) (there : s.links[k]? = some link)
    {link' : Link} (carries : ∃ chan, Carries (p s.world k c) link' chan) : Displays base p (s.setLink k link') where
  based := displays.based
  paired := by
    show (s.links.set k link').length = _
    rw [List.length_set]
    exact displays.paired
  carries j d link'' conn at_ := by
    have at_ : (s.links.set k link')[j]? = some link'' := at_
    by_cases own : j = k
    · subst own
      rw [List.getElem?_set_self (List.getElem?_eq_some_iff.mp there).1] at at_
      obtain rfl := Option.some.inj at_
      obtain rfl : c = d := Option.some.inj (here.symm.trans conn)
      exact carries
    · rw [List.getElem?_set_ne (Ne.symm own)] at at_
      exact displays.carries j d link'' conn at_

/-- `drive` takes a step, with what it seals. -/
theorem Displays.serve (inv : World.FrameInvariant base ok p) (displays : Displays base p s)
    (here : s.world.conns[k]? = some c) (there : s.links[k]? = some link) {chan : Channel}
    (carries : Carries (p s.world k c) link chan) {line : Exchange} {frames opened : List TerminalFrame}
    (follows : Exchange.Follows link.segment link.ctx line chan .server frames opened) {act : DriveAct}
    (spoken : c.Spoken act frames) (fine : frames ≠ [] → ok s.world k c) :
    Displays base p ((s.setLink k { link with line }).serve k act) := by
  have stepped := World.step_conn here act
  obtain ⟨c', conns, sealed⟩ := inv.own displays.based here spoken fine carries.sealed
  rw [← stepped] at conns sealed
  refine ⟨inv.based (.conn k act) _ displays.based, ?_, ?_⟩
  · show (s.links.set k _).length = (World.step (.conn k act) s.world).conns.length
    rw [conns, List.length_set, List.length_set]
    exact displays.paired
  · intro j d link'' conn at_
    have conn : (World.step (.conn k act) s.world).conns[j]? = some d := conn
    have at_ : (s.links.set k { link with line })[j]? = some link'' := at_
    rw [conns] at conn
    by_cases own : j = k
    · subst own
      rw [List.getElem?_set_self (List.getElem?_eq_some_iff.mp here).1] at conn
      rw [List.getElem?_set_self (List.getElem?_eq_some_iff.mp there).1] at at_
      obtain rfl := Option.some.inj conn
      obtain rfl := Option.some.inj at_
      exact carries.server follows sealed
    · rw [List.getElem?_set_ne (Ne.symm own)] at conn at_
      obtain ⟨chan', other⟩ := displays.carries j d link'' conn at_
      refine ⟨chan', other.steady, other.mirrors, other.shows, ?_⟩
      show p (World.step (.conn k act) s.world) j d _
      refine inv.beside displays.based conn (fun act' same => own ?_) other.sealed
      exact (WorldEvent.conn.inj same).1.symm

theorem Displays.linkStep (inv : World.FrameInvariant base ok p) (displays : Displays base p s)
    (here : s.world.conns[k]? = some c) (there : s.links[k]? = some link) (event : LinkEvent)
    (meets : Meets ok s (.link k event)) : Displays base p (s.linkStep k c link event) := by
  obtain ⟨chan, carries⟩ := displays.carries k c link here there
  have steady := carries.steady
  have mirrors := carries.mirrors
  have nothing (role : Role) : Exchange.Follows link.segment link.ctx link.line chan role [] [] :=
    ⟨chan, [], [], steady, mirrors, .nothing role, rfl, rfl⟩
  -- the server's session was called and `drive` goes nowhere
  have calls {line : Exchange} {opened : List TerminalFrame}
      (follows : Exchange.Follows link.segment link.ctx line chan .server [] opened) :
      Displays base p (s.setLink k { link with line }) := by
    refine displays.setLink here there (carries.server follows ?_)
    rw [List.append_nil]
    exact carries.sealed
  have serves {act : DriveAct} (spoken : c.Spoken act []) : Displays base p (s.serve k act) := by
    have same : s.setLink k link = s := by
      obtain ⟨inside, rfl⟩ := List.getElem?_eq_some_iff.mp there
      exact congrArg (Site.mk s.world) (List.set_getElem_self inside)
    have served := displays.serve inv here there carries (nothing .server) spoken (absurd rfl)
    rwa [show ({ link with line := link.line } : Link) = link from rfl, same] at served
  -- the client takes a step that hears nothing
  have shows {now : Nat} {active : Bool} {act : ClientAct} (quiet : ∀ result, act ≠ .heard result) :
      Shows (link.client.step now active act) (framesOf (chan.endpoint .client).accepted ++ []) := by
    rw [List.append_nil]
    exact carries.shows.step act quiet
  cases event with
  | confirm role event =>
      unfold Site.linkStep
      dsimp only
      split
      case isFalse => exact displays
      have follows : Exchange.Follows link.segment link.ctx (Exchange.step (confirmation role event) link.line)
          chan role [] [] := by
        cases event with
        | sends plaintext fates => exact Exchange.follows_sealConfirm steady mirrors role plaintext fates
        | opens seq sealed fates => exact Exchange.follows_openConfirm steady mirrors role seq sealed fates
      cases role with
      | server => exact calls follows
      | client =>
          refine displays.setLink here there (carries.client follows ?_)
          rw [List.append_nil]
          exact carries.shows
  | server act =>
      unfold Site.linkStep
      dsimp only
      split
      · exact displays
      · split
        · exact displays
        · rename_i silent
          exact serves (.silent _ (by simpa using silent))
      · rename_i other
        exact serves (.idle _ fun result same => other result same)
  | serverSends fates sent =>
      unfold Site.linkStep
      dsimp only
      split
      · exact displays
      · rename_i f saying
        obtain ⟨frames, follows, sealed⟩ := Exchange.follows_tells steady mirrors .server f fates
        split
        · rename_i line called
          rw [called] at follows sealed
          obtain rfl : frames = [] := sealed
          exact calls follows
        · rename_i framed line called
          rw [called] at follows sealed
          refine displays.serve inv here there carries follows ?_ fun _ => meets c here
          cases framed with
          | ok wire =>
              obtain rfl : frames = [f] := sealed
              exact .sealed f saying _
          | error e =>
              rcases (sealed : frames = [] ∨ frames = [f]) with rfl | rfl
              · exact .refused f saying e
              · exact .sealed f saying _
  | serverReceives received fates =>
      unfold Site.linkStep
      dsimp only
      split
      · obtain ⟨opened, follows, -⟩ := Exchange.follows_serverHears steady mirrors received fates
        split
        · rename_i line called
          rw [called] at follows
          exact calls follows
        · rename_i heard line called
          rw [called] at follows
          exact displays.serve inv here there carries follows (.idle _ nofun) (absurd rfl)
      · exact displays
  | serverCloses =>
      unfold Site.linkStep
      dsimp only
      split
      · exact calls (Exchange.follows_close steady mirrors .server)
      · exact displays
  | client act =>
      unfold Site.linkStep
      dsimp only
      split
      · exact displays
      · exact displays
      · exact displays.setLink here there (carries.client (Exchange.follows_close steady mirrors .client) (shows nofun))
      · rename_i other _
        exact displays.setLink here there (carries.client (nothing .client) (shows fun result same => other _ same))
  | clientSends fates sent =>
      unfold Site.linkStep
      dsimp only
      split
      · exact displays
      · rename_i f _
        obtain ⟨frames, follows, -⟩ := Exchange.follows_tells steady mirrors .client f fates
        split
        · rename_i line called
          rw [called] at follows
          refine displays.setLink here there (carries.client follows ?_)
          rw [List.append_nil]
          exact carries.shows
        · rename_i framed line called
          rw [called] at follows
          exact displays.setLink here there (carries.client follows (shows nofun))
  | clientReceives received fates =>
      unfold Site.linkStep
      dsimp only
      split
      · rename_i listening
        obtain ⟨opened, follows, took⟩ := Exchange.hears_follows steady mirrors received fates
        split
        · rename_i line called
          rw [called] at follows took
          obtain rfl : opened = [] := took
          refine displays.setLink here there (carries.client follows ?_)
          rw [List.append_nil]
          exact carries.shows
        · rename_i result line called
          rw [called] at follows took
          refine displays.setLink here there (carries.client follows (carries.shows.hears listening result ?_))
          rcases result with e | _ | f <;> exact took
      · exact displays
  | clientReads block =>
      unfold Site.linkStep
      refine displays.setLink here there (carries.client (nothing .client) ?_)
      rw [List.append_nil]
      exact carries.shows.reads block

/-- Something happens to the server that is no connection's. -/
theorem Displays.around (inv : World.FrameInvariant base ok p) (displays : Displays base p s) (event : WorldEvent)
    (apart : ∀ k act, event ≠ .conn k act) (conns : (World.step event s.world).conns = s.world.conns) :
    Displays base p { s with world := World.step event s.world } where
  based := inv.based event _ displays.based
  paired := displays.paired.trans (congrArg List.length conns).symm
  carries k c link here there := by
    have here : s.world.conns[k]? = some c := conns ▸ here
    obtain ⟨chan, carries⟩ := displays.carries k c link here there
    exact ⟨chan, carries.steady, carries.mirrors, carries.shows,
      inv.beside displays.based here (apart k) carries.sealed⟩

theorem Displays.step (inv : World.FrameInvariant base ok p) (event : SiteEvent) (s : Site) (meets : Meets ok s event)
    (displays : Displays base p s) : Displays base p (Site.step event s) := by
  cases event with
  | connect segment ctx opts =>
      refine ⟨inv.based .connect _ displays.based, ?_, ?_⟩
      · show (s.links ++ [_]).length = (s.world.conns ++ [_]).length
        rw [List.length_append, List.length_append, displays.paired]
        rfl
      · intro k c link here there
        replace here : (s.world.conns ++ [Drive.start (s.world.registry.connCounter + 1)])[k]? = some c := here
        replace there : (s.links ++ [Link.start segment ctx opts])[k]? = some link := there
        by_cases old : k < s.world.conns.length
        · rw [List.getElem?_append_left old] at here
          rw [List.getElem?_append_left (displays.paired ▸ old)] at there
          obtain ⟨chan, carries⟩ := displays.carries k c link here there
          have apart : ∀ act, WorldEvent.connect ≠ .conn k act := by simp
          exact ⟨chan, carries.steady, carries.mirrors, carries.shows,
            inv.beside displays.based here apart carries.sealed⟩
        · have new : s.world.conns.length ≤ k := Nat.le_of_not_lt old
          rw [List.getElem?_append_right new, List.getElem?_singleton] at here
          rw [List.getElem?_append_right (displays.paired ▸ new), List.getElem?_singleton] at there
          obtain ⟨-, same⟩ := Option.ite_none_right_eq_some.mp here
          obtain ⟨-, same'⟩ := Option.ite_none_right_eq_some.mp there
          obtain rfl := Option.some.inj same
          obtain rfl := Option.some.inj same'
          exact ⟨_, Carries.start segment ctx opts (inv.starts _ k _)⟩
  | pass time => exact displays.around inv (.pass time) (by simp) rfl
  | emit handle bytes => exact displays.around inv (.emit handle bytes) (by simp) (conns_onPty ..)
  | hangUp handle => exact displays.around inv (.hangUp handle) (by simp) (conns_onPty ..)
  | exits handle status => exact displays.around inv (.exits handle status) (by simp) (conns_onPty ..)
  | link k event =>
      unfold Site.step
      dsimp only
      split
      · rename_i c link here there
        exact displays.linkStep inv here there event meets
      · exact displays

theorem Displays.run (inv : World.FrameInvariant base ok p) (opts : ServeOptions) (leaseTimeout : Nat)
    (start : base (.start opts leaseTimeout)) (events : List SiteEvent)
    (meets : Along Site.step (Meets ok) events (.start opts leaseTimeout)) :
    Displays base p (Library.run Site.step events (.start opts leaseTimeout)) := by
  refine run_invariant_along Site.step (fun event s => step inv event s) events meets ⟨start, rfl, ?_⟩
  exact fun _ _ _ here => nomatch here

end Site

namespace Site

/-- What went out to a client, of what its connection read. -/
theorem shown_of_read {read out : Bytes} {c : Drive} (prints : Prints c read out) :
    ∃ once again rest, out <+: once ++ (again ++ rest) ∧ again <+: rest ∧ once ++ rest <+: read ∧
      (again ≠ [] → c.ends ≠ none) := by
  cases prints with
  | going once again going =>
      refine ⟨once, again, c.pending, ?_, going.twice, ?_, fun some_ => (going.last some_).1⟩
      · rw [← going.all]
        exact List.prefix_append ..
      · rw [going.read]
  | gone gone =>
      obtain ⟨once, again, rest, out, twice, read⟩ := gone.some_
      exact ⟨once, again, rest, out, twice, read, fun _ => gone.ends⟩

/-- **PTY output integrity, end to end.** Whatever the transports do, in whatever order the
connections, their clients and the children take their steps, and wherever a call fails: each
byte that a terminal gave out is read once, in order, under a token that it granted and one
connection has. What the client of that connection shows is a prefix of what was read under the
token, except that one piece may come twice in a row, only after the server has set its end. A
client that was not granted a token shows nothing, and one that returns a status of its own accord
returns how the child ended. -/
theorem terminal_output_integrity (opts : ServeOptions) (leaseTimeout : Nat) (events : List SiteEvent) :
    let s := run step events (start opts leaseTimeout)
    (∀ handle h, s.world.hub handle = some h →
      h.pty.drains.flatMap (·.bytes) ++ h.pty.output = h.pty.emitted ∧ ∀ d ∈ h.pty.drains, d.token ∈ h.granted) ∧
    ∀ (k : Nat) (c : Drive) (link : Link), s.world.conns[k]? = some c → s.links[k]? = some link →
      (c.token = ⟨0⟩ → link.client.output = []) ∧
      (c.token ≠ ⟨0⟩ →
        (∀ (j : Nat) (d : Drive), s.world.conns[j]? = some d → d.handle = c.handle → d.token = c.token → j = k) ∧
        ∃ h, s.world.hub c.handle = some h ∧
          (∃ once again rest, link.client.output <+: once ++ (again ++ rest) ∧ again <+: rest ∧
            once ++ rest <+: h.pty.readBy c.token ∧ (again ≠ [] → c.ends ≠ none)) ∧
          ∀ status, link.client.returned = some status → link.client.eofAt = none →
            ∃ child, h.pty.child = some child ∧ child.code = status.code) := by
  intro s
  have displays : Displays _ _ s := Displays.run World.outward opts leaseTimeout
    ⟨.start opts leaseTimeout, World.ConnInvariant.start opts leaseTimeout⟩ events (along_of_forall step fun event _ s => meets_true event s)
  have drained := displays.based.1
  obtain ⟨events', reached⟩ := world_run opts leaseTimeout events
  refine ⟨fun handle h hub => ⟨?_, drained.granted handle h hub⟩, fun k c link here there => ?_⟩
  · exact World.accounted.run opts leaseTimeout events' handle h (reached ▸ hub)
  obtain ⟨chan, carries⟩ := displays.carries k c link here there
  obtain ⟨rest, relayed⟩ := carries.relayed
  -- what is shown is a prefix of what was sealed
  have shown : link.client.output <+: outputs (framesOf (chan.endpoint .server).sent) := by
    rw [← relayed, outputs_append]
    exact carries.shows.some_.trans (List.prefix_append ..)
  refine ⟨fun zero => ?_, fun some_ => ⟨?_, ?_⟩⟩
  · rw [(carries.sealed.unheard zero).1] at shown
    exact List.prefix_nil.mp shown
  · exact fun j d at_ handle token =>
      drained.leased.distinct j k d c at_ here (token ▸ some_) handle token
  · obtain ⟨h, hub, -⟩ := drained.leased.known c (List.mem_of_getElem? here) some_
    have emits := carries.sealed.emits some_ h hub
    obtain ⟨once, again, rest', out, twice, read, ends⟩ := shown_of_read emits.prints
    refine ⟨h, hub, ⟨once, again, rest', shown.trans out, twice, read, ends⟩, fun status returned typing => ?_⟩
    rcases carries.shows.status status (Client.returns_of_returned returned) with ⟨eof, -⟩ | ⟨pre, frames, -⟩
    · rw [typing] at eof
      nomatch eof
    · have sealed : .exit status.code ∈ framesOf (chan.endpoint .server).sent := by
        rw [← relayed, frames]
        exact List.mem_append_left _ (List.mem_append_right _ List.mem_cons_self)
      have known := emits.told status.code sealed
      exact World.exit_is_childs.run opts leaseTimeout events' c.handle h (reached ▸ hub) status.code known

/-- What a call of the cipher gets, and a record of five bytes. -/
def fates : List Fate := [⟨some ([], .replicate 16 9), true, none, .error .io⟩]

def wire (seq : UInt64) : Except TransportError Bytes :=
  (encode (.data ⟨0⟩ ⟨seq⟩ (.replicate 5 0 ++ .replicate 16 9))).mapError fun _ => .timeout

/-- What was typed is echoed and shown; then the child ends, and the client with it. -/
def echoed : List SiteEvent :=
  let listen : List LinkEvent := [.client (.probe none), .client (.set (.ok ()))]
  let echo : List LinkEvent := [.server (.read (some 9)), .server (.read (some 9)), .serverSends fates (.ok ())]
  let display : List LinkEvent := [.clientReceives (wire 2) fates, .client (.wrote true), .client .go, .client .go]
  let leave : List LinkEvent := [.server (.read (some 9)), .server (.waited true), .server (.waited true),
    .serverSends fates (.ok ())]
  let away : List LinkEvent := [.clientReceives (wire 3) fates, .client .go]
  typed ++ .emit 1 [104, 105] :: (echo ++ listen ++ display).map (.link 0) ++
    .exits 1 (.exited 3) :: (leave ++ listen ++ away).map (.link 0)

theorem terminal_output_integrity_echoed :
    let s := run step echoed (start ⟨30000, 250⟩ 5000)
    ∃ (c : Drive) (link : Link) (h : PtyHub), s.world.conns[0]? = some c ∧ s.links[0]? = some link ∧
      s.world.hub c.handle = some h ∧ h.pty.drains.flatMap (·.bytes) ++ h.pty.output = h.pty.emitted ∧
      link.client.output = [104, 105] ∧
      (∃ once again rest, link.client.output <+: once ++ (again ++ rest) ∧ again <+: rest ∧
        once ++ rest <+: h.pty.readBy c.token ∧ (again ≠ [] → c.ends ≠ none)) ∧
      ∃ child, h.pty.child = some child ∧ child.code = 3 := by
  have conns : (run step echoed (start ⟨30000, 250⟩ 5000)).world.conns[0]?.map (fun c => c.token) = some ⟨1⟩ := by
    decide +kernel
  have links : (run step echoed (start ⟨30000, 250⟩ 5000)).links[0]?.map
      (fun link => (link.client.output, link.client.returned, link.client.eofAt)) = some ([104, 105], some ⟨3⟩, none) := by
    decide +kernel
  have all := terminal_output_integrity ⟨30000, 250⟩ 5000 echoed
  revert conns links all
  generalize run step echoed (start ⟨30000, 250⟩ 5000) = s
  intro conns links all
  obtain ⟨c, here, token⟩ := Option.map_eq_some_iff.mp conns
  obtain ⟨link, there, client⟩ := Option.map_eq_some_iff.mp links
  obtain ⟨output, client⟩ := Prod.mk.inj client
  obtain ⟨returned, typing⟩ := Prod.mk.inj client
  have granted : c.token ≠ ⟨0⟩ := by
    rw [token]
    rintro ⟨⟩
  obtain ⟨reads, connections⟩ := all
  obtain ⟨-, h, hub, shown, exits⟩ := (connections 0 c link here there).2 granted
  exact ⟨c, link, h, here, there, hub, (reads c.handle h hub).1, output, shown, exits ⟨3⟩ returned typing⟩

/-- The first Output is delivered though its send fails, between two slices: it is sent again, and
shown twice. -/
example :
    let echo : List LinkEvent := [.server (.read (some 9)), .server (.read (some 9)),
      .serverSends fates (.error .timeout), .server (.read (some 9)), .serverSends fates (.ok ())]
    let listen : List LinkEvent := [.client (.probe none), .client (.set (.ok ()))]
    let display (seq : UInt64) : List LinkEvent :=
      [.clientReceives (wire seq) fates, .client (.wrote true), .client .go, .client .go]
    let events := typed ++ .emit 1 [104, 105] :: (echo ++ (listen ++ display 2) ++ (listen ++ display 3)).map (.link 0)
    (run step events (start ⟨30000, 250⟩ 5000)).links.map (fun link => link.client.output) =
      [[104, 105, 104, 105]] := by
  decide +kernel

end Site

end Jbuu.Terminal
