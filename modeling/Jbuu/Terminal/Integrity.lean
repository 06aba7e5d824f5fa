/-
# Terminal.Integrity — from a client's input to the terminal

A terminal's server with all its connections, and for every connection the two sessions that
its handshake left and the client at the other end. What a session's `open` is handed is
whatever the transport says: the peer's frames as they are, cut, delayed, replayed or altered,
or anything else. A connection has a segment of its own, so the cipher knows under its keys
what its own two ends sealed.

The two ends meet in the records only: what the server's session opens is a prefix of what
the client's sealed (`Session.Channel`). So the input a connection receives is a prefix of
what its client read (`Relays`), and what it writes is a prefix of that
(`terminal_input_integrity`).
-/
import Jbuu.Terminal.Client
import Jbuu.Terminal.Records

namespace Jbuu.Terminal

set_option autoImplicit false

open Jbuu.Library.BigEndian (Bytes)
open Jbuu.Library
open Jbuu.Transport (TransportError)

/-! ## What `drive` received -/

namespace DriveStage

/-- No frame was received yet. -/
def deaf : DriveStage → Bool
  | .starting => true
  | .first => true
  | _ => false

/-- The first frame was received, and more may come. -/
def heard : DriveStage → Bool
  | .starting => false
  | .first => false
  | .retiring => false
  | .delisting => false
  | .ended _ => false
  | .panicked => false
  | _ => true

def listens : DriveStage → Bool
  | .first => true
  | .receiving => true
  | _ => false

theorem not_deaf_of_holds {stage : DriveStage} (holds : stage.holds = true) : stage.deaf = false := by
  cases stage <;> first | rfl | nomatch holds

end DriveStage

/-- A step that receives no frame. -/
structure Drive.Keeps (c' c : Drive) : Prop where
  frames : c'.frames = c.frames
  deaf : c'.stage.deaf = true → c.stage.deaf = true
  heard : c'.stage.heard = true → c.stage.heard = true

namespace Drive

variable {c c' : Drive}

theorem Keeps.within (was : c.stage.heard = true) (frames : c'.frames = c.frames) (holds : c'.stage.holds = true) :
    c'.Keeps c :=
  ⟨frames, fun deaf => (nomatch deaf.symm.trans (DriveStage.not_deaf_of_holds holds)), fun _ => was⟩

theorem Moves.keeps {opts : ServeOptions} {now : Nat} {act : DriveAct} {h : PtyHub} {out : Drive × PtyHub}
    (moves : Moves opts now act c h out) (quiet : ∀ f, act ≠ .recv (.frame f)) : out.1.Keeps c := by
  cases moves with
  | stays => exact ⟨rfl, id, id⟩
  | panics was => exact ⟨rfl, nofun, nofun⟩
  | busy denied was => exact ⟨rfl, nofun, fun _ => by rw [was]; rfl⟩
  | granted grant was => exact .within (by rw [was]; rfl) rfl rfl
  | announces was => exact .within (by rw [was]; rfl) rfl rfl
  | fails e was =>
      refine .within ?_ rfl rfl
      rcases was with was | ⟨status, was⟩ <;> rw [was] <;> rfl
  | aligns was => exact .within (by rw [was]; rfl) rfl rfl
  | receives f was came => exact absurd came (quiet f)
  | idles was => exact .within (by rw [was]; rfl) rfl holds_drainTurn
  | hangsUp ends was => exact .within (by rw [was]; rfl) rfl rfl
  | beats f was =>
      obtain ⟨stage, ends, window, holds, same⟩ := c.handles_eq (h.heartbeat now c.token).1.toBool f
      rw [same]
      exact .within (by rw [was]; rfl) rfl holds
  | writes slice rest rounds was => exact .within (by rw [was]; rfl) rfl (holds_drainBetween rest)
  | rejected slice rest rounds ends was => exact .within (by rw [was]; rfl) rfl holds_drainTurn
  | resizes set was => exact .within (by rw [was]; rfl) rfl holds_drainTurn
  | outdated was => exact .within (by rw [was]; rfl) rfl rfl
  | readFails next was => exact .within (by rw [was]; rfl) rfl (holds_drainFailed next)
  | reads next n bytes was =>
      dsimp only
      split
      · exact .within (by rw [was]; rfl) rfl (holds_flush next)
      · exact ⟨rfl, id, id⟩
  | readsNothing next n eof was => exact .within (by rw [was]; rfl) rfl (holds_flush next)
  | sendsLast chunk next was => exact .within (by rw [was]; rfl) rfl (holds_drained next)
  | sendsMore chunk other rest next was => exact .within (by rw [was]; rfl) rfl rfl
  | sendFails chunk rest next e was => exact .within (by rw [was]; rfl) rfl (holds_drainFailed next)
  | pollsRunning second ok was => exact .within (by rw [was]; rfl) rfl holds_grace
  | pollsFirst ok was => exact .within (by rw [was]; rfl) rfl rfl
  | pollsExit ok status was => exact .within (by rw [was]; rfl) rfl rfl
  | exits status was => exact .within (by rw [was]; rfl) rfl rfl
  | graceOver ends was => exact .within (by rw [was]; rfl) rfl rfl
  | graceGoes was => exact .within (by rw [was]; rfl) rfl holds_check
  | checks was => exact .within (by rw [was]; rfl) rfl holds_again
  | lapses was => exact .within (by rw [was]; rfl) rfl rfl
  | judged ends was => exact .within (by rw [was]; rfl) rfl rfl
  | leaves was => exact ⟨rfl, nofun, nofun⟩
  | retires was =>
      dsimp only
      split <;> exact ⟨rfl, nofun, nofun⟩
  | returns e was => exact ⟨rfl, nofun, nofun⟩

end Drive

namespace World

variable {w : World} {k : Nat} {c : Drive} {act : DriveAct}

theorem open_keeps (was : c.stage = .opening) (spawned : Bool) :
    ∃ c', (w.open_ k c spawned).conns = w.conns.set k c' ∧ c'.Keeps c := by
  unfold open_
  split
  · exact ⟨_, rfl, rfl, nofun, nofun⟩
  · dsimp only
    split
    · split
      · exact ⟨_, rfl, rfl, nofun, nofun⟩
      · exact ⟨_, rfl, rfl, nofun, fun _ => by rw [was]; rfl⟩
    · exact ⟨_, rfl, rfl, nofun, nofun⟩

/-- **A step without a frame.** -/
theorem connStep_keeps (here : w.conns[k]? = some c) (quiet : ∀ f, act ≠ .recv (.frame f)) :
    ∃ c', (w.connStep k c act).conns = w.conns.set k c' ∧ c'.Keeps c := by
  have stays : w.conns = w.conns.set k c := by
    obtain ⟨inside, rfl⟩ := List.getElem?_eq_some_iff.mp here
    exact (List.set_getElem_self inside).symm
  unfold connStep
  split
  case h_1 was => exact ⟨_, rfl, rfl, fun _ => by rw [was]; rfl, nofun⟩
  case h_2 was => exact ⟨_, rfl, rfl, nofun, nofun⟩
  case h_3 => exact absurd rfl (quiet _)
  case h_4 => exact absurd rfl (quiet _)
  case h_5 => exact absurd rfl (quiet _)
  case h_6 => exact ⟨_, rfl, rfl, nofun, nofun⟩
  case h_7 =>
    split
    · exact ⟨_, rfl, rfl, nofun, nofun⟩
    · exact ⟨c, stays, rfl, id, id⟩
  case h_8 was => exact open_keeps was _
  case h_9 was =>
    refine ⟨_, rfl, rfl, ?_, fun _ => by rw [was]; rfl⟩
    show (if _ then _ else _ : DriveStage).deaf = true → _
    split <;> nofun
  case h_10 => exact ⟨_, rfl, rfl, nofun, nofun⟩
  case h_11 => exact ⟨_, rfl, rfl, nofun, nofun⟩
  case h_12 => exact ⟨_, rfl, rfl, nofun, nofun⟩
  case h_13 =>
    split
    · exact ⟨c, stays, rfl, id, id⟩
    · rename_i h _
      exact ⟨_, rfl, (c.onHub_moves w.opts w.clock _ h).keeps quiet⟩

/-- The first frame, whatever it is. -/
theorem connStep_first (was : c.stage = .first) (f : TerminalFrame) :
    ∃ c', (w.connStep k c (.recv (.frame f))).conns = w.conns.set k c' ∧ c'.frames = c.frames ∧
      c'.stage.deaf = false := by
  unfold connStep
  rw [was]
  cases f <;> exact ⟨_, rfl, rfl, rfl⟩

/-- A frame in the loop. -/
theorem connStep_receiving (was : c.stage = .receiving) {h : PtyHub} (hub : w.hub c.handle = some h)
    (f : TerminalFrame) :
    (w.connStep k c (.recv (.frame f))).conns =
      w.conns.set k ({ c with frames := c.frames ++ [f] }.at_ (.beating f)) := by
  unfold connStep
  rw [was]
  dsimp only
  rw [hub]
  have onHub : (c.onHub w.opts w.clock (.recv (.frame f)) h).1 =
      { c with frames := c.frames ++ [f] }.at_ (.beating f) := by
    unfold Drive.onHub
    rw [was]
  exact congrArg (w.conns.set k) onHub

end World

/-- What the loop received, of the frames that the session opened. -/
structure Listens (c : Drive) (opened : List TerminalFrame) : Prop where
  frames : c.frames = opened.tail
  deaf : c.stage.deaf = true → opened = []
  heard : c.stage.heard = true → opened ≠ []

theorem Listens.keeps {c c' : Drive} {opened : List TerminalFrame} (listens : Listens c opened) (keeps : c'.Keeps c) :
    Listens c' opened :=
  ⟨keeps.frames.trans listens.frames, fun deaf => listens.deaf (keeps.deaf deaf),
    fun heard => listens.heard (keeps.heard heard)⟩

/-! ## All connections, with their clients -/

/-- One connection from end to end. -/
structure Link where
  segment : Segment
  ctx : Role → SessionContext
  line : Exchange
  client : Client

def Link.start (segment : Segment) (ctx : Role → SessionContext) (opts : ClientOptions) : Link where
  segment := segment
  ctx := ctx
  line := .initial segment ctx
  client := .start opts

structure Site where
  world : World
  /-- The link of the connection with the same index. -/
  links : List Link

/-- The frame that `drive` sends now. -/
def Drive.saying (c : Drive) : Option TerminalFrame :=
  match c.stage with
  | .denying reason => some (.denied reason)
  | .granting => some (.granted c.handle c.token.get)
  | .sending chunk _ _ => some (.output chunk)
  | .exiting status => some (.exit status.code)
  | _ => none

/-- What a call that sealed and framed comes to, with the fate of `send_frame`. -/
def sendResult (framed : Except TerminalError Bytes) (sent : Except TransportError Unit) : Except TerminalError Unit :=
  match framed with
  | .error e => .error e
  | .ok _ =>
      match sent with
      | .ok () => .ok ()
      | .error e => .error (.transport e)

/-- The last step of a handshake at one end: its own confirmation, or the peer's. -/
inductive ConfirmEvent where
  | sends (plaintext : Bytes) (fates : List Fate)
  | opens (seq : Sequence) (sealed : Bytes) (fates : List Fate)

/-- What happens to one connection. -/
inductive LinkEvent where
  | confirm (role : Role) (event : ConfirmEvent)
  /-- a step of `drive` that has nothing to do with the transport -/
  | server (act : DriveAct)
  | serverSends (fates : List Fate) (sent : Except TransportError Unit)
  | serverReceives (received : Except TransportError Bytes) (fates : List Fate)
  /-- `serve_connection` after an error of `drive` -/
  | serverCloses
  | client (act : ClientAct)
  | clientSends (fates : List Fate) (sent : Except TransportError Unit)
  | clientReceives (received : Except TransportError Bytes) (fates : List Fate)
  | clientReads (block : Option Bytes)

inductive SiteEvent where
  | connect (segment : Segment) (ctx : Role → SessionContext) (opts : ClientOptions)
  | pass (time : Nat)
  | emit (handle : UInt64) (bytes : Bytes)
  | hangUp (handle : UInt64)
  | exits (handle : UInt64) (status : ChildEnd)
  | link (k : Nat) (event : LinkEvent)

namespace Site

def start (opts : ServeOptions) (leaseTimeout : Nat) : Site where
  world := .start opts leaseTimeout
  links := []

def setLink (s : Site) (k : Nat) (link : Link) : Site := { s with links := s.links.set k link }

/-- `drive` of the connection takes a step. -/
def serve (s : Site) (k : Nat) (act : DriveAct) : Site := { s with world := World.step (.conn k act) s.world }

/-- An end is still in its handshake. -/
def waits (c : Drive) (link : Link) : Role → Bool
  | .server => c.stage = .starting
  | .client =>
      match link.client.stage with
      | .starting => true
      | _ => false

/-- The event of the exchange. -/
def confirmation (role : Role) : ConfirmEvent → Exchange.Event
  | .sends plaintext fates => .sealConfirm role plaintext fates
  | .opens seq sealed fates => .openConfirm role seq sealed fates

def linkStep (s : Site) (k : Nat) (c : Drive) (link : Link) (event : LinkEvent) : Site :=
  let client (line : Exchange) (act : ClientAct) : Site :=
    s.setLink k { link with
      line, client := link.client.step s.world.clock ((link.line.session .client).terminated = none) act }
  match event with
  | .confirm role event =>
      if waits c link role then s.setLink k { link with line := Exchange.step (confirmation role event) link.line } else s
  | .server act =>
      match act with
      | .recv _ => s
      | .done _ => if c.saying.isSome then s else s.serve k act
      | _ => s.serve k act
  | .serverSends fates sent =>
      match c.saying with
      | none => s
      | some f =>
          match link.line.tells .server f fates with
          | (none, line) => s.setLink k { link with line }
          | (some framed, line) => (s.setLink k { link with line }).serve k (.done (sendResult framed sent))
  | .serverReceives received fates =>
      if c.stage.listens then
        match link.line.serverHears received fates with
        | (none, line) => s.setLink k { link with line }
        | (some outcome, line) => (s.setLink k { link with line }).serve k (.recv outcome)
      else s
  | .serverCloses =>
      match c.stage with
      | .ended (.error _) => s.setLink k { link with line := Exchange.step (.close .server) link.line }
      | _ => s
  | .client act =>
      match link.client.stage, act with
      | _, .done _ => s
      | _, .heard _ => s
      | .closing _, .go => client (Exchange.step (.close .client) link.line) act
      | _, _ => client link.line act
  | .clientSends fates sent =>
      match link.client.saying with
      | none => s
      | some f =>
          match link.line.tells .client f fates with
          | (none, line) => s.setLink k { link with line }
          | (some framed, line) => client line (.done (sendResult framed sent))
  | .clientReceives received fates =>
      if link.client.stage.listens then
        match link.line.clientHears received fates with
        | (none, line) => s.setLink k { link with line }
        | (some result, line) => client line (.heard result)
      else s
  | .clientReads block => s.setLink k { link with client := link.client.reads block }

def step (event : SiteEvent) (s : Site) : Site :=
  match event with
  | .connect segment ctx opts => { world := World.step .connect s.world, links := s.links ++ [.start segment ctx opts] }
  | .pass time => { s with world := World.step (.pass time) s.world }
  | .emit handle bytes => { s with world := World.step (.emit handle bytes) s.world }
  | .hangUp handle => { s with world := World.step (.hangUp handle) s.world }
  | .exits handle status => { s with world := World.step (.exits handle status) s.world }
  | .link k event =>
      match s.world.conns[k]?, s.links[k]? with
      | some c, some link => s.linkStep k c link event
      | _, _ => s

end Site

/-! ## What the two ends have to do with each other -/

/-- The records between the client and `drive`, and what each of the two has of them. -/
structure Relays (c : Drive) (link : Link) (chan : Channel) : Prop where
  steady : Channel.Steady link.segment link.ctx chan
  mirrors : Exchange.Mirrors link.line chan
  types : Types link.client (framesOf (chan.endpoint .client).sent)
  listens : Listens c (framesOf (chan.endpoint .server).accepted)

namespace Relays

variable {c c' : Drive} {link : Link} {chan : Channel}

theorem start (segment : Segment) (ctx : Role → SessionContext) (opts : ClientOptions) (conn : ConnId) :
    Relays (.start conn) (.start segment ctx opts) (.initial segment ctx) where
  steady := Channel.steady_initial
  mirrors := Exchange.mirrors_initial segment ctx
  types := .start opts
  listens := ⟨rfl, fun _ => rfl, nofun⟩

/-- A call of the server. -/
theorem server (relays : Relays c link chan) {line : Exchange} {frames opened : List TerminalFrame}
    (follows : Exchange.Follows link.segment link.ctx line chan .server frames opened)
    (listens : Listens c' (framesOf (chan.endpoint .server).accepted ++ opened)) :
    ∃ chan', Relays c' { link with line } chan' := by
  obtain ⟨chan', sent, accepted, steady, mirrors, adds, rfl, rfl⟩ := follows
  refine ⟨chan', steady, mirrors, ?_, ?_⟩
  · rw [adds.other .client nofun]
    exact relays.types
  · rw [adds.accepted, framesOf_append]
    exact listens

/-- A call of the client. -/
theorem client (relays : Relays c link chan) {line : Exchange} {client : Client} {frames opened : List TerminalFrame}
    (follows : Exchange.Follows link.segment link.ctx line chan .client frames opened)
    (types : Types client (framesOf (chan.endpoint .client).sent ++ frames)) :
    ∃ chan', Relays c { link with line, client } chan' := by
  obtain ⟨chan', sent, accepted, steady, mirrors, adds, rfl, rfl⟩ := follows
  refine ⟨chan', steady, mirrors, ?_, ?_⟩
  · rw [adds.sent, framesOf_append]
    exact types
  · rw [adds.other .server nofun]
    exact relays.listens

/-- **The input that `drive` received is a prefix of what the client read.** -/
theorem inputs_of_read (relays : Relays c link chan) : inputs c.frames <+: link.client.read := by
  have opened : framesOf (chan.endpoint .server).accepted <+: framesOf (chan.endpoint .client).sent :=
    framesOf_mono (relays.steady.relayed .server)
  obtain ⟨rest, sent⟩ := opened
  have tail : inputs (framesOf (chan.endpoint .server).accepted).tail <+:
      inputs (framesOf (chan.endpoint .client).sent).tail := by
    cases accepted : framesOf (chan.endpoint .server).accepted with
    | nil => exact List.nil_prefix
    | cons first more =>
        rw [accepted] at sent
        rw [← sent]
        show inputs more <+: inputs (more ++ rest)
        rw [inputs_append]
        exact List.prefix_append ..
  rw [relays.listens.frames]
  rw [relays.types.inputs_tail] at tail
  exact tail.trans relays.types.some_

end Relays

namespace Site

structure Sound (s : Site) : Prop where
  leased : World.Leased s.world
  paired : s.links.length = s.world.conns.length
  relays : ∀ (k : Nat) (c : Drive) (link : Link), s.world.conns[k]? = some c → s.links[k]? = some link →
    ∃ chan, Relays c link chan

variable {s : Site} {k : Nat} {c : Drive} {link : Link}

/-- One connection is replaced, at both ends. -/
theorem Sound.replace (sound : Sound s) (here : s.world.conns[k]? = some c) (there : s.links[k]? = some link)
    {world : World} {c' : Drive} {link' : Link} (leased : World.Leased world)
    (conns : world.conns = s.world.conns.set k c') (relays : ∃ chan, Relays c' link' chan) :
    Sound { world, links := s.links.set k link' } where
  leased := leased
  paired := by
    rw [conns, List.length_set, List.length_set]
    exact sound.paired
  relays j d link'' conn at_ := by
    rw [conns] at conn
    by_cases own : j = k
    · subst own
      rw [List.getElem?_set_self (List.getElem?_eq_some_iff.mp here).1] at conn
      rw [List.getElem?_set_self (List.getElem?_eq_some_iff.mp there).1] at at_
      obtain rfl := Option.some.inj conn
      obtain rfl := Option.some.inj at_
      exact relays
    · rw [List.getElem?_set_ne (Ne.symm own)] at conn at_
      exact sound.relays j d link'' conn at_

/-- Only the link is replaced. -/
theorem Sound.setLink (sound : Sound s) (here : s.world.conns[k]? = some c) (there : s.links[k]? = some link)
    {link' : Link} (relays : ∃ chan, Relays c link' chan) : Sound (s.setLink k link') := by
  refine sound.replace here there sound.leased ?_ relays
  obtain ⟨inside, rfl⟩ := List.getElem?_eq_some_iff.mp here
  exact (List.set_getElem_self inside).symm

/-- Both are, `drive` by a step of its own. -/
theorem Sound.serve (sound : Sound s) (here : s.world.conns[k]? = some c) (there : s.links[k]? = some link)
    {act : DriveAct} {c' : Drive} {link' : Link} (conns : (s.world.connStep k c act).conns = s.world.conns.set k c')
    (relays : ∃ chan, Relays c' link' chan) : Sound ((s.setLink k link').serve k act) := by
  have stepped : World.step (.conn k act) s.world = s.world.connStep k c act := by
    unfold World.step
    dsimp only
    rw [here]
  refine sound.replace here there (sound.leased.step (.conn k act)) ?_ relays
  rw [← conns, ← stepped]
  rfl

/-- A step of `drive` that receives nothing. -/
theorem Sound.serve_keeps (sound : Sound s) (here : s.world.conns[k]? = some c) (there : s.links[k]? = some link)
    {chan : Channel} (relays : Relays c link chan) {line : Exchange} {frames : List TerminalFrame}
    (follows : Exchange.Follows link.segment link.ctx line chan .server frames []) {act : DriveAct}
    (quiet : ∀ f, act ≠ .recv (.frame f)) : Sound ((s.setLink k { link with line }).serve k act) := by
  obtain ⟨c', conns, keeps⟩ := World.connStep_keeps here quiet
  refine sound.serve here there conns (relays.server follows ?_)
  rw [List.append_nil]
  exact relays.listens.keeps keeps

/-- A frame that `drive` takes from its session. -/
theorem Sound.serve_frame (sound : Sound s) (here : s.world.conns[k]? = some c) (there : s.links[k]? = some link)
    {chan : Channel} (relays : Relays c link chan) {line : Exchange} {f : TerminalFrame}
    (follows : Exchange.Follows link.segment link.ctx line chan .server [] [f]) (listening : c.stage.listens = true) :
    Sound ((s.setLink k { link with line }).serve k (.recv (.frame f))) := by
  have listens := relays.listens
  cases stage : c.stage with
  | first =>
      obtain ⟨c', conns, frames, deaf⟩ := @World.connStep_first s.world k c stage f
      refine sound.serve here there conns (relays.server follows ?_)
      have nothing := listens.deaf (by rw [stage]; rfl)
      rw [nothing]
      refine ⟨?_, fun still => (nomatch deaf.symm.trans still), fun _ => List.cons_ne_nil f []⟩
      rw [frames, listens.frames, nothing]
      rfl
  | receiving =>
      -- a connection in the loop has its terminal
      have mem := List.mem_of_getElem? here
      have holds : c.stage.holds = true := by rw [stage]; rfl
      obtain ⟨h, hub, -⟩ := sound.leased.known c mem (sound.leased.holds c mem holds)
      refine sound.serve here there (World.connStep_receiving stage hub f) (relays.server follows ?_)
      have some_ := listens.heard (by rw [stage]; rfl)
      refine ⟨?_, nofun, fun _ => List.append_ne_nil_of_left_ne_nil some_ [f]⟩
      show c.frames ++ [f] = _
      rw [listens.frames, List.tail_append_of_ne_nil some_]
  | _ => rw [stage] at listening; nomatch listening

theorem Sound.linkStep (sound : Sound s) (here : s.world.conns[k]? = some c) (there : s.links[k]? = some link)
    (event : LinkEvent) : Sound (s.linkStep k c link event) := by
  obtain ⟨chan, relays⟩ := sound.relays k c link here there
  have steady := relays.steady
  have mirrors := relays.mirrors
  have follows_same (role : Role) : Exchange.Follows link.segment link.ctx link.line chan role [] [] :=
    ⟨chan, [], [], steady, mirrors, .nothing role, rfl, rfl⟩
  -- the server's session was called and `drive` goes nowhere
  have calls {line : Exchange} {frames : List TerminalFrame}
      (follows : Exchange.Follows link.segment link.ctx line chan .server frames []) :
      Sound (s.setLink k { link with line }) := by
    refine sound.setLink here there (relays.server follows ?_)
    rw [List.append_nil]
    exact relays.listens
  have serves {act : DriveAct} (quiet : ∀ f, act ≠ .recv (.frame f)) : Sound (s.serve k act) := by
    have same : s.setLink k link = s := by
      obtain ⟨inside, rfl⟩ := List.getElem?_eq_some_iff.mp there
      exact congrArg (Site.mk s.world) (List.set_getElem_self inside)
    have served := sound.serve_keeps here there relays (follows_same .server) quiet
    rwa [show ({ link with line := link.line } : Link) = link from rfl, same] at served
  -- the client takes a step that seals nothing
  have types {now : Nat} {active : Bool} {act : ClientAct} (quiet : ∀ result, act ≠ .done result) :
      Types (link.client.step now active act) (framesOf (chan.endpoint .client).sent ++ []) := by
    rw [List.append_nil]
    exact relays.types.step act quiet
  cases event with
  | confirm role event =>
      unfold Site.linkStep
      dsimp only
      split
      case isFalse => exact sound
      have follows : Exchange.Follows link.segment link.ctx (Exchange.step (confirmation role event) link.line)
          chan role [] [] := by
        cases event with
        | sends plaintext fates => exact Exchange.follows_sealConfirm steady mirrors role plaintext fates
        | opens seq sealed fates => exact Exchange.follows_openConfirm steady mirrors role seq sealed fates
      cases role with
      | server => exact calls follows
      | client =>
          refine sound.setLink here there (relays.client follows ?_)
          rw [List.append_nil]
          exact relays.types
  | server act =>
      unfold Site.linkStep
      dsimp only
      split
      · exact sound
      · split
        · exact sound
        · exact serves nofun
      · rename_i other _
        exact serves fun f same => other _ same
  | serverSends fates sent =>
      unfold Site.linkStep
      dsimp only
      split
      · exact sound
      · rename_i f _
        obtain ⟨frames, follows, -⟩ := Exchange.follows_tells steady mirrors .server f fates
        split
        · rename_i line called
          rw [called] at follows
          exact calls follows
        · rename_i framed line called
          rw [called] at follows
          exact sound.serve_keeps here there relays follows nofun
  | serverReceives received fates =>
      unfold Site.linkStep
      dsimp only
      split
      · rename_i listening
        obtain ⟨opened, follows, outcome⟩ := Exchange.follows_serverHears steady mirrors received fates
        split
        · rename_i line called
          rw [called] at follows outcome
          obtain rfl : opened = [] := outcome
          exact calls follows
        · rename_i heard line called
          rw [called] at follows outcome
          cases heard with
          | frame f =>
              obtain rfl : opened = [f] := outcome
              exact sound.serve_frame here there relays follows listening
          | timeout =>
              obtain rfl : opened = [] := outcome
              exact sound.serve_keeps here there relays follows nofun
          | closed e =>
              obtain rfl : opened = [] := outcome
              exact sound.serve_keeps here there relays follows nofun
      · exact sound
  | serverCloses =>
      unfold Site.linkStep
      dsimp only
      split
      · exact calls (Exchange.follows_close steady mirrors .server)
      · exact sound
  | client act =>
      unfold Site.linkStep
      dsimp only
      split
      · exact sound
      · exact sound
      · exact sound.setLink here there (relays.client (Exchange.follows_close steady mirrors .client) (types nofun))
      · rename_i other _ _
        exact sound.setLink here there (relays.client (follows_same .client) (types fun result same => other _ same))
  | clientSends fates sent =>
      unfold Site.linkStep
      dsimp only
      split
      · exact sound
      · rename_i f saying
        obtain ⟨frames, follows, sealed⟩ := Exchange.follows_tells steady mirrors .client f fates
        split
        · rename_i line called
          rw [called] at follows sealed
          obtain rfl : frames = [] := sealed
          refine sound.setLink here there (relays.client follows ?_)
          rw [List.append_nil]
          exact relays.types
        · rename_i framed line called
          rw [called] at follows sealed
          refine sound.setLink here there (relays.client follows ?_)
          cases framed with
          | ok wire =>
              obtain rfl : frames = [f] := sealed
              exact relays.types.seals saying _
          | error e =>
              rcases (sealed : frames = [] ∨ frames = [f]) with rfl | rfl
              · rw [List.append_nil]
                exact relays.types.refused saying e
              · exact relays.types.seals saying _
  | clientReceives received fates =>
      unfold Site.linkStep
      dsimp only
      split
      · obtain ⟨opened, follows⟩ := Exchange.follows_clientHears steady mirrors received fates
        split
        · rename_i line called
          rw [called] at follows
          refine sound.setLink here there (relays.client follows ?_)
          rw [List.append_nil]
          exact relays.types
        · rename_i result line called
          rw [called] at follows
          exact sound.setLink here there (relays.client follows (types nofun))
      · exact sound
  | clientReads block =>
      refine sound.setLink here there (relays.client (follows_same .client) ?_)
      rw [List.append_nil]
      exact relays.types.reads block

/-- Something happens to the server that is no connection's. -/
theorem Sound.around (sound : Sound s) (event : WorldEvent) (conns : (World.step event s.world).conns = s.world.conns) :
    Sound { s with world := World.step event s.world } where
  leased := sound.leased.step event
  paired := sound.paired.trans (congrArg List.length conns).symm
  relays k c link here there := sound.relays k c link (conns ▸ here) there

theorem conns_onPty (w : World) (handle : UInt64) (f : Pty → Pty) : (w.onPty handle f).conns = w.conns := by
  unfold World.onPty
  split <;> rfl

theorem Sound.step (event : SiteEvent) (s : Site) (sound : Sound s) : Sound (Site.step event s) := by
  cases event with
  | connect segment ctx opts =>
      refine ⟨sound.leased.step .connect, ?_, ?_⟩
      · show (s.links ++ [_]).length = (s.world.conns ++ [_]).length
        rw [List.length_append, List.length_append, sound.paired]
        rfl
      · intro k c link here there
        replace here : (s.world.conns ++ [Drive.start (s.world.registry.connCounter + 1)])[k]? = some c := here
        replace there : (s.links ++ [Link.start segment ctx opts])[k]? = some link := there
        by_cases old : k < s.world.conns.length
        · rw [List.getElem?_append_left old] at here
          rw [List.getElem?_append_left (sound.paired ▸ old)] at there
          exact sound.relays k c link here there
        · have new : s.world.conns.length ≤ k := Nat.le_of_not_lt old
          rw [List.getElem?_append_right new, List.getElem?_singleton] at here
          rw [List.getElem?_append_right (sound.paired ▸ new), List.getElem?_singleton] at there
          obtain ⟨-, same⟩ := Option.ite_none_right_eq_some.mp here
          obtain ⟨-, same'⟩ := Option.ite_none_right_eq_some.mp there
          obtain rfl := Option.some.inj same
          obtain rfl := Option.some.inj same'
          exact ⟨_, Relays.start segment ctx opts _⟩
  | pass time => exact sound.around (.pass time) rfl
  | emit handle bytes => exact sound.around (.emit handle bytes) (conns_onPty ..)
  | hangUp handle => exact sound.around (.hangUp handle) (conns_onPty ..)
  | exits handle status => exact sound.around (.exits handle status) (conns_onPty ..)
  | link k event =>
      unfold Site.step
      dsimp only
      split
      · rename_i c link here there
        exact sound.linkStep here there event
      · exact sound

theorem Sound.run (opts : ServeOptions) (leaseTimeout : Nat) (events : List SiteEvent) :
    Sound (Library.run Site.step events (.start opts leaseTimeout)) :=
  run_invariant Site.step step events ⟨.start opts leaseTimeout, rfl, fun _ _ _ here => nomatch here⟩

/-- The server takes steps of its own. -/
theorem world_step (event : SiteEvent) (s : Site) :
    (step event s).world = s.world ∨ ∃ event', (step event s).world = World.step event' s.world := by
  cases event with
  | connect => exact .inr ⟨.connect, rfl⟩
  | pass time => exact .inr ⟨.pass time, rfl⟩
  | emit handle bytes => exact .inr ⟨.emit handle bytes, rfl⟩
  | hangUp handle => exact .inr ⟨.hangUp handle, rfl⟩
  | exits handle status => exact .inr ⟨.exits handle status, rfl⟩
  | link k event =>
      unfold step
      dsimp only
      split
      case h_2 => exact .inl rfl
      cases event <;> unfold linkStep <;> dsimp only
      case clientReads => exact .inl rfl
      all_goals split
      all_goals first
        | exact .inl rfl
        | exact .inr ⟨.conn k _, rfl⟩
        | split <;> first
          | exact .inl rfl
          | exact .inr ⟨.conn k _, rfl⟩

theorem world_run (opts : ServeOptions) (leaseTimeout : Nat) (events : List SiteEvent) :
    ∃ events', (run step events (start opts leaseTimeout)).world = run World.step events' (.start opts leaseTimeout) := by
  refine @run_invariant _ _ step (fun s => ∃ events', s.world = run World.step events' (.start opts leaseTimeout))
    (fun event s reached => ?_) events _ ⟨[], rfl⟩
  obtain ⟨events', same⟩ := reached
  rcases world_step event s with kept | ⟨event', stepped⟩
  · exact ⟨events', kept.trans same⟩
  · refine ⟨events' ++ [event'], ?_⟩
    rw [stepped, run_append, same]
    rfl

/-- **PTY input integrity, end to end.** Whatever the transports do, in whatever order the
connections, their clients and the children take their steps, and wherever a call fails: what
was written to a terminal is, in the order of the tokens granted, what was written under each,
the tokens increase, and each is of one connection, whose writes are a prefix of what its
client read. -/
theorem terminal_input_integrity (opts : ServeOptions) (leaseTimeout : Nat) (events : List SiteEvent) :
    let s := run step events (start opts leaseTimeout)
    ∀ handle h, s.world.hub handle = some h →
      h.pty.writes.flatMap (·.2) = h.granted.flatMap h.pty.writtenBy ∧
        (h.granted.Pairwise fun a b => a.get < b.get) ∧
        ∀ t ∈ h.granted, ∃ (k : Nat) (c : Drive) (link : Link),
          s.world.conns[k]? = some c ∧ s.links[k]? = some link ∧ c.handle = handle ∧ c.token = t ∧
            h.pty.writtenBy t <+: link.client.read := by
  intro s handle h hub
  have sound : Sound s := Sound.run opts leaseTimeout events
  obtain ⟨events', reached⟩ := world_run opts leaseTimeout events
  have written := World.writes_are_prefixes opts leaseTimeout events' handle h (reached ▸ hub)
  obtain ⟨groups, increasing, owned⟩ := written
  refine ⟨groups, increasing, fun t mem => ?_⟩
  obtain ⟨k, c, here, its, token, some_⟩ := owned t mem
  rw [← reached] at here
  have inside : k < s.links.length := sound.paired ▸ (List.getElem?_eq_some_iff.mp here).1
  have there := List.getElem?_eq_getElem inside
  obtain ⟨chan, relays⟩ := sound.relays k c _ here there
  exact ⟨k, c, _, here, there, its, token, some_.trans relays.inputs_of_read⟩

/-- A client attaches and types two bytes, its records are delivered, and they are written. -/
def typed : List SiteEvent :=
  let fates : List Fate := [⟨some ([], .replicate 16 9), true, none, .error .io⟩]
  let ctx : Role → SessionContext := fun _ =>
    ⟨.client, ⟨.replicate 16 0⟩, .zero, .replicate 16 1, .replicate 16 2⟩
  let sealed (n : Nat) : Bytes := .replicate n 0 ++ .replicate 16 9
  let wire (seq : UInt64) (n : Nat) : Except TransportError Bytes :=
    (encode (.data ⟨0⟩ ⟨seq⟩ (sealed n))).mapError fun _ => .timeout
  let handshake : List LinkEvent := [.confirm .client (.sends [1] fates),
    .confirm .server (.opens .zero (sealed 1) fates), .confirm .server (.sends [2] fates),
    .confirm .client (.opens .zero (sealed 1) fates)]
  let attach : List LinkEvent := [.server (.done (.ok ())), .client (.set (.ok ())), .clientSends fates (.ok ()),
    .serverReceives (wire 1 5) fates, .server (.spawned true), .server .go, .serverSends fates (.ok ()),
    .server (.done (.ok ())), .clientReceives (wire 1 17) fates]
  let type : List LinkEvent := [.client (.probe none), .clientReads (some [104, 105]), .client .go, .client .go,
    .clientSends fates (.ok ()), .serverReceives (wire 2 5) fates, .server .go, .server (.write [.wrote 2])]
  .connect (.replicate 64 5) ctx ⟨.new ⟨24, 80⟩, 30000, 1000⟩ :: (handshake ++ attach ++ type).map (.link 0)

theorem terminal_input_integrity_typed :
    ∃ h, (run step typed (start ⟨30000, 250⟩ 5000)).world.hub 1 = some h ∧ h.pty.writes = [(⟨1⟩, [104, 105])] ∧
      h.pty.writes.flatMap (·.2) = h.granted.flatMap h.pty.writtenBy ∧
      (h.granted.Pairwise fun a b => a.get < b.get) ∧
      ∀ t ∈ h.granted, ∃ (k : Nat) (c : Drive) (link : Link),
        (run step typed (start ⟨30000, 250⟩ 5000)).world.conns[k]? = some c ∧
          (run step typed (start ⟨30000, 250⟩ 5000)).links[k]? = some link ∧ c.handle = 1 ∧ c.token = t ∧
          h.pty.writtenBy t <+: link.client.read := by
  have writes : ((run step typed (start ⟨30000, 250⟩ 5000)).world.hub 1).map (fun h => h.pty.writes) =
      some [(⟨1⟩, [104, 105])] := by decide +kernel
  obtain ⟨h, hub, written⟩ := Option.map_eq_some_iff.mp writes
  exact ⟨h, hub, written, terminal_input_integrity _ _ typed 1 h hub⟩

end Site

end Jbuu.Terminal
