/-
# Handshake.Failure — which failures of the handshake are final

Any calls on one machine, any messages, and a host that answers anything: any bytes for
a ciphertext, any plaintext for a decryption, any segment or error for an issue, any
nonce or none. A failure is final (`FailsForGood`) when it leaves the machine in a
terminal phase without a session, and every later call fails without an issue.

`failure_is_final_iff` says exactly which are not: the two calls whose random generator
fails before they have left Idle, and a `start` while a session is held.
-/
import Jbuu.Library.Runs
import Jbuu.Session.Channel
import Jbuu.Handshake.Server

namespace Jbuu.Handshake

set_option autoImplicit false

open Jbuu.Library.BigEndian (Bytes Exactly)
open Jbuu.Library
open Jbuu.Library.Program (exec_of_wp exec_call_bind wp_bind)
open Jbuu.Allocator (IssueError)

/-! ## Calls against any host -/

/-- What the host answers, whatever it is asked. -/
structure Answer where
  sealed : Option (Bytes × Tag)
  opened : Option Bytes
  random : Option Nonce16
  issued : Except IssueError Segment
  deriving DecidableEq, Repr

instance : Inhabited Answer := ⟨⟨none, none, none, .error .io⟩⟩

/-- Any host; its state counts the calls of `issue`. -/
def anyHost : Device HostOp HostReply Answer Nat
  | .encrypt _ _ _ plaintext, a, issues =>
      (some (a.sealed.map fun (bytes, tag) => (fitted bytes plaintext.length, tag)), issues)
  | .decrypt _ _ _ _ _, a, issues => (some a.opened, issues)
  | .csprng16, a, issues => (some a.random, issues)
  | .issue, a, issues => (some a.issued, issues + 1)

/-- One machine, with the replies its calls gave. -/
structure Played (μ : Type) where
  machine : μ
  replies : List CallReply
  issues : Nat
  panicked : Bool
  deriving DecidableEq, Repr

def Played.fresh {μ : Type} (machine : μ) : Played μ := ⟨machine, [], 0, false⟩

section Machine

variable {κ μ : Type} (on : κ → μ → Host (CallReply × μ)) (dead : μ → Prop)

def play (event : κ × List Answer) (p : Played μ) : Played μ :=
  match (on event.1 p.machine).exec anyHost event.2 p.issues with
  | (.returned (reply, machine), issues) => { p with machine, issues, replies := p.replies ++ [reply] }
  | (.crashed, issues) => { p with issues }
  | (.panicked, issues) => { p with issues, panicked := true }

/-- From `p` on every call fails, and none issues a segment. -/
def FailsFrom (p : Played μ) : Prop :=
  ∀ later, let q := run (play on) later p
    dead q.machine ∧ q.issues = p.issues ∧
      ∃ replies, q.replies = p.replies ++ replies ∧ ∀ reply ∈ replies, reply.fails = true

/-- If the call fails, the machine is dead afterwards, and stays so. -/
def FailsForGood (event : κ × List Answer) (p : Played μ) : Prop :=
  (∃ reply, (play on event p).replies = p.replies ++ [reply] ∧ reply.fails = true) →
    dead (play on event p).machine ∧ FailsFrom on dead (play on event p)

variable {on dead}

/-- What a call does, from its weakest precondition. -/
theorem play_of_wp {call : κ} (answers : List Answer) {p : Played μ}
    {post : CallReply × μ → Nat → Prop}
    (holds : (on call p.machine).wp anyHost post (fun _ => False) p.issues) :
    ∃ reply machine issues, post (reply, machine) issues ∧
      play on (call, answers) p = { p with machine, issues, replies := p.replies ++ [reply] } := by
  have ran := exec_of_wp holds answers
  unfold play
  revert ran
  rcases (on call p.machine).exec anyHost answers p.issues with ⟨⟨reply, machine⟩ | _ | _, issues⟩
  · exact fun now => ⟨reply, machine, issues, now, rfl⟩
  · exact False.elim
  · exact False.elim

/-- A dead machine whose every call fails and leaves it dead fails from then on. -/
theorem failsFrom_of_dead
    (stays : ∀ call machine, dead machine → ∃ reply machine',
      on call machine = pure (reply, machine') ∧ reply.fails = true ∧ dead machine')
    {p : Played μ} (ended : dead p.machine) : FailsFrom on dead p := by
  intro later
  induction later generalizing p with
  | nil => exact ⟨ended, rfl, [], (List.append_nil _).symm, nofun⟩
  | cons event rest ih =>
      obtain ⟨reply, machine, same, fails, still⟩ := stays event.1 p.machine ended
      have stepped : play on event p = { p with machine, replies := p.replies ++ [reply] } := by
        rw [play, same]
        rfl
      obtain ⟨end_, issues, replies, grown, all⟩ := ih (by rw [stepped]; exact still : dead (play on event p).machine)
      rw [run]
      refine ⟨end_, issues.trans (by rw [stepped]), reply :: replies, ?_, ?_⟩
      · rw [grown, stepped, List.append_assoc]
        rfl
      · intro r mem
        rcases List.mem_cons.mp mem with rfl | mem
        · exact fails
        · exact all r mem

/-- What one call did: `escapes` are the calls that fail and leave the machine alive. -/
structure Answered (dead : μ → Prop) (escapes : Prop) (p p' : Played μ) (reply : CallReply) : Prop where
  replied : p'.replies = p.replies ++ [reply]
  calm : p'.panicked = p.panicked
  lives : escapes → reply.fails = true ∧ ¬dead p'.machine
  dies : ¬escapes → reply.fails = true → dead p'.machine

theorem failsForGood_iff
    (stays : ∀ call machine, dead machine → ∃ reply machine',
      on call machine = pure (reply, machine') ∧ reply.fails = true ∧ dead machine')
    {escapes : Prop} {event : κ × List Answer} {p : Played μ} {reply : CallReply}
    (answered : Answered dead escapes p (play on event p) reply) :
    FailsForGood on dead event p ↔ ¬escapes := by
  constructor
  · intro final out
    obtain ⟨fails, alive⟩ := answered.lives out
    exact alive (final ⟨reply, answered.replied, fails⟩).1
  · rintro within ⟨reply', replied, fails⟩
    obtain rfl : reply' = reply := by
      simpa using List.append_cancel_left (replied.symm.trans answered.replied)
    have ended := answered.dies within fails
    exact ⟨ended, failsFrom_of_dead stays ended⟩

end Machine

/-! ## The client -/

section Client

/-- What holds of a session the client holds. -/
structure ClientHeld (h : ClientHandshake) : Prop where
  phase : h.session ≠ none → h.phase = .confirmSent ∨ h.phase = .failed
  own : ∀ session, h.session = some session → session.Coherent ∧ session.ctx.role = .client

theorem clientHeld_of_none {h : ClientHandshake} (none_ : h.session = none) : ClientHeld h where
  phase some_ := absurd none_ some_
  own session held := by rw [none_] at held; cases held

/-- A `start` that fails and does not end the handshake: with a session held, or with a
random generator that fails in Idle. -/
def ClientEscapes (event : ClientCall × List Answer) (h : ClientHandshake) : Prop :=
  event.1 = .start ∧
    (h.session ≠ none ∨ h.phase = .idle ∧ (event.2.headD default).random = none)

theorem client_stays_dead (call : ClientCall) (h : ClientHandshake) (dead : h.Dead) :
    ∃ reply h', call.on h = pure (reply, h') ∧ reply.fails = true ∧ h'.Dead := by
  have past : h.phase ≠ .idle ∧ h.phase ≠ .helloSent ∧ h.phase ≠ .confirmSent := by
    rcases dead.ended with phase | phase <;> simp [phase]
  cases call with
  | start =>
      refine ⟨.refused (.violation .badOrder), { h with phase := .failed }, ?_, rfl,
        ⟨.inl rfl, dead.burned⟩⟩
      rw [ClientCall.on, ClientHandshake.start, if_pos past.1]
      rfl
  | handle msg =>
      refine ⟨.step h.orderViolation.1, h.orderViolation.2, ?_, rfl, h.dead_orderViolation⟩
      have order : h.handle msg = pure h.orderViolation := by
        unfold ClientHandshake.handle
        split
        · rename_i phase
          exact absurd phase past.2.1
        · rename_i phase
          exact absurd phase past.2.2
        · rfl
      rw [ClientCall.on, order]
      rfl
  | abort reason => exact ⟨_, _, rfl, rfl, ⟨.inl rfl, rfl⟩⟩

/-- `start` in Idle. -/
theorem play_start_idle {answers : List Answer} {p : Played ClientHandshake}
    (idle : p.machine.phase = .idle) :
    play ClientCall.on (.start, answers) p =
      match (answers.headD default).random with
      | none => { p with replies := p.replies ++ [.refused .csprng] }
      | some nonce =>
          { p with
            machine := { p.machine with clientNonce := some nonce, phase := .helloSent }
            replies := p.replies ++ [.message (.hello p.machine.cfg.bookId nonce
              p.machine.cfg.localPointer ⟨0⟩)] } := by
  rw [play, ClientCall.on, ClientHandshake.start, if_neg (not_not.mpr idle), askHost, bind_assoc,
    exec_call_bind]
  dsimp only [anyHost]
  cases (answers.headD default).random <;> rfl

theorem play_start_late {answers : List Answer} {p : Played ClientHandshake}
    (late : p.machine.phase ≠ .idle) :
    play ClientCall.on (.start, answers) p =
      { p with
        machine := { p.machine with phase := .failed }
        replies := p.replies ++ [.refused (.violation .badOrder)] } := by
  rw [play, ClientCall.on, ClientHandshake.start, if_pos late]
  rfl

/-- Every call of the client: the held session stays in order, and only an escape survives. -/
theorem client_answered (event : ClientCall × List Answer) {p : Played ClientHandshake}
    (held : ClientHeld p.machine) :
    ClientHeld (play ClientCall.on event p).machine ∧
      ∃ reply, Answered ClientHandshake.Dead (ClientEscapes event p.machine) p
        (play ClientCall.on event p) reply := by
  obtain ⟨call, answers⟩ := event
  cases call with
  | start =>
      by_cases idle : p.machine.phase = .idle
      · have free : p.machine.session = none := by
          by_contra some_
          rcases held.phase some_ with phase | phase <;> simp [phase] at idle
        rw [play_start_idle idle]
        cases drawn : (answers.headD default).random with
        | none =>
            have alive : ¬p.machine.Dead := by
              intro dead
              rcases dead.ended with phase | phase <;> simp [phase] at idle
            refine ⟨held, _, rfl, rfl, fun _ => ⟨rfl, alive⟩, ?_⟩
            intro within _
            exact absurd ⟨rfl, .inr ⟨idle, drawn⟩⟩ within
        | some nonce =>
            refine ⟨clientHeld_of_none free, _, rfl, rfl, ?_, by rintro _ ⟨⟩⟩
            rintro ⟨-, some_ | ⟨-, failed⟩⟩
            · exact absurd free some_
            · rw [drawn] at failed
              cases failed
      · rw [play_start_late idle]
        refine ⟨⟨fun _ => .inr rfl, held.own⟩, _, rfl, rfl, ?_, ?_⟩
        · rintro ⟨-, some_ | ⟨now, -⟩⟩
          · exact ⟨rfl, fun dead => some_ dead.burned⟩
          · exact absurd now idle
        · intro within _
          refine ⟨.inl rfl, ?_⟩
          by_contra some_
          exact within ⟨rfl, .inl some_⟩
  | handle msg =>
      have safe : ((ClientCall.handle msg).on p.machine).wp anyHost
          (fun out _ => ClientHeld out.2 ∧ (out.1.fails = true → out.2.Dead)) (fun _ => False)
          p.issues := by
        have quiet : p.machine.phase = .helloSent → p.machine.session = none := by
          intro phase
          by_contra some_
          rcases held.phase some_ with other | other <;> simp [other] at phase
        rw [ClientCall.on, wp_bind]
        apply ClientHandshake.wp_handle (fun _ => True) trivial quiet held.own
        · intro e h' issues dead _
          exact ⟨clientHeld_of_none dead.burned, fun _ => dead⟩
        · intro answer issues _
          exact trivial
        · intro gap i clientNonce serverNonce _ _ answer issues _
          dsimp only [anyHost]
          cases answer.issued with
          | error e => exact trivial
          | ok seg =>
              intro answer
              cases answer.sealed with
              | none => exact trivial
              | some given =>
                  refine ⟨by simp [confirmBodyLen], ⟨fun _ => .inl rfl, ?_⟩, by rintro ⟨⟩⟩
                  intro session held
                  obtain rfl := Option.some.inj held
                  exact ⟨by simp [Session.Coherent, Session.new], rfl⟩
        · intro i session keys _ _ _ _ _ _ _ _ _ _ answer
          dsimp only [anyHost]
          cases answer.opened with
          | none => exact trivial
          | some plaintext => exact ⟨trivial, clientHeld_of_none rfl, by rintro ⟨⟩⟩
      obtain ⟨reply, machine, issues, ⟨held', dies⟩, stepped⟩ := play_of_wp answers safe
      rw [stepped]
      refine ⟨held', reply, rfl, rfl, ?_, fun _ => dies⟩
      rintro ⟨now, -⟩
      cases now
  | abort reason =>
      refine ⟨clientHeld_of_none rfl, _, rfl, rfl, ?_, fun _ _ => ⟨.inl rfl, rfl⟩⟩
      rintro ⟨now, -⟩
      cases now

end Client

/-! ## The server -/

section Server

/-- What holds of a session the server holds. -/
structure ServerHeld (h : ServerHandshake) : Prop where
  phase : h.session ≠ none → h.phase = .confirmWait
  own : ∀ session, h.session = some session →
    session.Coherent ∧ session.ctx.role = .server ∧ session.nextSend = .zero

theorem serverHeld_of_none {h : ServerHandshake} (none_ : h.session = none) : ServerHeld h where
  phase some_ := absurd none_ some_
  own session held := by rw [none_] at held; cases held

/-- An `on_hello` whose random generator fails. -/
def ServerEscapes (event : ServerCall × List Answer) (h : ServerHandshake) : Prop :=
  (∃ bookId clientNonce clientPointer features,
    event.1 = .onHello (.hello bookId clientNonce clientPointer features)) ∧
    h.phase = .idle ∧ (event.2.headD default).random = none

theorem server_stays_dead (call : ServerCall) (h : ServerHandshake) (dead : h.Dead) :
    ∃ reply h', call.on h = pure (reply, h') ∧ reply.fails = true ∧ h'.Dead := by
  have past : h.phase ≠ .idle ∧ h.phase ≠ .issueWait ∧ h.phase ≠ .confirmWait := by
    rcases dead.ended with phase | phase <;> simp [phase]
  cases call with
  | onHello hello =>
      refine ⟨.refused (.violation .badOrder), h.orderViolation.2, ?_, rfl, h.dead_orderViolation⟩
      have refuses : h.onHello hello = pure (.error (.violation .badOrder), h.orderViolation.2) :=
        if_pos past.1
      rw [ServerCall.on, refuses]
      rfl
  | onIssueRequest req =>
      refine ⟨.step h.orderViolation.1, h.orderViolation.2, ?_, rfl, h.dead_orderViolation⟩
      have refuses : h.onIssueRequest req = pure h.orderViolation := if_pos past.2.1
      rw [ServerCall.on, refuses]
      rfl
  | onConfirm confirm =>
      refine ⟨.step h.orderViolation.1, h.orderViolation.2, ?_, rfl, h.dead_orderViolation⟩
      have refuses : h.onConfirm confirm = pure h.orderViolation := if_pos past.2.2
      rw [ServerCall.on, refuses]
      rfl
  | abort reason => exact ⟨_, _, rfl, rfl, ⟨.inl rfl, rfl⟩⟩

theorem answerHello_held {h : ServerHandshake} (burned : h.session = none) (bookId : BookId)
    (clientPointer : SegmentIndex) (serverNonce : Nonce16) :
    ServerHeld (h.answerHello bookId clientPointer serverNonce).2 := by
  rcases ServerHandshake.answerHello_cases burned bookId clientPointer serverNonce with waits | dead
  · exact serverHeld_of_none waits.2
  · exact serverHeld_of_none dead.burned

theorem play_onHello_idle {answers : List Answer} {p : Played ServerHandshake}
    (idle : p.machine.phase = .idle) (bookId : BookId) (clientNonce : Nonce16)
    (clientPointer : SegmentIndex) (features : FeatureFlags) :
    play ServerCall.on (.onHello (.hello bookId clientNonce clientPointer features), answers) p =
      let heard := { p.machine with clientNonce := some clientNonce }
      match (answers.headD default).random with
      | none => { p with machine := heard, replies := p.replies ++ [.refused .csprng] }
      | some serverNonce =>
          let answer := heard.answerHello bookId clientPointer serverNonce
          { p with machine := answer.2, replies := p.replies ++ [.message answer.1] } := by
  rw [play, ServerCall.on, ServerHandshake.onHello, if_neg (not_not.mpr idle)]
  dsimp only
  rw [askHost, bind_assoc, exec_call_bind]
  dsimp only [anyHost]
  cases (answers.headD default).random <;> rfl

/-- Every call of the server: the held session stays in order, and only an escape survives. -/
theorem server_answered (event : ServerCall × List Answer) {p : Played ServerHandshake}
    (held : ServerHeld p.machine) :
    ServerHeld (play ServerCall.on event p).machine ∧
      ∃ reply, Answered ServerHandshake.Dead (ServerEscapes event p.machine) p
        (play ServerCall.on event p) reply := by
  obtain ⟨call, answers⟩ := event
  cases call with
  | onHello hello =>
      have quiet : p.machine.phase = .idle → p.machine.session = none := by
        intro phase
        by_contra some_
        have other := held.phase some_
        simp [phase] at other
      by_cases greets : p.machine.phase = .idle ∧ ∃ bookId clientNonce clientPointer features,
          hello = .hello bookId clientNonce clientPointer features
      · obtain ⟨idle, bookId, clientNonce, clientPointer, features, rfl⟩ := greets
        rw [play_onHello_idle idle]
        dsimp only
        cases drawn : (answers.headD default).random with
        | none =>
            have alive : ¬{ p.machine with clientNonce := some clientNonce : ServerHandshake }.Dead := by
              intro dead
              rcases dead.ended with phase | phase <;> simp [idle] at phase
            refine ⟨serverHeld_of_none (quiet idle), _, rfl, rfl, fun _ => ⟨rfl, alive⟩, ?_⟩
            intro within _
            exact absurd ⟨⟨_, _, _, _, rfl⟩, idle, drawn⟩ within
        | some serverNonce =>
            have fresh : { p.machine with clientNonce := some clientNonce : ServerHandshake }.session =
                none := quiet idle
            have held' := answerHello_held fresh bookId clientPointer serverNonce
            refine ⟨held', _, rfl, rfl, ?_, nofun⟩
            rintro ⟨-, -, failed⟩
            rw [drawn] at failed
            cases failed
      · have safe : ((ServerCall.onHello hello).on p.machine).wp anyHost
            (fun out _ => ServerHeld out.2 ∧ out.2.Dead) (fun _ => False) p.issues := by
          rw [ServerCall.on, wp_bind]
          apply ServerHandshake.wp_onHello quiet
          · intro e h' dead
            exact ⟨serverHeld_of_none dead.burned, dead⟩
          · intro bookId clientNonce clientPointer features idle is_hello
            exact absurd ⟨idle, _, _, _, _, is_hello⟩ greets
        obtain ⟨reply, machine, issues, ⟨held', dead⟩, stepped⟩ := play_of_wp answers safe
        rw [stepped]
        refine ⟨held', reply, rfl, rfl, ?_, fun _ _ => dead⟩
        rintro ⟨⟨_, _, _, _, now⟩, idle, -⟩
        exact absurd ⟨idle, _, _, _, _, ServerCall.onHello.inj now⟩ greets
  | onIssueRequest req =>
      have safe : ((ServerCall.onIssueRequest req).on p.machine).wp anyHost
          (fun out _ => ServerHeld out.2 ∧ (out.1.fails = true → out.2.Dead)) (fun _ => False)
          p.issues := by
        have quiet : p.machine.phase = .issueWait → p.machine.session = none := by
          intro phase
          by_contra some_
          have other := held.phase some_
          simp [phase] at other
        rw [ServerCall.on, wp_bind]
        apply ServerHandshake.wp_onIssueRequest (fun _ => True) trivial quiet
        · intro e h' issues dead _
          exact ⟨serverHeld_of_none dead.burned, fun _ => dead⟩
        · intro i clientNonce serverNonce _ _ _ _ answer
          dsimp only [anyHost]
          cases answer.issued with
          | error e => exact trivial
          | ok seg =>
              refine ⟨⟨fun _ => rfl, ?_⟩, nofun⟩
              intro session held
              obtain rfl := Option.some.inj held
              exact ⟨Session.coherent_new _ _, rfl, rfl⟩
      obtain ⟨reply, machine, issues, ⟨held', dies⟩, stepped⟩ := play_of_wp answers safe
      rw [stepped]
      refine ⟨held', reply, rfl, rfl, ?_, fun _ => dies⟩
      rintro ⟨⟨_, _, _, _, now⟩, -⟩
      cases now
  | onConfirm confirm =>
      have safe : ((ServerCall.onConfirm confirm).on p.machine).wp anyHost
          (fun out _ => ServerHeld out.2 ∧ (out.1.fails = true → out.2.Dead)) (fun _ => False)
          p.issues := by
        rw [ServerCall.on, wp_bind]
        apply ServerHandshake.wp_onConfirm (fun _ => True) trivial held.own
        · intro e h' issues dead _
          exact ⟨serverHeld_of_none dead.burned, fun _ => dead⟩
        · intro i clientNonce serverNonce session keys _ _ _ _ _ _ _ _ _ _ _ _ answer
          dsimp only [anyHost]
          cases answer.opened with
          | none => exact trivial
          | some plaintext =>
              refine ⟨trivial, ?_⟩
              intro answer
              cases answer.sealed with
              | none => exact trivial
              | some given => exact ⟨by simp [confirmBodyLen], serverHeld_of_none rfl, nofun⟩
      obtain ⟨reply, machine, issues, ⟨held', dies⟩, stepped⟩ := play_of_wp answers safe
      rw [stepped]
      refine ⟨held', reply, rfl, rfl, ?_, fun _ => dies⟩
      rintro ⟨⟨_, _, _, _, now⟩, -⟩
      cases now
  | abort reason =>
      refine ⟨serverHeld_of_none rfl, _, rfl, rfl, ?_, fun _ _ => ⟨.inl rfl, rfl⟩⟩
      rintro ⟨⟨_, _, _, _, now⟩, -⟩
      cases now

end Server

/-! ## Every reachable state -/

theorem client_run (cfg : ClientConfig) (events : List (ClientCall × List Answer)) :
    let p := run (play ClientCall.on) events (.fresh (ClientHandshake.idle cfg))
    ClientHeld p.machine ∧ p.panicked = false := by
  have stays : ∀ event (p : Played ClientHandshake), ClientHeld p.machine ∧ p.panicked = false →
      ClientHeld (play ClientCall.on event p).machine ∧ (play ClientCall.on event p).panicked = false := by
    rintro event p ⟨held, calm⟩
    obtain ⟨held', reply, answered⟩ := client_answered event held
    exact ⟨held', answered.calm.trans calm⟩
  exact run_invariant (play ClientCall.on) stays events ⟨clientHeld_of_none rfl, rfl⟩

theorem server_run (cfg : ServerConfig) (events : List (ServerCall × List Answer)) :
    let p := run (play ServerCall.on) events (.fresh (ServerHandshake.idle cfg))
    ServerHeld p.machine ∧ p.panicked = false := by
  have stays : ∀ event (p : Played ServerHandshake), ServerHeld p.machine ∧ p.panicked = false →
      ServerHeld (play ServerCall.on event p).machine ∧ (play ServerCall.on event p).panicked = false := by
    rintro event p ⟨held, calm⟩
    obtain ⟨held', reply, answered⟩ := server_answered event held
    exact ⟨held', answered.calm.trans calm⟩
  exact run_invariant (play ServerCall.on) stays events ⟨serverHeld_of_none rfl, rfl⟩

/-- **Which failures are final.** After any calls on a machine, answered in any way, no
panic was reached, and a further call fails for good unless it is one of the escapes:
a `start` with a session held, or a `start` or an `on_hello` in Idle whose random
generator fails. -/
theorem failure_is_final_iff (clientCfg : ClientConfig) (serverCfg : ServerConfig)
    (clientCalls : List (ClientCall × List Answer)) (clientCall : ClientCall × List Answer)
    (serverCalls : List (ServerCall × List Answer)) (serverCall : ServerCall × List Answer) :
    (let p := run (play ClientCall.on) clientCalls (.fresh (ClientHandshake.idle clientCfg))
     p.panicked = false ∧
        (FailsForGood ClientCall.on ClientHandshake.Dead clientCall p ↔
          ¬ClientEscapes clientCall p.machine)) ∧
    (let p := run (play ServerCall.on) serverCalls (.fresh (ServerHandshake.idle serverCfg))
     p.panicked = false ∧
        (FailsForGood ServerCall.on ServerHandshake.Dead serverCall p ↔
          ¬ServerEscapes serverCall p.machine)) := by
  constructor
  · intro p
    obtain ⟨held, calm⟩ := client_run clientCfg clientCalls
    obtain ⟨_, reply, answered⟩ := client_answered clientCall held
    exact ⟨calm, failsForGood_iff client_stays_dead answered⟩
  · intro p
    obtain ⟨held, calm⟩ := server_run serverCfg serverCalls
    obtain ⟨_, reply, answered⟩ := server_answered serverCall held
    exact ⟨calm, failsForGood_iff server_stays_dead answered⟩

/-- A new client whose random generator fails stays in Idle, and its next `start`
returns a HELLO. -/
theorem failed_start_is_not_final :
    let client := ClientHandshake.idle ⟨.v2, ⟨.replicate 16 3⟩, .zero, 1⟩
    let nonce : Nonce16 := .replicate 16 7
    (run (play ClientCall.on) [(.start, []), (.start, [⟨none, none, some nonce, .error .io⟩])]
      (.fresh client)).replies =
        [.refused .csprng, .message (.hello ⟨.replicate 16 3⟩ nonce .zero ⟨0⟩)] ∧
    ¬FailsForGood ClientCall.on ClientHandshake.Dead (.start, []) (.fresh client) := by
  refine ⟨by decide, ?_⟩
  intro final
  obtain ⟨dead, -⟩ := final ⟨.refused .csprng, rfl, rfl⟩
  rcases dead.ended with phase | phase <;> cases phase

end Jbuu.Handshake
