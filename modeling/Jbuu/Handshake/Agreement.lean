/-
# Handshake.Agreement — who agrees with whom, whatever the network does

Every call of a client or a server is one of the steps of the register, so `Sound` holds
in every state of every run (`safe_run`). `handshake_agreement` reads off who agrees with
whom; `replayed_hello_unseats_server` is the run in which the server that a client agrees
with is no longer in its Established phase.
-/
import Jbuu.Handshake.Register

namespace Jbuu.Handshake

set_option autoImplicit false

open Jbuu.Library.BigEndian (Bytes Exactly)
open Jbuu.Library
open Jbuu.Library.Program (exec_of_wp wp_bind)

/-! ## Every step of the world -/

section Steps

variable {book : List Segment} {w : World}

/-- What is invariant. -/
structure Safe (book : List Segment) (w : World) : Prop where
  calm : w.panicked = false
  sound : Sound book w.register

/-- An issuer refuses, or gives a segment its side has not given before. -/
theorem issuer_cases (book : List Segment) (role : Role) (fate : Fate) (env : Env) :
    (∃ e, issuer book role fate env = (.error e, env)) ∨
    ∃ k body env', book[k.get.toNat]? = some body ∧ k ∉ env.issued role ∧ k ∈ env'.issued role ∧
      Grown env env' ∧ issuer book role fate env = (.ok body, env') := by
  unfold issuer
  split
  · exact .inl ⟨_, rfl⟩
  split
  · exact .inl ⟨_, rfl⟩
  split
  · exact .inl ⟨_, rfl⟩
  · rename_i k _ _ body there new
    refine .inr ⟨k, body, { env with issued := Function.update env.issued role (k :: env.issued role) },
      there, new, ?_, ⟨rfl, ?_⟩, rfl⟩
    · dsimp only
      rw [Function.update_self]
      exact List.mem_cons_self
    · intro role' k' mem
      dsimp only
      by_cases this : role' = role
      · subst this
        rw [Function.update_self]
        exact List.mem_cons_of_mem k mem
      · rwa [Function.update_of_ne this]

theorem grown_issue {env₀ env : Env} (grown : Grown env₀ env) (owner : Party) (fate : Fate) :
    match host book owner .issue fate env with
    | (some _, env') => Grown env₀ env'
    | (none, _) => False := by
  simp only [host]
  rcases issuer_cases book owner.role fate env with ⟨e, same⟩ | ⟨k, body, env', -, -, -, more, same⟩
  · rw [same]
    exact grown
  · rw [same]
    exact grown.trans more

/-- What opens was sealed. -/
theorem host_decrypt {owner : Party} {fate : Fate} {env : Env} {key : DirectionKey} {nonce : Nonce96}
    {aad ciphertext plaintext : Bytes} {tag : Tag} {env' : Env}
    (opened : host book owner (.decrypt key nonce aad ciphertext tag) fate env =
      (some (some plaintext), env')) :
    env' = env ∧ ∃ entry ∈ env.ledger, entry.key = key ∧ entry.nonce = nonce ∧ entry.aad = aad ∧
      entry.sealed = (ciphertext, tag) := by
  obtain ⟨reply, rfl⟩ := Prod.mk.inj opened
  have found := (Option.ite_none_right_eq_some.mp (Option.some.inj reply)).2
  obtain ⟨entry, mem, rest⟩ := Sealing.opens_mem found
  exact ⟨rfl, entry, mem, rest.1, rest.2.1, rest.2.2.1, rest.2.2.2.1⟩

/-! ### A client's call -/

theorem register_client (w : World) (i : Nat) (env : Env) (h : ClientHandshake) :
    { w with env, client := Function.update w.client i h : World }.register =
      { w.register with env, view := Function.update w.view ⟨.client, i⟩ (clientView h) } := by
  unfold World.register
  congr
  funext ⟨role, index⟩
  cases role with
  | client =>
      by_cases this : index = i
      · subst this
        simp [World.view]
      · have other : (⟨.client, index⟩ : Party) ≠ ⟨.client, i⟩ := by simp [this]
        rw [Function.update_of_ne other]
        simp [World.view, this]
  | server => rfl

def establishes : CallReply → Bool
  | .step (.established _ _ _) => true
  | _ => false

theorem hand_plain (w : World) (p : Party) (m : Option Message) {reply : CallReply}
    (plain : establishes reply = false) : w.hand p m reply = w := by
  unfold World.hand
  split
  · cases plain
  · rfl

/-- A call that opens and establishes nothing. -/
theorem Safe.client_quiet (safe : Safe book w) {i : Nat} {env : Env} (grown : Grown w.env env)
    {h : ClientHandshake} (holds : Holds (w.opened ⟨.client, i⟩) (clientView h))
    (phase : h.phase ≠ .confirmSent ∧ h.phase ≠ .established) {call : ClientCall} {reply : CallReply}
    (plain : establishes reply = false) :
    Safe book (w.clientReturned i call env (reply, h)) := by
  have same : w.clientReturned i call env (reply, h) =
      { w with env, client := Function.update w.client i h } := by
    have untouched : ∀ w' : World, w'.note ⟨.client, i⟩ (h.phase = .confirmSent) h.session = w' :=
      fun w' => if_neg (by simpa using phase.1)
    simp only [World.clientReturned, untouched]
    exact hand_plain _ _ _ plain
  rw [same]
  refine ⟨safe.calm, ?_⟩
  rw [register_client]
  refine safe.sound.quiet ⟨.client, i⟩ grown holds ?_
  simp [clientView, phase.2]

theorem Safe.client_sent (safe : Safe book w) (distinct : DistinctHalves book) {i : Nat}
    {env env' : Env} (grown : Grown w.env env) {k : SegmentIndex} {body : Segment}
    (there : book[k.get.toNat]? = some body) (new : k ∉ env.issued .client)
    (more : Grown env env') (mem : k ∈ env'.issued .client)
    (waiting : (w.client i).phase = .helloSent) {h : ClientHandshake} {s : Session}
    (phase : h.phase = .confirmSent) (held : h.session = some s) (agreed : h.agreed = some s.ctx.segment)
    (role : s.ctx.role = .client) (domain : s.domain = s.ctx.nonceDomain)
    (active : s.terminated = none) (keys : s.keys = some (.split body)) {entry : Entry}
    (owner : entry.owner = ⟨.client, i⟩) (sealed : SealedWith s entry) {call : ClientCall}
    {outbox : List Message} :
    Safe book (w.clientReturned i call { env' with ledger := env'.ledger ++ [entry] }
      (.step (.send outbox), h)) := by
  have same : w.clientReturned i call { env' with ledger := env'.ledger ++ [entry] }
      (.step (.send outbox), h) =
      { w with
        client := Function.update w.client i h
        env := { env' with ledger := env'.ledger ++ [entry] }
        opened := Function.update w.opened ⟨.client, i⟩ (some s) } := by
    simp only [World.clientReturned, World.note, World.hand, phase, held]
    rfl
  have holds : Holds (some s) (clientView h) := by
    refine ⟨by simp [clientView, phase], ?_⟩
    intro s' is
    obtain rfl : s = s' := Option.some.inj (held.symm.trans is)
    refine ⟨rfl, by simp [Session.Coherent, active, keys], agreed, ?_⟩
    rw [role]
    rintro ⟨⟩
  have opened := safe.sound.opens ⟨.client, i⟩ distinct grown there new more mem
    (by simp [World.register, World.view, clientView, waiting]) role domain keys holds
    (by simp [clientView, phase])
  have sealed_ := opened.seals entry (by rw [owner]; exact Function.update_self ..) sealed
    (by rw [owner]; rintro ⟨⟩)
  rw [same]
  refine ⟨safe.calm, ?_⟩
  have shape := register_client { w with opened := Function.update w.opened ⟨.client, i⟩ (some s) } i
    { env' with ledger := env'.ledger ++ [entry] } h
  rw [shape]
  exact sealed_

theorem holds_done {opened : Option Session} {v : View} (ended : v.waiting = false)
    (burned : v.session = none) : Holds opened v where
  waiting now := by rw [ended] at now; cases now
  held s is := by rw [burned] at is; cases is

theorem Safe.client_established (safe : Safe book w) {i : Nat} {h : ClientHandshake}
    (phase : h.phase = .established) (burned : h.session = none) {o s : Session}
    (opened : w.opened ⟨.client, i⟩ = some o) (stems : Stems o s) (keys : s.keys = o.keys)
    {segment : SegmentIndex} (index : segment = o.ctx.segment) {entry : Entry}
    (mem : entry ∈ w.env.ledger) {confirm : Message} (accepted : AcceptedBy o confirm entry)
    {outbox : List Message} :
    Safe book (w.clientReturned i (.handle confirm) w.env
      (.step (.established outbox s segment), h)) := by
  have same : w.clientReturned i (.handle confirm) w.env (.step (.established outbox s segment), h) =
      { w with
        client := Function.update w.client i h
        established := Function.update w.established ⟨.client, i⟩ (some ⟨s, segment, confirm⟩)
        live := Function.update w.live ⟨.client, i⟩ (some s) } := by
    simp only [World.clientReturned, World.note, World.hand, World.received, phase]
    rfl
  have handed := safe.sound.establishes ⟨.client, i⟩ ⟨s, segment, confirm⟩ opened stems keys index
    mem accepted
  have idle := handed.quiet ⟨.client, i⟩ (Grown.refl _)
    (holds_done (by simp [clientView, phase]) burned : Holds _ (clientView h)) (fun _ => by simp)
  rw [same]
  refine ⟨safe.calm, ?_⟩
  have shape := register_client
    { w with
      established := Function.update w.established ⟨.client, i⟩ (some ⟨s, segment, confirm⟩)
      live := Function.update w.live ⟨.client, i⟩ (some s) } i w.env h
  rw [shape]
  exact idle

theorem client_call (safe : Safe book w) (distinct : DistinctHalves book) (i : Nat)
    (call : ClientCall) :
    (call.on (w.client i)).wp (host book ⟨.client, i⟩)
      (fun out env => Safe book (w.clientReturned i call env out)) (fun _ => False) w.env := by
  have holds : Holds (w.opened ⟨.client, i⟩) (clientView (w.client i)) := safe.sound.holds ⟨.client, i⟩
  cases call with
  | start =>
      rw [ClientCall.on, wp_bind]
      unfold ClientHandshake.start
      split
      · show Safe book (w.clientReturned i .start w.env (.refused _, { w.client i with phase := .failed }))
        refine safe.client_quiet (.refl _) ?_ ?_ rfl
        · exact ⟨nofun, holds.held⟩
        · exact ⟨nofun, nofun⟩
      · rename_i idle
        replace idle := not_not.mp idle
        have before := holds.waiting (by simp [clientView, idle])
        intro fate
        simp only [host]
        cases fate.random with
        | none =>
            show Safe book (w.clientReturned i .start w.env (.refused _, w.client i))
            refine safe.client_quiet (.refl _) holds ?_ rfl
            rw [idle]
            exact ⟨nofun, nofun⟩
        | some nonce =>
            show Safe book (w.clientReturned i .start w.env (.message _,
              { w.client i with clientNonce := some nonce, phase := .helloSent }))
            refine safe.client_quiet (.refl _) ?_ ?_ rfl
            · refine ⟨fun _ => before, ?_⟩
              intro s held
              exact absurd (before.1.symm.trans held) nofun
            · exact ⟨nofun, nofun⟩
  | abort reason =>
      show Safe book (w.clientReturned i _ w.env (.step _, ((w.client i).abort reason).2))
      refine safe.client_quiet (.refl _) (holds_done rfl rfl) ?_ rfl
      exact ⟨nofun, nofun⟩
  | handle msg =>
      have quiet : (w.client i).phase = .helloSent → (w.client i).session = none := by
        intro phase
        exact (holds.waiting (by simp [clientView, phase])).1
      have own : ∀ s, (w.client i).session = some s → s.Coherent ∧ s.ctx.role = .client := by
        intro s held
        obtain ⟨opened, coherent, -⟩ := holds.held s held
        exact ⟨coherent, (safe.sound.opened _ s opened).role⟩
      rw [ClientCall.on, wp_bind]
      apply ClientHandshake.wp_handle (Grown w.env) (.refl _) quiet own
      · intro e h' env dead grown
        show Safe book (w.clientReturned i _ env (.step _, h'))
        refine safe.client_quiet grown (holds_done ?_ dead.burned) ?_ rfl
        · rcases dead.ended with phase | phase <;> simp [clientView, phase]
        · rcases dead.ended with phase | phase <;> simp [phase]
      · intro fate env grown
        exact grown_issue grown ⟨.client, i⟩ fate
      · intro gap index clientNonce serverNonce phase _ fate env grown
        simp only [host]
        rcases issuer_cases book .client fate env with
          ⟨e, same⟩ | ⟨k, body, env', there, new, mem, more, same⟩
        · rw [same]
          exact trivial
        · rw [same]
          intro fate
          simp only [aead]
          cases fate.sealed with
          | none => exact grown.trans more
          | some given =>
              refine ⟨by simp [confirmBodyLen], ?_⟩
              refine safe.client_sent distinct grown there new more mem phase rfl rfl rfl rfl rfl rfl
                rfl rfl ?_
              exact ⟨_, _, _, rfl, rfl, rfl, rfl⟩
      · intro index session keys segmentIndex sessionNonce epoch seq sealed phase agreed held given
          is_confirm fate
        obtain ⟨opened, coherent, agrees, -⟩ := holds.held session held
        have role := (safe.sound.opened _ session opened).role
        generalize given_ : host book _ (.decrypt _ _ _ _ _) fate w.env = answer
        rcases answer with ⟨_ | _ | plaintext, env⟩
        · cases given_
        · have same : w.env = env := congrArg Prod.snd given_
          exact same ▸ .refl _
        · obtain ⟨rfl, entry, mem, key, nonce, aad, sealed_⟩ := host_decrypt given_
          refine ⟨.refl _, ?_⟩
          subst is_confirm
          show Safe book (w.clientReturned i _ w.env (.step (.established _ _ _),
            { w.client i with phase := .established, session := none }))
          have stems : Stems session { session with
              recvLast := session.recvLast.set .serverToClient (some .zero) } :=
            ⟨rfl, rfl, coherent, fun _ => id⟩
          refine safe.client_established ?_ ?_ opened stems rfl
            (Option.some.inj (agreed.symm.trans agrees)) mem ?_
          · rfl
          · rfl
          have incoming : session.ctx.role.sendDirection.opposite = .serverToClient := by
            rw [role]
            rfl
          refine ⟨keys, given, ?_⟩
          rw [incoming]
          exact ⟨key, nonce, aad, sealed_⟩

theorem safe_client (safe : Safe book w) (distinct : DistinctHalves book) (i : Nat)
    (call : ClientCall) (fates : List Fate) :
    Safe book (World.step book (.client i call fates) w) := by
  have ran := exec_of_wp (client_call safe distinct i call) fates
  simp only [World.step]
  revert ran
  rcases (call.on (w.client i)).exec (host book ⟨.client, i⟩) fates w.env with ⟨out | _ | _, env⟩
  · exact id
  · exact False.elim
  · exact False.elim

/-! ### A server's call -/

theorem register_server (w : World) (j : Nat) (env : Env) (h : ServerHandshake) :
    { w with env, server := Function.update w.server j h : World }.register =
      { w.register with env, view := Function.update w.view ⟨.server, j⟩ (serverView h) } := by
  unfold World.register
  congr
  funext ⟨role, index⟩
  cases role with
  | client => rfl
  | server =>
      by_cases this : index = j
      · subst this
        simp [World.view]
      · have other : (⟨.server, index⟩ : Party) ≠ ⟨.server, j⟩ := by simp [this]
        rw [Function.update_of_ne other]
        simp [World.view, this]

/-- A call that opens and establishes nothing. -/
theorem Safe.server_quiet (safe : Safe book w) {j : Nat} {env : Env} (grown : Grown w.env env)
    {h : ServerHandshake} (holds : Holds (w.opened ⟨.server, j⟩) (serverView h))
    (phase : h.phase ≠ .confirmWait ∧ h.phase ≠ .established) {call : ServerCall} {reply : CallReply}
    (plain : establishes reply = false) :
    Safe book (w.serverReturned j call env (reply, h)) := by
  have same : w.serverReturned j call env (reply, h) =
      { w with env, server := Function.update w.server j h } := by
    have untouched : ∀ w' : World, w'.note ⟨.server, j⟩ (h.phase = .confirmWait) h.session = w' :=
      fun w' => if_neg (by simpa using phase.1)
    simp only [World.serverReturned, untouched]
    exact hand_plain _ _ _ plain
  rw [same]
  refine ⟨safe.calm, ?_⟩
  rw [register_server]
  refine safe.sound.quiet ⟨.server, j⟩ grown holds ?_
  simp [serverView, phase.2]

/-- A segment was issued: the session is made. -/
theorem Safe.server_opened (safe : Safe book w) (distinct : DistinctHalves book) {j : Nat}
    {env : Env} {k : SegmentIndex} {body : Segment} (there : book[k.get.toNat]? = some body)
    (new : k ∉ w.env.issued .server) (more : Grown w.env env) (mem : k ∈ env.issued .server)
    (waiting : (w.server j).phase = .issueWait) {h : ServerHandshake} {ctx : SessionContext}
    (phase : h.phase = .confirmWait) (held : h.session = some (.new body ctx))
    (agreed : h.agreed = some ctx.segment) (role : ctx.role = .server) {call : ServerCall} :
    Safe book (w.serverReturned j call env (.step .awaitPeer, h)) := by
  have same : w.serverReturned j call env (.step .awaitPeer, h) =
      { w with
        server := Function.update w.server j h
        env := env
        opened := Function.update w.opened ⟨.server, j⟩ (some (.new body ctx)) } := by
    simp only [World.serverReturned, World.note, World.hand, phase, held]
    rfl
  have holds : Holds (some (Session.new body ctx)) (serverView h) := by
    refine ⟨by simp [serverView, phase], ?_⟩
    intro s' is
    obtain rfl : Session.new body ctx = s' := Option.some.inj (held.symm.trans is)
    exact ⟨rfl, Session.coherent_new _ _, agreed, fun _ => Session.nextSend_new _ _⟩
  have opened := safe.sound.opens ⟨.server, j⟩ distinct (.refl _) there new more mem
    (by simp [World.register, World.view, serverView, waiting]) role rfl rfl holds
    (by simp [serverView, phase])
  rw [same]
  refine ⟨safe.calm, ?_⟩
  have shape := register_server
    { w with opened := Function.update w.opened ⟨.server, j⟩ (some (.new body ctx)) } j env h
  rw [shape]
  exact opened

/-- The client's CONFIRM was accepted and the server's own sealed. -/
theorem Safe.server_established (safe : Safe book w) {j : Nat} {h : ServerHandshake}
    (phase : h.phase = .established) (burned : h.session = none) {o s : Session}
    (opened : w.opened ⟨.server, j⟩ = some o) (stems : Stems o s) (keys : s.keys = o.keys)
    {segment : SegmentIndex} (index : segment = o.ctx.segment) {entry own : Entry}
    (mem : entry ∈ w.env.ledger) {confirm : Message} (accepted : AcceptedBy o confirm entry)
    (owner : own.owner = ⟨.server, j⟩) (sealed : SealedWith o own) {outbox : List Message} :
    Safe book (w.serverReturned j (.onConfirm confirm)
      { w.env with ledger := w.env.ledger ++ [own] } (.step (.established outbox s segment), h)) := by
  have same : w.serverReturned j (.onConfirm confirm) { w.env with ledger := w.env.ledger ++ [own] }
      (.step (.established outbox s segment), h) =
      { w with
        server := Function.update w.server j h
        env := { w.env with ledger := w.env.ledger ++ [own] }
        established := Function.update w.established ⟨.server, j⟩ (some ⟨s, segment, confirm⟩)
        live := Function.update w.live ⟨.server, j⟩ (some s) } := by
    simp only [World.serverReturned, World.note, World.hand, World.received, phase]
    rfl
  have handed := safe.sound.establishes ⟨.server, j⟩ ⟨s, segment, confirm⟩ opened stems keys index
    mem accepted
  have idle := handed.quiet ⟨.server, j⟩ (Grown.refl _)
    (holds_done (by simp [serverView, phase]) burned : Holds _ (serverView h)) (fun _ => by simp)
  have signed := idle.seals own (by rw [owner]; exact opened) sealed
    (fun _ => by rw [owner]; simp)
  rw [same]
  refine ⟨safe.calm, ?_⟩
  have shape := register_server
    { w with
      established := Function.update w.established ⟨.server, j⟩ (some ⟨s, segment, confirm⟩)
      live := Function.update w.live ⟨.server, j⟩ (some s) } j
    { w.env with ledger := w.env.ledger ++ [own] } h
  rw [shape]
  exact signed

theorem server_call (safe : Safe book w) (distinct : DistinctHalves book) (j : Nat)
    (call : ServerCall) :
    (call.on (w.server j)).wp (host book ⟨.server, j⟩)
      (fun out env => Safe book (w.serverReturned j call env out)) (fun _ => False) w.env := by
  have holds : Holds (w.opened ⟨.server, j⟩) (serverView (w.server j)) := safe.sound.holds ⟨.server, j⟩
  have own : ∀ s, (w.server j).session = some s →
      s.Coherent ∧ s.ctx.role = .server ∧ s.nextSend = .zero := by
    intro s held
    obtain ⟨opened, coherent, -, first⟩ := holds.held s held
    have role := (safe.sound.opened _ s opened).role
    exact ⟨coherent, role, first role⟩
  have failed : ∀ (reply : CallReply) h' env, h'.Dead → Grown w.env env → establishes reply = false →
      Safe book (w.serverReturned j call env (reply, h')) := by
    intro reply h' env dead grown plain
    refine safe.server_quiet grown (holds_done ?_ dead.burned) ?_ plain
    · rcases dead.ended with phase | phase <;> simp [serverView, phase]
    · rcases dead.ended with phase | phase <;> simp [phase]
  cases call with
  | abort reason => exact failed _ _ _ ⟨.inl rfl, rfl⟩ (.refl _) rfl
  | onHello hello =>
      have quiet : (w.server j).phase = .idle → (w.server j).session = none := by
        intro phase
        exact (holds.waiting (by simp [serverView, phase])).1
      rw [ServerCall.on, wp_bind]
      apply ServerHandshake.wp_onHello quiet
      · intro e h' dead
        exact failed _ _ _ dead (.refl _) rfl
      · intro bookId clientNonce clientPointer features idle _ fate
        have before := holds.waiting (by simp [serverView, idle])
        simp only [host]
        cases fate.random with
        | none =>
            show Safe book (w.serverReturned j _ w.env (.refused _,
              { w.server j with clientNonce := some clientNonce }))
            refine safe.server_quiet (.refl _) ?_ ?_ rfl
            · exact ⟨fun _ => before, holds.held⟩
            · show (w.server j).phase ≠ _ ∧ (w.server j).phase ≠ _
              rw [idle]
              exact ⟨nofun, nofun⟩
        | some nonce =>
            rintro m h' (⟨phase, burned⟩ | dead)
            · show Safe book (w.serverReturned j _ w.env (.message _, h'))
              refine safe.server_quiet (.refl _) ⟨fun _ => ⟨burned, before.2⟩, ?_⟩ ?_ rfl
              · intro s held
                exact absurd (burned.symm.trans held) nofun
              · rw [phase]
                exact ⟨nofun, nofun⟩
            · exact failed _ _ _ dead (.refl _) rfl
  | onIssueRequest req =>
      have quiet : (w.server j).phase = .issueWait → (w.server j).session = none := by
        intro phase
        exact (holds.waiting (by simp [serverView, phase])).1
      rw [ServerCall.on, wp_bind]
      apply ServerHandshake.wp_onIssueRequest (Grown w.env) (.refl _) quiet
      · intro e h' env dead grown
        exact failed _ _ _ dead grown rfl
      · intro i clientNonce serverNonce phase agreed client server fate
        simp only [host]
        rcases issuer_cases book .server fate w.env with
          ⟨e, same⟩ | ⟨k, body, env, there, new, mem, more, same⟩
        · rw [same]
          exact .refl _
        · rw [same]
          exact safe.server_opened distinct there new more mem phase rfl rfl agreed rfl
  | onConfirm confirm =>
      rw [ServerCall.on, wp_bind]
      apply ServerHandshake.wp_onConfirm (Grown w.env) (.refl _) own
      · intro e h' env dead grown
        exact failed _ _ _ dead grown rfl
      · intro i clientNonce serverNonce session keys segmentIndex sessionNonce epoch seq sealed phase
          agreed client server held given is_confirm fate
        obtain ⟨opened, coherent, agrees, -⟩ := holds.held session held
        have role := (safe.sound.opened _ session opened).role
        generalize given_ : host book ⟨.server, j⟩ (.decrypt _ _ _ _ _) fate w.env = answer
        rcases answer with ⟨_ | _ | plaintext, env⟩
        · cases given_
        · have same : w.env = env := congrArg Prod.snd given_
          exact same ▸ .refl _
        · obtain ⟨rfl, entry, mem, key, nonce, aad, sealed_⟩ := host_decrypt given_
          refine ⟨.refl _, ?_⟩
          intro fate
          simp only [host, aead]
          cases fate.sealed with
          | none => exact .refl _
          | some given_ =>
              refine ⟨by simp [confirmBodyLen], ?_⟩
              subst is_confirm
              show Safe book (w.serverReturned j _ _ (.step (.established _ _ _),
                { w.server j with phase := .established, session := none }))
              have stems : Stems session { session with
                  recvLast := session.recvLast.set .clientToServer (some .zero)
                  sendSeq := session.sendSeq.set .serverToClient ⟨1⟩ } :=
                ⟨rfl, rfl, coherent, fun _ => id⟩
              have outgoing : session.ctx.role.sendDirection = .serverToClient := by
                rw [role]
                rfl
              refine safe.server_established ?_ ?_ opened stems rfl
                (Option.some.inj (agreed.symm.trans agrees)) mem ?_ ?_ ?_
              · rfl
              · rfl
              · refine ⟨keys, given, ?_⟩
                rw [outgoing]
                exact ⟨key, nonce, aad, sealed_⟩
              · rfl
              · refine ⟨keys, .serverConfirm, .zero, given, ?_⟩
                rw [outgoing]
                exact ⟨rfl, rfl, rfl⟩

theorem safe_server (safe : Safe book w) (distinct : DistinctHalves book) (j : Nat)
    (call : ServerCall) (fates : List Fate) :
    Safe book (World.step book (.server j call fates) w) := by
  have ran := exec_of_wp (server_call safe distinct j call) fates
  simp only [World.step]
  revert ran
  rcases (call.on (w.server j)).exec (host book ⟨.server, j⟩) fates w.env with ⟨out | _ | _, env⟩
  · exact id
  · exact False.elim
  · exact False.elim

/-! ### A session in use -/

theorem Stems.terminate {o s : Session} (stems : Stems o s) (reason : Termination) :
    Stems o (s.terminate reason) :=
  ⟨stems.ctx, stems.domain, Session.coherent_terminate s reason, nofun⟩

theorem Stems.close {o s : Session} (stems : Stems o s) : Stems o s.close := by
  unfold Session.close
  split
  · exact stems.terminate .closed
  · exact stems

theorem Stems.sealedAfter {o s : Session} (stems : Stems o s) (reply : Option (Bytes × Tag)) :
    Stems o (s.sealedAfter reply).2 := by
  cases reply with
  | none => exact stems.terminate .authentication
  | some _ =>
      unfold Session.sealedAfter
      dsimp only
      split
      · exact ⟨stems.ctx, stems.domain, stems.coherent, stems.keys⟩
      · exact stems.terminate .sequenceOverflow

theorem Stems.openedAfter {o s : Session} (stems : Stems o s) (seq : Sequence)
    (reply : Option Bytes) : Stems o (s.openedAfter seq reply).2 := by
  cases reply with
  | none => exact stems.terminate .authentication
  | some _ => exact ⟨stems.ctx, stems.domain, stems.coherent, stems.keys⟩

theorem Safe.used (safe : Safe book w) {p : Party} {o s : Session} (there : w.established p ≠ none)
    (opened : w.opened p = some o) (stems : Stems o s) :
    Safe book { w with live := Function.update w.live p (some s) } :=
  ⟨safe.calm, safe.sound.uses p there opened stems⟩

theorem safe_seal (safe : Safe book w) (p : Party) (mt : MessageType) (plaintext : Bytes)
    (fates : List Fate) : Safe book (World.step book (.seal p mt plaintext fates) w) := by
  simp only [World.step]
  cases live : w.live p with
  | none => exact safe
  | some s =>
      obtain ⟨there, o, opened, stems⟩ := safe.sound.live p s live
      have call : (s.seal mt plaintext).wp (host book p)
          (fun out env => Safe book { w with env, live := Function.update w.live p (some out.2) })
          (fun _ => False) w.env := by
        apply Session.wp_seal stems.coherent
        · intro e _
          exact safe.used there opened stems
        · intro e reason _ _
          exact safe.used there opened (stems.terminate reason)
        · intro keys _ held _ fate
          simp only [host, aead]
          cases fate.sealed with
          | none => exact safe.used there opened (stems.sealedAfter none)
          | some given =>
              have after := (safe.used there opened (stems.sealedAfter (some
                (fitted given.1 plaintext.length, given.2)))).sound
              refine ⟨safe.calm, after.seals _ opened ?_ fun _ => there⟩
              refine ⟨keys, mt, s.nextSend, stems.keys keys held, ?_⟩
              rw [stems.ctx, stems.domain]
              exact ⟨rfl, rfl, rfl⟩
      have ran := exec_of_wp call fates
      dsimp only
      revert ran
      rcases (s.seal mt plaintext).exec (host book p) fates w.env with ⟨out | _ | _, env⟩
      · exact id
      · exact False.elim
      · exact False.elim

theorem safe_open (safe : Safe book w) (p : Party) (mt : MessageType) (seq : Sequence)
    (sealed : Bytes) (fates : List Fate) :
    Safe book (World.step book (.open p mt seq sealed fates) w) := by
  simp only [World.step]
  cases live : w.live p with
  | none => exact safe
  | some s =>
      obtain ⟨there, o, opened, stems⟩ := safe.sound.live p s live
      have call : (s.open mt seq sealed).wp (host book p)
          (fun out env => Safe book { w with env, live := Function.update w.live p (some out.2) })
          (fun _ => False) w.env := by
        apply Session.wp_open stems.coherent
        · intro e _
          exact safe.used there opened stems
        · intro e reason _ _
          exact safe.used there opened (stems.terminate reason)
        · intro keys _ _ _ fate
          exact safe.used there opened (stems.openedAfter seq _)
      have ran := exec_of_wp call fates
      dsimp only
      revert ran
      rcases (s.open mt seq sealed).exec (host book p) fates w.env with ⟨out | _ | _, env⟩
      · exact id
      · exact False.elim
      · exact False.elim

theorem safe_step (distinct : DistinctHalves book) (event : Event) (w : World)
    (safe : Safe book w) : Safe book (World.step book event w) := by
  cases event with
  | client i call fates => exact safe_client safe distinct i call fates
  | server j call fates => exact safe_server safe distinct j call fates
  | «seal» p mt plaintext fates => exact safe_seal safe p mt plaintext fates
  | «open» p mt seq sealed fates => exact safe_open safe p mt seq sealed fates
  | close p =>
      simp only [World.step]
      cases live : w.live p with
      | none => exact safe
      | some s =>
          obtain ⟨there, o, opened, stems⟩ := safe.sound.live p s live
          exact safe.used there opened stems.close

theorem safe_initial (clientCfg : Nat → ClientConfig) (serverCfg : Nat → ServerConfig) :
    Safe book (World.initial clientCfg serverCfg) := by
  refine ⟨rfl, ?_, ?_, ?_, ?_, ?_, ?_, ?_⟩
  · rintro ⟨role, index⟩
    cases role <;> exact ⟨fun _ => ⟨rfl, rfl⟩, fun s held => by cases held⟩
  · rintro ⟨role, index⟩ ended
    cases role <;> cases ended
  · intro p s is
    cases is
  · intro p p' s s' is
    cases is
  · intro entry mem
    cases mem
  · intro p e is
    cases is
  · intro p s is
    cases is

theorem safe_run (distinct : DistinctHalves book) (clientCfg : Nat → ClientConfig)
    (serverCfg : Nat → ServerConfig) (events : List Event) :
    Safe book (run (World.step book) events (World.initial clientCfg serverCfg)) :=
  run_invariant (World.step book) (safe_step distinct) events (safe_initial clientCfg serverCfg)

end Steps

/-! ## Agreement -/

/-- The party sealed the CONFIRM that was accepted. -/
def World.SealedBy (w : World) (p : Party) (e : Established) : Prop :=
  ∃ entry ∈ w.env.ledger, entry.owner = p ∧ AcceptedBy e.session e.confirm entry

/-- Two sessions over one segment, as the two ends of it. -/
structure Agree (book : List Segment) (a b : Session) : Prop where
  segment : a.ctx.segment = b.ctx.segment
  bookId : a.ctx.bookId = b.ctx.bookId
  clientNonce : a.ctx.clientNonce = b.ctx.clientNonce
  serverNonce : a.ctx.serverNonce = b.ctx.serverNonce
  body : ∃ (k : Nat) (body : Segment), book[k]? = some body ∧ a.keys = some (.split body) ∧ b.keys = some (.split body)
  directions : a.ctx.role.sendDirection = b.ctx.role.sendDirection.opposite

section Agreement

variable {book : List Segment}

theorem Agree.symm {a b : Session} (agree : Agree book a b) : Agree book b a where
  segment := agree.segment.symm
  bookId := agree.bookId.symm
  clientNonce := agree.clientNonce.symm
  serverNonce := agree.serverNonce.symm
  body := by
    obtain ⟨k, body, there, left, right⟩ := agree.body
    exact ⟨k, body, there, right, left⟩
  directions := by rw [agree.directions, Direction.opposite_opposite]

theorem Agree.keys {a b : Session} (agree : Agree book a b) : a.keys = b.keys := by
  obtain ⟨_, _, -, left, right⟩ := agree.body
  rw [left, right]

/-- What was made of a session binds what the session binds. -/
theorem Agree.stems {a o b : Session} (agree : Agree book a o) (stems : Stems o b)
    (keys : b.keys = o.keys) : Agree book a b where
  segment := by rw [stems.ctx]; exact agree.segment
  bookId := by rw [stems.ctx]; exact agree.bookId
  clientNonce := by rw [stems.ctx]; exact agree.clientNonce
  serverNonce := by rw [stems.ctx]; exact agree.serverNonce
  body := by rw [keys]; exact agree.body
  directions := by rw [stems.ctx]; exact agree.directions

theorem Agree.of_stems {a o b : Session} (agree : Agree book a b) (stems : Stems o b)
    (keys : b.keys = o.keys) : Agree book a o where
  segment := by rw [← stems.ctx]; exact agree.segment
  bookId := by rw [← stems.ctx]; exact agree.bookId
  clientNonce := by rw [← stems.ctx]; exact agree.clientNonce
  serverNonce := by rw [← stems.ctx]; exact agree.serverNonce
  body := by rw [← keys]; exact agree.body
  directions := by rw [← stems.ctx]; exact agree.directions

theorem AcceptedBy.stems {o s : Session} {confirm : Message} {entry : Entry} (stems : Stems o s)
    (keys : s.keys = o.keys) : AcceptedBy s confirm entry ↔ AcceptedBy o confirm entry := by
  unfold AcceptedBy
  rw [keys, stems.ctx, stems.domain]

/-- **Whoever sealed what a session accepts is its other end.** The key names the half of
one segment, and the associated data names the rest. -/
theorem agree_of_sealed (distinct : DistinctHalves book) {env : Env} {p q : Party} {o s : Session}
    (opened : OpenedBy book env p o) (peer : OpenedBy book env q s) {entry : Entry}
    (sealed : SealedWith s entry) {confirm : Message} (accepted : AcceptedBy o confirm entry) :
    Agree book s o := by
  obtain ⟨keys, mt, seq, given, key, -, aad⟩ := sealed
  obtain ⟨keys', given', key', -, aad', -⟩ := accepted
  obtain ⟨k, body, -, there, split⟩ := peer.body
  obtain ⟨k', body', -, there', split'⟩ := opened.body
  obtain rfl : keys = .split body := Option.some.inj (given.symm.trans split)
  obtain rfl : keys' = .split body' := Option.some.inj (given'.symm.trans split')
  obtain ⟨index, direction⟩ := distinct _ _ _ _ _ _ there there' (key.symm.trans key')
  rw [index] at there
  obtain rfl : body = body' := Option.some.inj (there.symm.trans there')
  obtain ⟨-, -, bookId, segment, clientNonce, serverNonce, -, -⟩ :=
    SessionContext.buildAad_inj (aad.symm.trans aad')
  exact ⟨segment, bookId, clientNonce, serverNonce, ⟨_, body, there', split, split'⟩, direction⟩

variable {r : Register}

/-- Two instances that both agree with one session are one instance. -/
theorem Sound.other_end_unique (sound : Sound book r) {p q : Party} {a b s : Session}
    (left : r.opened p = some a) (right : r.opened q = some b) (agree : Agree book a s)
    (agree' : Agree book b s) : p = q := by
  have same : a.ctx.role = b.ctx.role :=
    Role.sendDirection_inj.mp (agree.directions.trans agree'.directions.symm)
  refine sound.apart p q a b left right ?_ (agree.keys.trans agree'.keys.symm)
  rw [← (sound.opened p a left).role, ← (sound.opened q b right).role, same]

/-- The other end of an established session: one instance sealed the CONFIRM. -/
theorem Sound.other_end (sound : Sound book r) (distinct : DistinctHalves book) {p : Party}
    {e : Established} (is : r.established p = some e) :
    ∃ q c, q.role ≠ p.role ∧ r.opened q = some c ∧ Agree book c e.session ∧
      e.segment = c.ctx.segment ∧ (q.role = .server → r.established q ≠ none) ∧
      ∀ q', (∃ entry ∈ r.env.ledger, entry.owner = q' ∧ AcceptedBy e.session e.confirm entry) ↔
        q' = q := by
  obtain ⟨o, opened, stems, keys, segment, entry, mem, accepted⟩ := sound.established p e is
  have mine := sound.opened p o opened
  obtain ⟨c, theirs, sealed, server⟩ := sound.ledger entry mem
  have agree := agree_of_sealed distinct mine (sound.opened _ c theirs) sealed accepted
  refine ⟨entry.owner, c, ?_, theirs, agree.stems stems keys, ?_, server, ?_⟩
  · intro same
    have direction := agree.directions
    rw [(sound.opened _ c theirs).role, mine.role, same] at direction
    exact Direction.opposite_ne _ direction.symm
  · rw [segment, agree.segment]
  · intro q'
    constructor
    · rintro ⟨entry', mem', rfl, accepted'⟩
      rw [AcceptedBy.stems stems keys] at accepted'
      obtain ⟨c', theirs', sealed', -⟩ := sound.ledger entry' mem'
      have agree' := agree_of_sealed distinct mine (sound.opened _ c' theirs') sealed' accepted'
      exact sound.other_end_unique theirs' theirs agree' agree
    · rintro rfl
      exact ⟨entry, mem, rfl, (AcceptedBy.stems stems keys).mpr accepted⟩

theorem Party.eq_client {q : Party} (role : q.role ≠ .server) : q = ⟨.client, q.index⟩ := by
  obtain ⟨role', index⟩ := q
  cases role' with
  | client => rfl
  | server => exact absurd rfl role

theorem Party.eq_server {q : Party} (role : q.role ≠ .client) : q = ⟨.server, q.index⟩ := by
  obtain ⟨role', index⟩ := q
  cases role' with
  | client => exact absurd rfl role
  | server => rfl

/-- The CONFIRM a server accepted was sealed by one instance, a client that holds the other
end. -/
theorem Sound.server_agrees (sound : Sound book r) (distinct : DistinctHalves book) {j : Nat}
    {e : Established} (is : r.established ⟨.server, j⟩ = some e) :
    ∃ i c, (∀ p, (∃ entry ∈ r.env.ledger, entry.owner = p ∧
        AcceptedBy e.session e.confirm entry) ↔ p = ⟨.client, i⟩) ∧
      r.opened ⟨.client, i⟩ = some c ∧ Agree book c e.session ∧ e.segment = c.ctx.segment := by
  obtain ⟨q, c, other, opened, agree, segment, -, only⟩ := sound.other_end distinct is
  rw [Party.eq_client other] at opened only
  exact ⟨q.index, c, only, opened, agree, segment⟩

/-- One server holds the other end of what a client established. -/
theorem Sound.client_agrees (sound : Sound book r) (distinct : DistinctHalves book) {i : Nat}
    {e : Established} (is : r.established ⟨.client, i⟩ = some e) :
    ∃! j, ∃ e', r.established ⟨.server, j⟩ = some e' ∧ Agree book e.session e'.session ∧
      e'.segment = e.segment := by
  obtain ⟨q, c, other, opened, agree, segment, there, -⟩ := sound.other_end distinct is
  have server := Party.eq_server other
  rw [server] at opened there
  obtain ⟨e', is'⟩ := Option.ne_none_iff_exists'.mp (there rfl)
  obtain ⟨o, opened', stems, keys, segment', -⟩ := sound.established _ e' is'
  obtain rfl : c = o := Option.some.inj (opened.symm.trans opened')
  refine ⟨q.index, ⟨e', is', agree.symm.stems stems keys, segment'.trans segment.symm⟩, ?_⟩
  rintro j ⟨e'', is'', agree'', -⟩
  obtain ⟨o'', opened'', stems'', keys'', -⟩ := sound.established _ e'' is''
  have back : Agree book o'' e.session := (agree''.of_stems stems'' keys'').symm
  exact congrArg Party.index (sound.other_end_unique opened'' opened back agree)

end Agreement

/-- **Agreement.** Whatever the network does, in every state of every run: the CONFIRM that
an established server accepted was sealed by one instance, a client with the same segment,
body, book and nonces; and for an established client one server, and no other, has
established the same. The two hold the same keys and send in opposite directions. -/
theorem handshake_agreement (book : List Segment) (distinct : DistinctHalves book)
    (clientCfg : Nat → ClientConfig) (serverCfg : Nat → ServerConfig) (events : List Event) :
    let w := run (World.step book) events (World.initial clientCfg serverCfg)
    w.panicked = false ∧
    (∀ i, (w.client i).phase = .established → ∃ e, w.established ⟨.client, i⟩ = some e) ∧
    (∀ j, (w.server j).phase = .established → ∃ e, w.established ⟨.server, j⟩ = some e) ∧
    (∀ j e, w.established ⟨.server, j⟩ = some e →
      ∃ i c, (∀ p, w.SealedBy p e ↔ p = ⟨.client, i⟩) ∧ w.opened ⟨.client, i⟩ = some c ∧
        Agree book c e.session ∧ e.segment = c.ctx.segment) ∧
    (∀ i e, w.established ⟨.client, i⟩ = some e →
      ∃! j, ∃ e', w.established ⟨.server, j⟩ = some e' ∧ Agree book e.session e'.session ∧
        e'.segment = e.segment) := by
  intro w
  have safe : Safe book w := safe_run distinct clientCfg serverCfg events
  refine ⟨safe.calm, ?_, ?_, ?_, ?_⟩
  · intro i phase
    have done := safe.sound.done ⟨.client, i⟩
      (by simp [World.register, World.view, clientView, phase])
    exact Option.ne_none_iff_exists'.mp done
  · intro j phase
    have done := safe.sound.done ⟨.server, j⟩
      (by simp [World.register, World.view, serverView, phase])
    exact Option.ne_none_iff_exists'.mp done
  · intro j e is
    exact safe.sound.server_agrees distinct is
  · intro i e is
    exact safe.sound.client_agrees distinct is

/-! ## One handshake, and a HELLO replayed into it -/

/-- A book of one segment: a half of ones and a half of twos. -/
def oneBook : List Segment := [⟨List.replicate 32 1 ++ List.replicate 32 2, by decide⟩]

theorem oneBook_get {k : Nat} {body : Segment} (there : oneBook[k]? = some body) :
    k = 0 ∧ body = ⟨List.replicate 32 1 ++ List.replicate 32 2, by decide⟩ := by
  cases k with
  | zero => exact ⟨rfl, (Option.some.inj there).symm⟩
  | succ k => cases there

theorem distinctHalves_oneBook : DistinctHalves oneBook := by
  intro k k' body body' d d' there there' same
  obtain ⟨rfl, rfl⟩ := oneBook_get there
  obtain ⟨rfl, rfl⟩ := oneBook_get there'
  refine ⟨rfl, ?_⟩
  cases d <;> cases d' <;> first | rfl | exact absurd same (by decide)

/-- Every client starts at the first segment, and so does every server. -/
def oneClient : Nat → ClientConfig := fun _ => ⟨.v2, ⟨.replicate 16 3⟩, .zero, 1⟩

def oneServer : Nat → ServerConfig := fun _ => ⟨.v2, ⟨.replicate 16 3⟩, .zero, 1⟩

/-- A handshake of client 0 with server 0. What `replayed` makes of its HELLO reaches the
server before the client has the last message. -/
def oneHandshake (replayed : Message → List Event) : List Event :=
  let clientNonce : Nonce16 := .replicate 16 7
  let serverNonce : Nonce16 := .replicate 16 8
  let sessionNonce : Nonce16 := .replicate 16 15
  let fates : List Fate :=
    [⟨none, true, some clientNonce, .ok .zero⟩, ⟨some ([], .replicate 16 9), true, none, .error .io⟩]
  let sealed : Exactly 103 := ⟨List.replicate 87 0 ++ List.replicate 16 9, by decide⟩
  let hello : Message := .hello ⟨.replicate 16 3⟩ clientNonce .zero ⟨0⟩
  [.client 0 .start fates,
    .server 0 (.onHello hello) [⟨none, true, some serverNonce, .error .io⟩],
    .client 0 (.handle (.arbitrate serverNonce .zero .ok)) fates,
    .server 0 (.onIssueRequest (.issueRequest .zero clientNonce serverNonce)) fates,
    .server 0 (.onConfirm (.confirmC2s .zero sessionNonce ⟨0⟩ .zero sealed)) fates]
  ++ replayed hello
  ++ [.client 0 (.handle (.confirmS2c .zero sessionNonce ⟨0⟩ .zero sealed)) fates]

theorem handshake_agreement_one :
    DistinctHalves oneBook ∧
    let w := run (World.step oneBook) (oneHandshake fun _ => []) (World.initial oneClient oneServer)
    (w.client 0).phase = .established ∧ (w.server 0).phase = .established ∧
    (∀ e, w.established ⟨.server, 0⟩ = some e →
      ∃ i c, (∀ p, w.SealedBy p e ↔ p = ⟨.client, i⟩) ∧ w.opened ⟨.client, i⟩ = some c ∧
        Agree oneBook c e.session ∧ e.segment = c.ctx.segment) ∧
    (∀ e, w.established ⟨.client, 0⟩ = some e →
      ∃! j, ∃ e', w.established ⟨.server, j⟩ = some e' ∧ Agree oneBook e.session e'.session ∧
        e'.segment = e.segment) := by
  obtain ⟨-, -, -, server, client⟩ := handshake_agreement oneBook distinctHalves_oneBook oneClient
    oneServer (oneHandshake fun _ => [])
  exact ⟨distinctHalves_oneBook, by decide +kernel, by decide +kernel, server 0, client 0⟩

theorem World.server_hand (w : World) (p : Party) (m : Option Message) (reply : CallReply) :
    (w.hand p m reply).server = w.server := by
  unfold World.hand
  split
  · split <;> rfl
  · rfl

theorem World.server_note (w : World) (p : Party) (now : Bool) (session : Option Session) :
    (w.note p now session).server = w.server := by
  unfold World.note
  split <;> rfl

/-- A server moves in its own calls only. -/
theorem World.server_step {book : List Segment} {w : World} {event : Event} {j : Nat}
    (other : ∀ call fates, event ≠ .server j call fates) :
    (World.step book event w).server j = w.server j := by
  cases event with
  | client i call fates =>
      simp only [World.step]
      split
      · simp only [World.clientReturned, World.server_hand, World.server_note]
      · rfl
      · rfl
  | server j' call fates =>
      have apart : j ≠ j' := by
        rintro rfl
        exact other call fates rfl
      simp only [World.step]
      split
      · simp only [World.serverReturned, World.server_hand, World.server_note]
        exact Function.update_of_ne apart _ _
      · rfl
      · rfl
  | «seal» p mt plaintext fates =>
      simp only [World.step]
      split
      · rfl
      · split <;> rfl
  | «open» p mt seq sealed fates =>
      simp only [World.step]
      split
      · rfl
      · split <;> rfl
  | close p =>
      simp only [World.step]
      split <;> rfl

theorem World.server_run {book : List Segment} {j : Nat} (events : List Event) {w : World}
    (other : ∀ event ∈ events, ∀ call fates, event ≠ .server j call fates) :
    (run (World.step book) events w).server j = w.server j := by
  induction events generalizing w with
  | nil => rfl
  | cons event rest ih =>
      rw [run, ih fun event' mem => other event' (List.mem_cons_of_mem _ mem)]
      exact World.server_step (other event List.mem_cons_self)

/-- The client's HELLO, replayed to the server that has just established: the server takes
it as out of order and goes to Failed, and then the client establishes. -/
theorem replayed_hello_unseats_server :
    DistinctHalves oneBook ∧
    let w := run (World.step oneBook) (oneHandshake fun hello => [.server 0 (.onHello hello) []])
      (World.initial oneClient oneServer)
    (w.client 0).phase = .established ∧ ∀ j, (w.server j).phase ≠ .established := by
  refine ⟨distinctHalves_oneBook, by decide +kernel, ?_⟩
  intro j
  cases j with
  | zero => decide +kernel
  | succ j =>
      rw [World.server_run]
      · nofun
      · simp [oneHandshake]

end Jbuu.Handshake
