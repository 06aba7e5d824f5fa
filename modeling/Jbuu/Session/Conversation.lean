/-
# Session.Conversation — two sessions that match, and a channel that keeps the order

Two sessions over one segment, each of which expects the record the other seals next. Either may
seal at any time, and the channel hands each end the other's records one by one, unchanged and in
order. An end of the conversation stops listening only by a sealing of its own: by its last
sequence number, or by a call that `seal` refuses. Until then it has opened every record it was
handed, to the plaintext that was sealed, and an end that seals nothing never stops
(`Matched.understood`).

`Steady` is the invariant: the records of an end have consecutive sequences and are what the
cipher made of their plaintexts, and an active end expects the first it has not been handed.
-/
import Jbuu.Library.ChaCha20Poly1305
import Jbuu.Library.Layers
import Jbuu.Session.Channel

namespace Jbuu

set_option autoImplicit false

open Jbuu.Library.BigEndian (Bytes Exactly)
open Jbuu.Library
open Jbuu.Library.Program (returns_of_service)

/-! ## The cipher -/

/-- The authenticated cipher of the sessions. -/
structure Cipher where
  encrypt : DirectionKey → Nonce96 → Bytes → Bytes → Option (Bytes × Tag)
  decrypt : DirectionKey → Nonce96 → Bytes → Bytes → Tag → Option Bytes

namespace Cipher

/-- What the sessions rely on. -/
structure Lawful (cipher : Cipher) : Prop where
  opens : ∀ {key nonce aad plaintext ciphertext tag},
    cipher.encrypt key nonce aad plaintext = some (ciphertext, tag) →
      cipher.decrypt key nonce aad ciphertext tag = some plaintext
  length : ∀ {key nonce aad plaintext ciphertext tag},
    cipher.encrypt key nonce aad plaintext = some (ciphertext, tag) →
      ciphertext.length = plaintext.length
  /-- Only a text with more blocks than the counter has is refused. -/
  seals : ∀ key nonce aad plaintext, plaintext.length / 64 < 2 ^ 32 - 1 →
    cipher.encrypt key nonce aad plaintext ≠ none

def chaCha20Poly1305 : Cipher where
  encrypt := ChaCha20Poly1305.encrypt
  decrypt := ChaCha20Poly1305.decrypt

theorem lawful_chaCha20Poly1305 : chaCha20Poly1305.Lawful where
  opens := ChaCha20Poly1305.decrypt_encrypt
  length := ChaCha20Poly1305.length_of_encrypt
  seals _ _ _ _ := ChaCha20Poly1305.encrypt_ne_none

/-- The host of a session, which asks for neither random bytes nor a segment. -/
def host (cipher : Cipher) : Service HostOp HostReply Unit
  | .encrypt key nonce aad plaintext, s => (cipher.encrypt key nonce aad plaintext, s)
  | .decrypt key nonce aad ciphertext tag, s => (cipher.decrypt key nonce aad ciphertext tag, s)
  | .csprng16, s => (none, s)
  | .issue, s => (.error .lockUnavailable, s)

end Cipher

/-! ## The conversation -/

/-- An end of the conversation. -/
structure Speaker where
  session : Session
  /-- The records `seal` returned. -/
  sent : List Note
  /-- How many records were handed over. -/
  heard : Nat
  /-- What `open` returned of them. -/
  opened : List (Except SessionError Bytes)
  /-- After a call of `seal` the session had ended. -/
  ended : Bool
  deriving DecidableEq

section

variable (cipher : Cipher)

def Speaker.seal (s : Speaker) (mt : MessageType) (plaintext : Bytes) : Speaker :=
  match (s.session.seal mt plaintext).exec cipher.host.device [] () with
  | (.returned (.ok record, session), _) =>
      { s with
        session
        sent := s.sent ++ [{ mt, sequence := record.sequence, plaintext, sealed := record.sealed }]
        ended := s.ended || session.terminated.isSome }
  | (.returned (.error _, session), _) =>
      { s with session, ended := s.ended || session.terminated.isSome }
  | _ => s

def Speaker.receive (s : Speaker) (note : Note) : Speaker :=
  match (s.session.open note.mt note.sequence note.sealed).exec cipher.host.device [] () with
  | (.returned (opened, session), _) =>
      { s with session, heard := s.heard + 1, opened := s.opened ++ [opened] }
  | _ => { s with heard := s.heard + 1 }

end

abbrev Conversation := Role → Speaker

namespace Conversation

inductive Event where
  | say (role : Role) (mt : MessageType) (plaintext : Bytes)
  /-- The next record of the other end is handed to this one. -/
  | hear (role : Role)
  deriving DecidableEq, Repr

def start (session : Role → Session) : Conversation := fun role => ⟨session role, [], 0, [], false⟩

def step (cipher : Cipher) : Event → Conversation → Conversation
  | .say role mt plaintext, c => Function.update c role ((c role).seal cipher mt plaintext)
  | .hear role, c =>
      match (c role.peer).sent[(c role).heard]? with
      | none => c
      | some note => Function.update c role ((c role).receive cipher note)

/-- An end has opened all it was handed, to what the other sealed. -/
def Opened (c : Conversation) (role : Role) : Prop :=
  (c role).heard ≤ (c role.peer).sent.length ∧
    (c role).opened = ((c role.peer).sent.take (c role).heard).map fun note => .ok note.plaintext

end Conversation

structure Understood (cipher : Cipher) (session : Role → Session) : Prop where
  /-- Whatever either end seals, unless a sealing of its own has ended the one that listens. -/
  listening : ∀ events role,
    let talk := run (Conversation.step cipher) events (Conversation.start session)
    (talk role).ended = false → talk.Opened role
  /-- Whatever the other end seals, if the one that listens seals nothing. -/
  silent : ∀ events role, (∀ mt plaintext, Conversation.Event.say role mt plaintext ∉ events) →
    (run (Conversation.step cipher) events (Conversation.start session)).Opened role

/-! ## What a call does -/

section Calls

variable (cipher : Cipher) {s : Session}

/-- The three ways a call of `seal` ends. -/
inductive SealEnds (s : Session) (mt : MessageType) (plaintext : Bytes) :
    Except SessionError Record × Session → Prop
  | refused {e : SessionError} (ended : s.terminated ≠ none) : SealEnds s mt plaintext (.error e, s)
  | failed {e : SessionError} {reason : Termination} : SealEnds s mt plaintext (.error e, s.terminate reason)
  | sealed {keys : SessionKeys} {ciphertext : Bytes} {tag : Tag} (active : s.terminated = none)
      (held : s.keys = some keys) (seals : s.Seals mt)
      (encrypted : cipher.encrypt (keys.keyFor s.ctx.role.sendDirection)
        (recordNonce s.domain s.ctx.role.sendDirection s.nextSend)
        (s.ctx.buildAad mt s.ctx.role.sendDirection ⟨0⟩ s.nextSend) plaintext = some (ciphertext, tag)) :
      SealEnds s mt plaintext (s.sealedAfter (some (ciphertext, tag)))

theorem seal_ends (coherent : s.Coherent) (mt : MessageType) (plaintext : Bytes) :
    ∃ out, (s.seal mt plaintext).exec cipher.host.device [] () = (.returned out, ()) ∧
      SealEnds cipher s mt plaintext out := by
  have holds : (s.seal mt plaintext).wp cipher.host.device (fun out _ => SealEnds cipher s mt plaintext out)
      (fun _ => False) () := by
    refine Session.wp_seal coherent (fun e ended => .refused ended) (fun e reason _ _ => .failed) ?_
    intro keys active held seals _
    show SealEnds cipher s mt plaintext (s.sealedAfter (cipher.encrypt _ _ _ _))
    cases encrypted : cipher.encrypt (keys.keyFor s.ctx.role.sendDirection)
        (recordNonce s.domain s.ctx.role.sendDirection s.nextSend)
        (s.ctx.buildAad mt s.ctx.role.sendDirection ⟨0⟩ s.nextSend) plaintext with
    | none => exact .failed
    | some pair =>
        obtain ⟨ciphertext, tag⟩ := pair
        exact .sealed active held seals encrypted
  obtain ⟨out, _, ran, ends⟩ := returns_of_service holds
  exact ⟨out, ran, ends⟩

theorem open_ended_exec (ended : s.terminated ≠ none) (mt : MessageType) (seq : Sequence) (sealed : Bytes) :
    ∃ e, (s.open mt seq sealed).exec cipher.host.device [] () = (.returned (.error e, s), ()) := by
  obtain ⟨e, refuses⟩ := Session.open_ended ended mt seq sealed
  exact ⟨e, by rw [refuses]; rfl⟩

/-- A record that the cipher made for this end and that it expects. -/
theorem open_expected (lawful : cipher.Lawful) (coherent : s.Coherent) (active : s.terminated = none)
    {keys : SessionKeys} (held : s.keys = some keys) {mt : MessageType} {seq : Sequence}
    {plaintext ciphertext : Bytes} {tag : Tag} (opens : s.Opens mt seq (ciphertext ++ tag.val))
    (encrypted : cipher.encrypt (keys.keyFor s.ctx.role.sendDirection.opposite)
      (recordNonce s.domain s.ctx.role.sendDirection.opposite seq)
      (s.ctx.buildAad mt s.ctx.role.sendDirection.opposite ⟨0⟩ seq) plaintext = some (ciphertext, tag)) :
    (s.open mt seq (ciphertext ++ tag.val)).exec cipher.host.device [] () =
      (.returned (s.openedAfter seq (some plaintext)), ()) := by
  have holds : (s.open mt seq (ciphertext ++ tag.val)).wp cipher.host.device
      (fun out _ => out = s.openedAfter seq (some plaintext)) (fun _ => False) () := by
    refine Session.wp_open coherent (fun _ ended => absurd active ended)
      (fun _ _ _ shut => absurd opens shut) ?_
    intro keys' _ held' _ _
    obtain rfl : keys = keys' := Option.some.inj (held.symm.trans held')
    show s.openedAfter seq (cipher.decrypt _ _ _ _ _) = _
    rw [splitTag_append, lawful.opens encrypted]
  obtain ⟨out, _, ran, same⟩ := returns_of_service holds
  rw [ran, same]

end Calls

/-! ## The invariant -/

section Invariant

variable (cipher : Cipher) (ctx : SessionContext) (keys : SessionKeys) (first : Role → Nat)

/-- The `i`-th record of an end. -/
structure SealedAt (role : Role) (i : Nat) (note : Note) : Prop where
  sequence : note.sequence.get.toNat = first role + i
  paired : pairingValid note.mt role.sendDirection = true
  disciplined : seqDiscipline note.mt note.sequence = true
  sealed : ∃ ciphertext tag, note.sealed = ciphertext ++ tag.val ∧
    cipher.encrypt (keys.keyFor role.sendDirection) (recordNonce ctx.nonceDomain role.sendDirection note.sequence)
      (ctx.buildAad note.mt role.sendDirection ⟨0⟩ note.sequence) note.plaintext = some (ciphertext, tag)

/-- What holds of one end, whatever the other does. -/
structure Speaker.Steady (role : Role) (s : Speaker) : Prop where
  context : s.session.ctx = { ctx with role }
  domain : s.session.domain = ctx.nonceDomain
  coherent : s.session.Coherent
  keyed : ∀ keys', s.session.keys = some keys' → keys' = keys
  ended : s.session.terminated ≠ none → s.ended = true
  next : s.session.terminated = none → s.session.nextSend.get.toNat = first role + s.sent.length
  sealed : ∀ i note, s.sent[i]? = some note → SealedAt cipher ctx keys first role i note

/-- What an active end has opened of the records `sent` by the other, and expects next. -/
structure Speaker.Follows (role : Role) (s : Speaker) (sent : List Note) : Prop where
  within : s.heard ≤ sent.length
  opened : s.opened = (sent.take s.heard).map fun note => .ok note.plaintext
  expects : ∀ seq : Sequence, seq.get.toNat = first role.peer + s.heard →
    s.session.expected = some seq

structure Conversation.Steady (c : Conversation) : Prop where
  speaker : ∀ role, (c role).Steady cipher ctx keys first role
  follows : ∀ role, (c role).session.terminated = none → (c role).Follows first role (c role.peer).sent

variable {cipher ctx keys first} {role : Role} {s : Speaker}

theorem Speaker.Steady.seal (steady : s.Steady cipher ctx keys first role) (mt : MessageType)
    (plaintext : Bytes) : (s.seal cipher mt plaintext).Steady cipher ctx keys first role := by
  obtain ⟨out, ran, ends⟩ := seal_ends cipher steady.coherent mt plaintext
  unfold Speaker.seal
  rw [ran]
  cases ends with
  | refused ended =>
      refine ⟨steady.context, steady.domain, steady.coherent, steady.keyed, fun _ => ?_, steady.next, steady.sealed⟩
      simp [steady.ended ended]
  | @failed e reason =>
      refine ⟨steady.context, steady.domain, Session.coherent_terminate _ _, by rintro _ ⟨⟩, fun _ => ?_,
        by rintro ⟨⟩, steady.sealed⟩
      simp [Session.terminate]
  | @sealed keys' ciphertext tag active held seals encrypted =>
      obtain rfl := steady.keyed _ held
      have count := steady.next active
      have place : ∀ i note, (s.sent ++ [Note.mk mt s.session.nextSend plaintext (ciphertext ++ tag.val)])[i]? =
          some note → SealedAt cipher ctx keys' first role i note := by
        intro i note there
        by_cases old : i < s.sent.length
        · rw [List.getElem?_append_left old] at there
          exact steady.sealed i note there
        · rw [List.getElem?_append_right (by omega), List.getElem?_singleton] at there
          obtain ⟨last, rfl⟩ : i - s.sent.length = 0 ∧ Note.mk mt s.session.nextSend plaintext
              (ciphertext ++ tag.val) = note := by simpa using there
          have paired := seals.paired
          rw [steady.context] at paired encrypted
          rw [steady.domain] at encrypted
          exact ⟨by rw [count]; omega, paired, seals.disciplined, ciphertext, tag, rfl, encrypted⟩
      simp only [Session.sealedAfter]
      cases advance : s.session.nextSend.next with
      | some next =>
          refine ⟨steady.context, steady.domain, steady.coherent, steady.keyed, fun ended => ?_, fun _ => ?_, place⟩
          · simp [steady.ended ended]
          · show ((s.session.sendSeq.set _ next).get _).get.toNat = _
            rw [PerDirection.get_set_same, (Sequence.next_eq_some.mp advance).2, count, List.length_append]
            rfl
      | none =>
          refine ⟨steady.context, steady.domain, Session.coherent_terminate _ _, by rintro _ ⟨⟩, fun _ => ?_,
            by rintro ⟨⟩, place⟩
          simp [Session.terminate]

/-- What is sealed comes after what was sealed before. -/
theorem Speaker.sent_seal (mt : MessageType) (plaintext : Bytes) :
    s.sent <+: (s.seal cipher mt plaintext).sent := by
  unfold Speaker.seal
  split
  · exact List.prefix_append ..
  · exact List.prefix_refl _
  · exact List.prefix_refl _

/-- Sealing leaves what an end listens for as it is. -/
theorem Speaker.Steady.seal_follows (steady : s.Steady cipher ctx keys first role) {sent : List Note}
    (follows : s.session.terminated = none → s.Follows first role sent) {mt : MessageType}
    {plaintext : Bytes} (still : (s.seal cipher mt plaintext).session.terminated = none) :
    (s.seal cipher mt plaintext).Follows first role sent := by
  obtain ⟨out, ran, ends⟩ := seal_ends cipher steady.coherent mt plaintext
  unfold Speaker.seal at still ⊢
  rw [ran] at still ⊢
  cases ends with
  | refused ended => exact absurd still ended
  | failed => cases still
  | @sealed keys' ciphertext tag active held seals encrypted =>
      simp only [Session.sealedAfter] at still ⊢
      cases advance : s.session.nextSend.next with
      | none =>
          simp only [advance] at still
          cases still
      | some next =>
          have before := follows active
          exact ⟨before.within, before.opened, before.expects⟩

/-- More records to come. -/
theorem Speaker.Follows.mono {sent sent' : List Note} (follows : s.Follows first role sent)
    (more : sent <+: sent') : s.Follows first role sent' := by
  obtain ⟨rest, rfl⟩ := more
  refine ⟨by rw [List.length_append]; have := follows.within; omega, ?_, follows.expects⟩
  rw [List.take_append_of_le_length follows.within]
  exact follows.opened

/-- **A record handed over**: an active end opens it to the plaintext that was sealed. -/
theorem Speaker.Steady.receive (lawful : cipher.Lawful) (steady : s.Steady cipher ctx keys first role)
    {sent : List Note} {note : Note} (next : sent[s.heard]? = some note)
    (origin : SealedAt cipher ctx keys first role.peer s.heard note)
    (follows : s.session.terminated = none → s.Follows first role sent) :
    (s.receive cipher note).Steady cipher ctx keys first role ∧
      ((s.receive cipher note).session.terminated = none →
        (s.receive cipher note).Follows first role sent) ∧
      (s.receive cipher note).sent = s.sent := by
  by_cases active : s.session.terminated = none
  · have follows := follows active
    obtain ⟨keys', held⟩ := steady.coherent.keys_of_active active
    obtain rfl := steady.keyed _ held
    obtain ⟨ciphertext, tag, bytes, encrypted⟩ := origin.sealed
    have own : s.session.ctx.role.sendDirection.opposite = role.peer.sendDirection := by
      rw [steady.context, Role.sendDirection_peer]
    have opens : s.session.Opens note.mt note.sequence (ciphertext ++ tag.val) := by
      refine ⟨?_, origin.disciplined, follows.expects _ origin.sequence, by simp [tagLen]⟩
      rw [own]
      exact origin.paired
    have same : cipher.encrypt (keys'.keyFor s.session.ctx.role.sendDirection.opposite)
        (recordNonce s.session.domain s.session.ctx.role.sendDirection.opposite note.sequence)
        (s.session.ctx.buildAad note.mt s.session.ctx.role.sendDirection.opposite ⟨0⟩ note.sequence)
        note.plaintext = some (ciphertext, tag) := by
      rw [own, steady.domain, steady.context]
      exact encrypted
    have ran := open_expected cipher lawful steady.coherent active held opens same
    have result : s.receive cipher note =
        { s with
          session := (s.session.openedAfter note.sequence (some note.plaintext)).2
          heard := s.heard + 1
          opened := s.opened ++ [.ok note.plaintext] } := by
      rw [Speaker.receive, bytes, ran]
      rfl
    rw [result]
    refine ⟨⟨steady.context, steady.domain, steady.coherent, steady.keyed, steady.ended, steady.next,
      steady.sealed⟩, fun _ => ⟨?_, ?_, ?_⟩, rfl⟩
    · exact (List.getElem?_eq_some_iff.mp next).1
    · rw [List.take_add_one, next, List.map_append, ← follows.opened]
      rfl
    · intro seq place
      dsimp only at place
      have after : note.sequence.next = some seq := by
        refine Sequence.next_eq_some.mpr ⟨?_, ?_⟩
        · have := seq.get.toNat_lt
          rw [origin.sequence]
          omega
        · rw [origin.sequence, place]
          omega
      simp only [Session.expected, Session.openedAfter, PerDirection.get_set_same]
      exact after
  · obtain ⟨e, ran⟩ := open_ended_exec cipher active note.mt note.sequence note.sealed
    have result : s.receive cipher note =
        { s with heard := s.heard + 1, opened := s.opened ++ [.error e] } := by
      rw [Speaker.receive, ran]
    rw [result]
    exact ⟨⟨steady.context, steady.domain, steady.coherent, steady.keyed, steady.ended, steady.next,
      steady.sealed⟩, fun still => absurd still active, rfl⟩

/-- One end is replaced: by one that keeps what holds of it, and has sealed no less. -/
theorem Conversation.Steady.update {c : Conversation} (steady : c.Steady cipher ctx keys first)
    {speaker : Speaker} (own : speaker.Steady cipher ctx keys first role)
    (follows : speaker.session.terminated = none → speaker.Follows first role (c role.peer).sent)
    (more : (c role).sent <+: speaker.sent) :
    Conversation.Steady cipher ctx keys first (Function.update c role speaker) := by
  have peer := Function.update_of_ne role.ne_peer.symm speaker c
  refine ⟨fun role' => ?_, fun role' active => ?_⟩
  · rcases role.eq_or_peer role' with rfl | rfl
    · rw [Function.update_self]
      exact own
    · rw [peer]
      exact steady.speaker _
  · rcases role.eq_or_peer role' with rfl | rfl
    · rw [Function.update_self] at active ⊢
      rw [peer]
      exact follows active
    · rw [peer] at active ⊢
      rw [Role.peer_peer, Function.update_self]
      have before := steady.follows role.peer active
      rw [Role.peer_peer] at before
      exact before.mono more

theorem Conversation.Steady.step (lawful : cipher.Lawful) (event : Event) (c : Conversation)
    (steady : c.Steady cipher ctx keys first) :
    (Conversation.step cipher event c).Steady cipher ctx keys first := by
  cases event with
  | say role mt plaintext =>
      exact steady.update ((steady.speaker role).seal mt plaintext)
        ((steady.speaker role).seal_follows (steady.follows role)) (Speaker.sent_seal mt plaintext)
  | hear role =>
      simp only [Conversation.step]
      cases next : (c role.peer).sent[(c role).heard]? with
      | none => exact steady
      | some note =>
          have origin := (steady.speaker role.peer).sealed _ _ next
          obtain ⟨kept, follows, same⟩ := (steady.speaker role).receive lawful next origin (steady.follows role)
          exact steady.update kept follows (by rw [same])

/-- Two sessions over one segment, each of which expects what the other seals next. -/
structure Matched (session : Role → Session) (ctx : SessionContext) (keys : SessionKeys) : Prop where
  context : ∀ role, (session role).ctx = { ctx with role }
  domain : ∀ role, (session role).domain = ctx.nonceDomain
  held : ∀ role, (session role).keys = some keys
  active : ∀ role, (session role).terminated = none
  expects : ∀ role, (session role).expected = some (session role.peer).nextSend

theorem Matched.steady {session : Role → Session} (matched : Matched session ctx keys) :
    (Conversation.start session).Steady cipher ctx keys fun role => (session role).nextSend.get.toNat where
  speaker role :=
    { context := matched.context role
      domain := matched.domain role
      coherent := iff_of_false (fun ended => ended (matched.active role)) (by simp [Conversation.start, matched.held role])
      keyed := fun keys' held => Option.some.inj (held.symm.trans (matched.held role))
      ended := fun ended => absurd (matched.active role) ended
      next := fun _ => rfl
      sealed := fun i note there => by simp [Conversation.start] at there }
  follows role _ :=
    { within := le_rfl
      opened := rfl
      expects := fun seq place => by
        have same : seq = (session role.peer).nextSend := by
          obtain ⟨n⟩ := seq
          exact congrArg Sequence.mk (UInt64.toNat_inj.mp place)
        rw [same]
        exact matched.expects role }

theorem Conversation.Steady.opened {c : Conversation} (steady : c.Steady cipher ctx keys first)
    (listening : (c role).ended = false) : c.Opened role := by
  have active : (c role).session.terminated = none := by
    by_contra ended
    rw [(steady.speaker role).ended ended] at listening
    cases listening
  have follows := steady.follows role active
  exact ⟨follows.within, follows.opened⟩

theorem Speaker.ended_receive (note : Note) : (s.receive cipher note).ended = s.ended := by
  unfold Speaker.receive
  split
  · rfl
  · rfl

/-- Who seals nothing is ended by no sealing. -/
theorem Conversation.ended_of_silent {events : List Event}
    (silent : ∀ mt plaintext, Event.say role mt plaintext ∉ events) (c : Conversation) :
    (run (step cipher) events c role).ended = (c role).ended := by
  induction events generalizing c with
  | nil => rfl
  | cons event events ih =>
      refine (ih (fun mt plaintext mem => silent mt plaintext (List.mem_cons_of_mem _ mem)) _).trans ?_
      cases event with
      | say other mt plaintext =>
          have different : role ≠ other := by
            rintro rfl
            exact silent mt plaintext (List.mem_cons_self ..)
          simp only [step, Function.update_of_ne different]
      | hear other =>
          simp only [step]
          cases (c other.peer).sent[(c other).heard]? with
          | none => rfl
          | some note =>
              by_cases same : role = other
              · subst same
                simp only [Function.update_self, Speaker.ended_receive]
              · simp only [Function.update_of_ne same]

/-- **The two ends understand each other.** -/
theorem Matched.understood (lawful : cipher.Lawful) {session : Role → Session}
    (matched : Matched session ctx keys) : Understood cipher session := by
  have steady : ∀ events, Conversation.Steady cipher ctx keys (fun role => (session role).nextSend.get.toNat)
      (run (Conversation.step cipher) events (Conversation.start session)) := fun events =>
    run_invariant _ (Conversation.Steady.step lawful) events matched.steady
  exact
    { listening := fun events role listening => (steady events).opened listening
      silent := fun events role silent => (steady events).opened (Conversation.ended_of_silent silent _) }

end Invariant

end Jbuu
