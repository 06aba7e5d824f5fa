/-
# Session.Channel — two sessions over one segment, and an adversary between them

A client and a server `Session` built from one segment, an ideal cipher, and an
adversary who calls `seal`, `open` and `close` on either of them in any order and hands
`open` whatever it likes. As ghosts each endpoint has the records it sealed, the records
it accepted and how each of its calls ended.

`Steady` is the invariant of all runs: the counters count what was sealed and accepted,
the cipher's ledger is exactly what the two ends sealed, and keys and termination agree.
`keys_and_nonces_used_once` and `accepted_is_prefix_of_sent` read off what it means. The
two contexts may differ: then nothing is accepted.
-/
import Mathlib.Logic.Function.Basic
import Mathlib.Data.List.Infix
import Jbuu.Library.IdealAead
import Jbuu.Library.Runs
import Jbuu.Session.Session

namespace Jbuu

set_option autoImplicit false

open Jbuu.Library.BigEndian (Bytes Exactly)
open Jbuu.Library
open Jbuu.Library.Program (exec_of_wp)
open Jbuu.Allocator (IssueError)

/-! ## The cipher -/

/-- The adversary's choice for one request to the host. -/
structure Fate where
  /-- What an encryption gives; `none` is an error of the cipher. -/
  sealed : Option (Bytes × Tag)
  /-- Whether a decryption that could succeed does. -/
  opens : Bool
  random : Option Nonce16
  issued : Except IssueError SegmentIndex
  deriving DecidableEq, Repr

instance : Inhabited Fate := ⟨⟨none, false, none, .error .io⟩⟩

abbrev Ledger (ω : Type) := List (Sealing ω DirectionKey Nonce96 Bytes Bytes (Bytes × Tag))

/-- A stream cipher's ciphertext is as long as its plaintext. -/
def fitted (bytes : Bytes) (n : Nat) : Bytes := (bytes ++ List.replicate n 0).take n

@[simp] theorem length_fitted (bytes : Bytes) (n : Nat) : (fitted bytes n).length = n := by
  simp [fitted]

/-- The ideal cipher, asked by `owner`. -/
def aead {ω : Type} (owner : ω) : Device HostOp HostReply Fate (Ledger ω)
  | .encrypt key nonce aad plaintext, fate, ledger =>
      match fate.sealed with
      | none => (some none, ledger)
      | some (bytes, tag) =>
          let sealed := (fitted bytes plaintext.length, tag)
          (some (some sealed), ledger ++ [{ owner, key, nonce, aad, plaintext, sealed }])
  | .decrypt key nonce aad ciphertext tag, fate, ledger =>
      (some (if fate.opens then Sealing.opens ledger key nonce aad (ciphertext, tag) else none),
        ledger)
  | .csprng16, fate, ledger => (some fate.random, ledger)
  -- A session issues no segment.
  | .issue, _, ledger => (some (.error .lockUnavailable), ledger)

/-! ## The two ends -/

def Role.peer : Role → Role
  | .client => .server
  | .server => .client

@[simp] theorem Role.peer_peer (role : Role) : role.peer.peer = role := by
  cases role <;> rfl

theorem Role.ne_peer (role : Role) : role ≠ role.peer := by
  cases role <;> decide

theorem Role.eq_or_peer (role role' : Role) : role' = role ∨ role' = role.peer := by
  cases role <;> cases role' <;> decide

@[simp] theorem Role.sendDirection_peer (role : Role) :
    role.peer.sendDirection = role.sendDirection.opposite := by
  cases role <;> rfl

theorem Role.sendDirection_inj {role role' : Role} :
    role.sendDirection = role'.sendDirection ↔ role = role' := by
  cases role <;> cases role' <;> decide

/-- A record sealed or accepted, with its plaintext. -/
structure Note where
  mt : MessageType
  sequence : Sequence
  plaintext : Bytes
  sealed : Bytes
  deriving DecidableEq, Repr

structure Endpoint where
  session : Session
  /-- The records `seal` returned. -/
  sent : List Note
  /-- The records `open` accepted. -/
  accepted : List Note
  /-- How each call of `seal` and `open` ended: `true` for `Ok`. -/
  outcomes : List Bool
  deriving DecidableEq, Repr

namespace Endpoint

def sealReturned (e : Endpoint) (mt : MessageType) (plaintext : Bytes) :
    Except SessionError Record × Session → Endpoint
  | (.ok record, session) =>
      { e with
        session
        sent := e.sent ++ [{ mt, sequence := record.sequence, plaintext, sealed := record.sealed }]
        outcomes := e.outcomes ++ [true] }
  | (.error _, session) => { e with session, outcomes := e.outcomes ++ [false] }

def openReturned (e : Endpoint) (mt : MessageType) (sequence : Sequence) (sealed : Bytes) :
    Except SessionError Bytes × Session → Endpoint
  | (.ok plaintext, session) =>
      { e with
        session
        accepted := e.accepted ++ [{ mt, sequence, plaintext, sealed }]
        outcomes := e.outcomes ++ [true] }
  | (.error _, session) => { e with session, outcomes := e.outcomes ++ [false] }

end Endpoint

structure Channel where
  endpoint : Role → Endpoint
  ledger : Ledger Role
  panicked : Bool

namespace Channel

inductive Event where
  | seal (role : Role) (mt : MessageType) (plaintext : Bytes) (fates : List Fate)
  | open (role : Role) (mt : MessageType) (seq : Sequence) (sealed : Bytes) (fates : List Fate)
  | close (role : Role)
  deriving DecidableEq, Repr

/-- The context of one end: what `ctx` says, in that end's role. -/
def party (ctx : Role → SessionContext) (role : Role) : SessionContext := { ctx role with role }

def initial (segment : Segment) (ctx : Role → SessionContext) : Channel where
  endpoint role :=
    { session := .new segment (party ctx role), sent := [], accepted := [], outcomes := [] }
  ledger := []
  panicked := false

def put (c : Channel) (role : Role) (e : Endpoint) (ledger : Ledger Role) : Channel :=
  { c with endpoint := Function.update c.endpoint role e, ledger }

def step : Event → Channel → Channel
  | .seal role mt plaintext fates, c =>
      let e := c.endpoint role
      match (e.session.seal mt plaintext).exec (aead role) fates c.ledger with
      | (.returned out, ledger) => c.put role (e.sealReturned mt plaintext out) ledger
      | (.crashed, ledger) => { c with ledger }
      | (.panicked, ledger) => { c with ledger, panicked := true }
  | .open role mt seq sealed fates, c =>
      let e := c.endpoint role
      match (e.session.open mt seq sealed).exec (aead role) fates c.ledger with
      | (.returned out, ledger) => c.put role (e.openReturned mt seq sealed out) ledger
      | (.crashed, ledger) => { c with ledger }
      | (.panicked, ledger) => { c with ledger, panicked := true }
  | .close role, c =>
      let e := c.endpoint role
      c.put role { e with session := e.session.close } c.ledger

/-! ## The invariant -/

/-- What the cipher was asked when an end of this context sealed the record. -/
def entry (segment : Segment) (ctx : SessionContext) (note : Note) :
    Sealing Role DirectionKey Nonce96 Bytes Bytes (Bytes × Tag) where
  owner := ctx.role
  key := (SessionKeys.split segment).keyFor ctx.role.sendDirection
  nonce := recordNonce ctx.nonceDomain ctx.role.sendDirection note.sequence
  aad := ctx.buildAad note.mt ctx.role.sendDirection ⟨0⟩ note.sequence
  plaintext := note.plaintext
  sealed := splitTag note.sealed

/-- A record that an end in this role may seal. -/
structure Proper (role : Role) (note : Note) : Prop where
  paired : pairingValid note.mt role.sendDirection = true
  disciplined : seqDiscipline note.mt note.sequence = true
  long : tagLen ≤ note.sealed.length

/-- What holds of one end, whatever the other does. -/
structure Sound (segment : Segment) (ctx : SessionContext) (e : Endpoint) : Prop where
  context : e.session.ctx = ctx
  domain : e.session.domain = ctx.nonceDomain
  coherent : e.session.Coherent
  keys : ∀ keys, e.session.keys = some keys → keys = .split segment
  /-- The records sealed have the sequences 0, 1, 2, ... -/
  counted : e.sent.map (·.sequence.get.toNat) = List.range e.sent.length
  next : e.session.terminated = none → e.session.nextSend.get.toNat = e.sent.length
  overflow : e.session.terminated ≠ some .sequenceOverflow → e.sent.length < 2 ^ 64
  proper : ∀ note ∈ e.sent, Proper ctx.role note
  /-- The records accepted have the sequences 0, 1, 2, ... -/
  received : match e.session.recvLast.get ctx.role.sendDirection.opposite with
    | none => e.accepted = []
    | some last => e.accepted.length = last.get.toNat + 1
  failed : false ∈ e.outcomes → e.session.terminated ≠ none
  /-- No call succeeds after one that failed. -/
  order : e.outcomes.Pairwise fun earlier later => later = true → earlier = true

structure Steady (segment : Segment) (ctx : Role → SessionContext) (c : Channel) : Prop where
  calm : c.panicked = false
  sound : ∀ role, Sound segment (party ctx role) (c.endpoint role)
  /-- The ledger is what the two ends sealed. -/
  ledger : ∀ role, c.ledger.filter (·.owner = role) =
    (c.endpoint role).sent.map (entry segment (party ctx role))
  fresh : Sealing.NonceFresh c.ledger
  relayed : ∀ role, (c.endpoint role).accepted <+: (c.endpoint role.peer).sent

variable {segment : Segment} {ctx : Role → SessionContext} {c : Channel} {role : Role}

theorem steady_initial : Steady segment ctx (initial segment ctx) where
  calm := rfl
  sound role := by
    refine ⟨rfl, rfl, Session.coherent_new _ _, ?_, rfl, ?_, ?_, nofun, ?_, nofun, .nil⟩
    · intro keys held
      exact (Option.some.inj held).symm
    · intro _
      cases role <;> rfl
    · intro _
      simp [initial]
    · cases role <;> rfl
  ledger _ := rfl
  fresh := .nil
  relayed _ := List.nil_prefix

theorem Steady.entry_of_mem (steady : Steady segment ctx c)
    {sealing : Sealing Role DirectionKey Nonce96 Bytes Bytes (Bytes × Tag)}
    (mem : sealing ∈ c.ledger) :
    ∃ role, ∃ note ∈ (c.endpoint role).sent, sealing = entry segment (party ctx role) note := by
  have own : sealing ∈ c.ledger.filter (·.owner = sealing.owner) :=
    List.mem_filter.mpr ⟨mem, by simp⟩
  rw [steady.ledger] at own
  obtain ⟨note, sent, same⟩ := List.mem_map.mp own
  exact ⟨_, note, sent, same.symm⟩

/-- The record at a position has that position as its sequence. -/
theorem Sound.sequence_of_getElem {ctx : SessionContext} {e : Endpoint}
    (sound : Sound segment ctx e) {i : Nat} {note : Note} (place : e.sent[i]? = some note) :
    note.sequence.get.toNat = i := by
  have below := (List.getElem?_eq_some_iff.mp place).1
  have same := congrArg (·[i]?) sound.counted
  rw [List.getElem?_map, place, List.getElem?_range below] at same
  exact Option.some.inj same

theorem Sound.getElem_of_mem {ctx : SessionContext} {e : Endpoint} (sound : Sound segment ctx e)
    {note : Note} (mem : note ∈ e.sent) : e.sent[note.sequence.get.toNat]? = some note := by
  obtain ⟨i, place⟩ := List.getElem?_of_mem mem
  rw [sound.sequence_of_getElem place]
  exact place

theorem Sound.sequence_lt {ctx : SessionContext} {e : Endpoint} (sound : Sound segment ctx e)
    {note : Note} (mem : note ∈ e.sent) : note.sequence.get.toNat < e.sent.length :=
  (List.getElem?_eq_some_iff.mp (sound.getElem_of_mem mem)).1

/-! ### One call -/

theorem put_same (e : Endpoint) (ledger : Ledger Role) : (c.put role e ledger).endpoint role = e :=
  Function.update_self ..

theorem put_other {role' : Role} (other : role' ≠ role) (e : Endpoint) (ledger : Ledger Role) :
    (c.put role e ledger).endpoint role' = c.endpoint role' :=
  Function.update_of_ne other ..

/-- A call that seals nothing. -/
theorem Steady.replace (steady : Steady segment ctx c) {e : Endpoint}
    (sound : Sound segment (party ctx role) e) (sent : e.sent = (c.endpoint role).sent)
    (relayed : e.accepted <+: (c.endpoint role.peer).sent) :
    Steady segment ctx (c.put role e c.ledger) := by
  have kept : ∀ role', ((c.put role e c.ledger).endpoint role').sent = (c.endpoint role').sent := by
    intro role'
    by_cases this : role' = role
    · rw [this, put_same, sent]
    · rw [put_other this]
  refine ⟨steady.calm, ?_, ?_, steady.fresh, ?_⟩
  · intro role'
    by_cases this : role' = role
    · rw [this, put_same]
      exact sound
    · rw [put_other this]
      exact steady.sound role'
  · intro role'
    rw [kept]
    exact steady.ledger role'
  · intro role'
    rw [kept]
    by_cases this : role' = role
    · rw [this, put_same]
      exact relayed
    · rw [put_other this]
      exact steady.relayed role'

/-- A failed call, or a close: the session is ended and nothing else changes. -/
theorem Sound.ended {ctx : SessionContext} {e : Endpoint} (sound : Sound segment ctx e)
    {session : Session} {outcomes : List Bool} (ended : session.terminated ≠ none)
    (way : session = e.session ∨ ∃ reason, e.session.terminated = none ∧
      session = e.session.terminate reason)
    (order : outcomes.Pairwise fun earlier later => later = true → earlier = true) :
    Sound segment ctx { e with session, outcomes } := by
  rcases way with rfl | ⟨reason, active, rfl⟩
  · exact ⟨sound.context, sound.domain, sound.coherent, sound.keys, sound.counted, sound.next,
      sound.overflow, sound.proper, sound.received, fun _ => ended, order⟩
  · refine ⟨sound.context, sound.domain, Session.coherent_terminate _ _, nofun, sound.counted, nofun,
      ?_, sound.proper, sound.received, fun _ => nofun, order⟩
    intro _
    apply sound.overflow
    rw [active]
    nofun

theorem Sound.order_failed {ctx : SessionContext} {e : Endpoint} (sound : Sound segment ctx e) :
    (e.outcomes ++ [false]).Pairwise fun earlier later => later = true → earlier = true := by
  refine List.pairwise_append.mpr ⟨sound.order, by simp, ?_⟩
  intro earlier _ later mem
  simp_all

/-- While the session is active no call has failed. -/
theorem Sound.order_succeeded {ctx : SessionContext} {e : Endpoint} (sound : Sound segment ctx e)
    (active : e.session.terminated = none) :
    (e.outcomes ++ [true]).Pairwise (fun earlier later => later = true → earlier = true) ∧
      false ∉ e.outcomes ++ [true] := by
  have clean : false ∉ e.outcomes := fun mem => sound.failed mem active
  refine ⟨List.pairwise_append.mpr ⟨sound.order, by simp, ?_⟩, by simp [clean]⟩
  intro earlier mem later _ _
  cases earlier with
  | true => rfl
  | false => exact absurd mem clean

/-- One more record sealed. -/
theorem Sound.sealed {ctx : SessionContext} {e : Endpoint} (sound : Sound segment ctx e)
    {mt : MessageType} (active : e.session.terminated = none)
    (paired : pairingValid mt ctx.role.sendDirection = true)
    (disciplined : seqDiscipline mt e.session.nextSend = true) (plaintext ciphertext : Bytes)
    (tag : Tag) :
    Sound segment ctx
      (e.sealReturned mt plaintext (e.session.sealedAfter (some (ciphertext, tag)))) := by
  have count := sound.next active
  obtain ⟨order, clean⟩ := sound.order_succeeded active
  have counted : (e.sent ++ [Note.mk mt e.session.nextSend plaintext (ciphertext ++ tag.val)]).map
      (·.sequence.get.toNat) = List.range (e.sent.length + 1) := by
    rw [List.map_append, sound.counted, List.range_succ, List.map_singleton, count]
  have proper : ∀ note ∈ e.sent ++ [Note.mk mt e.session.nextSend plaintext (ciphertext ++ tag.val)],
      Proper ctx.role note := by
    intro note mem
    rcases List.mem_append.mp mem with old | new
    · exact sound.proper note old
    · rw [List.mem_singleton.mp new]
      exact ⟨paired, disciplined, by simp [tagLen]⟩
  unfold Session.sealedAfter Endpoint.sealReturned
  cases advance : e.session.nextSend.next with
  | some next =>
      obtain ⟨below, value⟩ := Sequence.next_eq_some.mp advance
      refine ⟨sound.context, sound.domain, sound.coherent, sound.keys, by simpa using counted,
        ?_, ?_, proper, sound.received, fun mem => absurd mem clean, order⟩
      · intro _
        show ((e.session.sendSeq.set _ next).get _).get.toNat = _
        rw [PerDirection.get_set_same, value, count, List.length_append, List.length_singleton]
      · intro _
        rw [List.length_append, List.length_singleton, ← count]
        exact below
  | none =>
      refine ⟨sound.context, sound.domain, Session.coherent_terminate _ _, by rintro _ ⟨⟩,
        by simpa using counted, by rintro ⟨⟩, ?_, proper, sound.received, fun mem => absurd mem clean,
        order⟩
      intro other
      exact absurd rfl other

theorem Steady.sealed (steady : Steady segment ctx c) {mt : MessageType}
    (active : (c.endpoint role).session.terminated = none)
    (paired : pairingValid mt role.sendDirection = true)
    (disciplined : seqDiscipline mt (c.endpoint role).session.nextSend = true)
    (plaintext ciphertext : Bytes) (tag : Tag) :
    Steady segment ctx (c.put role
      ((c.endpoint role).sealReturned mt plaintext
        ((c.endpoint role).session.sealedAfter (some (ciphertext, tag))))
      (c.ledger ++ [entry segment (party ctx role)
        (.mk mt (c.endpoint role).session.nextSend plaintext (ciphertext ++ tag.val))])) := by
  have sound := steady.sound role
  have count := sound.next active
  refine ⟨steady.calm, ?_, ?_, ?_, ?_⟩
  · intro role'
    by_cases this : role' = role
    · rw [this, put_same]
      exact sound.sealed active paired disciplined plaintext ciphertext tag
    · rw [put_other this]
      exact steady.sound role'
  · intro role'
    show List.filter _ (c.ledger ++ [_]) = _
    rw [List.filter_append, steady.ledger]
    by_cases this : role' = role
    · rw [this, put_same]
      simp [entry, party, Endpoint.sealReturned, Session.sealedAfter]
    · rw [put_other this]
      simpa [entry, party] using Ne.symm this
  · apply steady.fresh.append
    -- The new nonce: its direction is this end's, its sequence past all this end sealed.
    intro old mem _ same
    obtain ⟨role', note, sent, rfl⟩ := steady.entry_of_mem mem
    obtain ⟨-, dir, seq⟩ := recordNonce_inj.mp same
    obtain rfl : role' = role := Role.sendDirection_inj.mp dir
    have below := sound.sequence_lt sent
    rw [seq, count] at below
    exact absurd below (lt_irrefl _)
  · intro role'
    have before := steady.relayed role'
    by_cases this : role' = role
    · subst this
      rw [put_same, put_other (by cases role' <;> decide)]
      exact before
    · rw [put_other this]
      by_cases peer : role'.peer = role
      · rw [peer, put_same]
        rw [peer] at before
        exact before.trans (List.prefix_append ..)
      · rw [put_other peer]
        exact before

/-! ### What one end accepts -/

/-- One more record accepted. -/
theorem Sound.opened {ctx : SessionContext} {e : Endpoint} (sound : Sound segment ctx e)
    (active : e.session.terminated = none) {mt : MessageType} {seq : Sequence}
    (expected : e.session.expected = some seq) (sealed plaintext : Bytes) :
    seq.get.toNat = e.accepted.length ∧
      Sound segment ctx
        (e.openReturned mt seq sealed (e.session.openedAfter seq (some plaintext))) := by
  obtain ⟨order, clean⟩ := sound.order_succeeded active
  have count : seq.get.toNat = e.accepted.length := by
    have received := sound.received
    rw [Session.expected, sound.context] at expected
    cases last : e.session.recvLast.get ctx.role.sendDirection.opposite with
    | none =>
        rw [last] at expected received
        rw [← Option.some.inj expected, received]
        rfl
    | some last' =>
        rw [last] at expected received
        rw [received, (Sequence.next_eq_some.mp expected).2]
  refine ⟨count, sound.context, sound.domain, sound.coherent, sound.keys, sound.counted,
    sound.next, sound.overflow, sound.proper, ?_, fun mem => absurd mem clean, order⟩
  simp only [Endpoint.openReturned, Session.openedAfter, sound.context,
    PerDirection.get_set_same, count, List.length_append, List.length_singleton]

theorem prefix_snoc {α : Type} {l l' : List α} {x : α} (before : l <+: l')
    (next : l'[l.length]? = some x) : l ++ [x] <+: l' := by
  obtain ⟨rest, rfl⟩ := before
  cases rest with
  | nil => simp at next
  | cons y rest =>
      obtain rfl : y = x := by simpa using next
      exact ⟨rest, by simp⟩

/-- **What opens under the peer's key is the peer's next record.** -/
theorem Steady.opens (steady : Steady segment ctx c) {mt : MessageType} {seq : Sequence}
    {sealed plaintext : Bytes} (long : tagLen ≤ sealed.length)
    (opened : Sealing.opens c.ledger
      ((SessionKeys.split segment).keyFor role.sendDirection.opposite)
      (recordNonce (party ctx role).nonceDomain role.sendDirection.opposite seq)
      ((party ctx role).buildAad mt role.sendDirection.opposite ⟨0⟩ seq)
      (splitTag sealed) = some plaintext) :
    { mt, sequence := seq, plaintext, sealed : Note } ∈ (c.endpoint role.peer).sent := by
  obtain ⟨sealing, mem, -, nonce, aad, bytes, plain⟩ := Sealing.opens_mem opened
  obtain ⟨role', note, sent, rfl⟩ := steady.entry_of_mem mem
  obtain ⟨-, dir, sequence⟩ := recordNonce_inj.mp nonce
  obtain rfl : role' = role.peer := by
    rw [← Role.sendDirection_inj, Role.sendDirection_peer]
    exact dir
  obtain ⟨type, -⟩ := SessionContext.buildAad_inj aad
  have proper := (steady.sound role.peer).proper note sent
  have same : note.sealed = sealed := by
    rw [← append_splitTag proper.long, ← append_splitTag long]
    exact congrArg (fun parts => parts.1 ++ parts.2.val) bytes
  obtain ⟨_, _, _, _⟩ := note
  obtain rfl := type
  obtain rfl := sequence
  obtain rfl := plain
  obtain rfl := same
  exact sent

/-! ### Every step -/

theorem Sound.refused {ctx : SessionContext} {e : Endpoint} (sound : Sound segment ctx e)
    (ended : e.session.terminated ≠ none) :
    Sound segment ctx { e with outcomes := e.outcomes ++ [false] } :=
  sound.ended ended (.inl rfl) sound.order_failed

theorem Sound.terminated {ctx : SessionContext} {e : Endpoint} (sound : Sound segment ctx e)
    (active : e.session.terminated = none) (reason : Termination) :
    Sound segment ctx
      { e with session := e.session.terminate reason, outcomes := e.outcomes ++ [false] } :=
  sound.ended (Session.ended_terminate _ _) (.inr ⟨reason, active, rfl⟩) sound.order_failed

theorem steady_seal (steady : Steady segment ctx c) (mt : MessageType) (plaintext : Bytes)
    (fates : List Fate) : Steady segment ctx (step (.seal role mt plaintext fates) c) := by
  have sound := steady.sound role
  have safe : ((c.endpoint role).session.seal mt plaintext).wp (aead role)
      (fun out ledger => Steady segment ctx
        (c.put role ((c.endpoint role).sealReturned mt plaintext out) ledger))
      (fun _ => False) c.ledger := by
    apply Session.wp_seal sound.coherent
    · intro e ended
      exact steady.replace (sound.refused ended) rfl (steady.relayed role)
    · intro e reason active _
      exact steady.replace (sound.terminated active reason) rfl (steady.relayed role)
    · intro keys active held seals fate
      have paired := seals.paired
      rw [sound.keys keys held, sound.context, sound.domain]
      rw [sound.context] at paired
      rcases given : fate.sealed with _ | ⟨bytes, tag⟩
      · simp only [aead, given]
        exact steady.replace (sound.terminated active .authentication) rfl (steady.relayed role)
      · have sealed := steady.sealed active paired seals.disciplined plaintext
          (fitted bytes plaintext.length) tag
        rw [entry, splitTag_append] at sealed
        simp only [aead, given]
        exact sealed
  have run := exec_of_wp safe fates
  unfold step
  dsimp only
  revert run
  rcases ((c.endpoint role).session.seal mt plaintext).exec (aead role) fates c.ledger with
    ⟨out | _ | _, ledger⟩
  · exact id
  · exact False.elim
  · exact False.elim

theorem steady_open (steady : Steady segment ctx c) (mt : MessageType) (seq : Sequence)
    (sealed : Bytes) (fates : List Fate) :
    Steady segment ctx (step (.open role mt seq sealed fates) c) := by
  have sound := steady.sound role
  have safe : ((c.endpoint role).session.open mt seq sealed).wp (aead role)
      (fun out ledger => Steady segment ctx
        (c.put role ((c.endpoint role).openReturned mt seq sealed out) ledger))
      (fun _ => False) c.ledger := by
    apply Session.wp_open sound.coherent
    · intro e ended
      exact steady.replace (sound.refused ended) rfl (steady.relayed role)
    · intro e reason active _
      exact steady.replace (sound.terminated active reason) rfl (steady.relayed role)
    · intro keys active held opens fate
      rw [sound.keys keys held, sound.context, sound.domain]
      simp only [aead]
      generalize given : (if fate.opens = true then _ else none) = opened
      cases opened with
      | none =>
          exact steady.replace (sound.terminated active .authentication) rfl (steady.relayed role)
      | some plaintext =>
          obtain ⟨count, accepts⟩ := sound.opened active opens.expected sealed plaintext
          have relayed := steady.opens opens.long (Option.ite_none_right_eq_some.mp given).2
          exact steady.replace accepts rfl (prefix_snoc (steady.relayed role)
            (count ▸ (steady.sound role.peer).getElem_of_mem relayed))
  have run := exec_of_wp safe fates
  unfold step
  dsimp only
  revert run
  rcases ((c.endpoint role).session.open mt seq sealed).exec (aead role) fates c.ledger with
    ⟨out | _ | _, ledger⟩
  · exact id
  · exact False.elim
  · exact False.elim

theorem steady_step (event : Event) (c : Channel) (steady : Steady segment ctx c) :
    Steady segment ctx (step event c) := by
  cases event with
  | «seal» role mt plaintext fates => exact steady_seal steady mt plaintext fates
  | «open» role mt seq sealed fates => exact steady_open steady mt seq sealed fates
  | close role =>
      have sound := steady.sound role
      refine steady.replace (sound.ended (Session.ended_close _) ?_ sound.order) rfl
        (steady.relayed role)
      unfold Session.close
      split
      · rename_i active
        exact .inr ⟨_, active, rfl⟩
      · exact .inl rfl

theorem steady_run (segment : Segment) (ctx : Role → SessionContext) (events : List Event) :
    Steady segment ctx (run step events (initial segment ctx)) :=
  run_invariant step steady_step events steady_initial

/-! ## What every run satisfies -/

/-- The confirmation an end in this role sends. -/
def confirmation : Role → MessageType
  | .client => .clientConfirm
  | .server => .serverConfirm

theorem Proper.confirmation_of_zero {note : Note} (proper : Proper role note)
    (zero : note.sequence = .zero) : note.mt = confirmation role := by
  have paired := proper.paired
  have disciplined := proper.disciplined
  rw [zero] at disciplined
  cases role <;> cases mt : note.mt <;> simp_all [pairingValid, seqDiscipline, confirmation,
    Role.sendDirection, MessageType.isConfirm, Sequence.zero]

/-- An end with a failed call is ended, its keys gone, and every later call fails. -/
theorem Sound.fails_for_good {ctx : SessionContext} {e : Endpoint} (sound : Sound segment ctx e)
    (failed : false ∈ e.outcomes) :
    e.session.keys = none ∧
      (∀ mt plaintext, ∃ err, e.session.seal mt plaintext = pure (.error err, e.session)) ∧
      ∀ mt seq sealed, ∃ err, e.session.open mt seq sealed = pure (.error err, e.session) := by
  have ended := sound.failed failed
  refine ⟨sound.coherent.mp ended, ?_, ?_⟩
  · intro mt plaintext
    exact Session.seal_ended ended mt plaintext
  · intro mt seq sealed
    exact Session.open_ended ended mt seq sealed

theorem Sound.last_record {ctx : SessionContext} {e : Endpoint} (sound : Sound segment ctx e)
    {note : Note} (mem : note ∈ e.sent) (last : note.sequence.get.toNat = 2 ^ 64 - 1) :
    e.session.terminated = some .sequenceOverflow := by
  by_contra other
  have below := sound.sequence_lt mem
  have few := sound.overflow other
  omega

theorem Sound.sequences_nodup {ctx : SessionContext} {e : Endpoint} (sound : Sound segment ctx e) :
    (e.sent.map (·.sequence.get.toNat)).Nodup := by
  rw [sound.counted]
  exact List.nodup_range

/-- **Channel integrity.** Whatever is done to the two ends, in every state reached: what
an end accepted is a prefix of what its peer sealed, in order, with type and sequence; the
first record accepted is the peer's confirmation at sequence 0; and no call of an end
succeeds after one that failed. -/
theorem accepted_is_prefix_of_sent (segment : Segment) (ctx : Role → SessionContext)
    (events : List Event) (role : Role) :
    let c := run step events (initial segment ctx)
    (c.endpoint role).accepted <+: (c.endpoint role.peer).sent ∧
      (∀ note, (c.endpoint role).accepted.head? = some note →
        note.mt = confirmation role.peer ∧ note.sequence = .zero) ∧
      ((c.endpoint role).outcomes.Pairwise fun earlier later => later = true → earlier = true) ∧
      (false ∈ (c.endpoint role).outcomes →
        (c.endpoint role).session.keys = none ∧
        (∀ mt plaintext, ∃ err, (c.endpoint role).session.seal mt plaintext =
          pure (.error err, (c.endpoint role).session)) ∧
        ∀ mt seq sealed, ∃ err, (c.endpoint role).session.open mt seq sealed =
          pure (.error err, (c.endpoint role).session)) := by
  intro c
  have steady : Steady segment ctx c := steady_run segment ctx events
  refine ⟨steady.relayed role, ?_, (steady.sound role).order, (steady.sound role).fails_for_good⟩
  intro note first
  obtain ⟨rest, relayed⟩ := steady.relayed role
  have peer := steady.sound role.peer
  have head : (c.endpoint role.peer).sent[0]? = some note := by
    rw [← List.head?_eq_getElem?, ← relayed, List.head?_append, first]
    rfl
  have zero : note.sequence = .zero :=
    congrArg Sequence.mk (UInt64.toNat_inj.mp (peer.sequence_of_getElem head))
  exact ⟨(peer.proper note (List.mem_of_getElem? head)).confirmation_of_zero zero, zero⟩

/-- A confirmation that is relayed is accepted, and its replay ends the session. -/
example :
    let fates : List Fate := [⟨some ([7], .replicate 16 9), true, none, .error .io⟩]
    let sealed : Bytes := 7 :: List.replicate 16 9
    let deliver : Event := .open .server .clientConfirm .zero sealed fates
    let server := (run step [.seal .client .clientConfirm [1] fates, deliver, deliver]
      (initial (.replicate 64 5) fun _ => ⟨.client, ⟨.replicate 16 0⟩, .zero, .replicate 16 1,
        .replicate 16 2⟩)).endpoint .server
    server.accepted.map (·.plaintext) = [[1]] ∧ server.outcomes = [true, false] := by
  decide +kernel

/-- **No key and nonce are used twice, and no burned key is used.** In every state reached
by any calls on two sessions over one segment: no panic was reached; the encryptions of
an end are those of the records its `seal` returned, under the nonce of their sequence;
no two encryptions share key and nonce; the sequences of an end are 0, 1, 2, ...; the
record at `2^64 - 1` ends the session for `SequenceOverflow`; and a session is terminated
exactly when its keys are gone. Nonce and associated data determine what they bind. -/
theorem keys_and_nonces_used_once (segment : Segment) (ctx : Role → SessionContext)
    (events : List Event) :
    let c := run step events (initial segment ctx)
    c.panicked = false ∧
      Sealing.NonceFresh c.ledger ∧
      (∀ role, c.ledger.filter (·.owner = role) =
        (c.endpoint role).sent.map (entry segment (party ctx role))) ∧
      (∀ role, (c.endpoint role).sent.map (·.sequence.get.toNat) =
        List.range (c.endpoint role).sent.length) ∧
      (∀ role, (c.endpoint role).sent.countP (·.sequence.get.toNat == 2 ^ 64 - 1) ≤ 1) ∧
      (∀ role, ∀ note ∈ (c.endpoint role).sent, note.sequence.get.toNat = 2 ^ 64 - 1 →
        (c.endpoint role).session.terminated = some .sequenceOverflow ∧
        ∀ mt plaintext, (c.endpoint role).session.seal mt plaintext =
          pure (.error .sequenceOverflow, (c.endpoint role).session)) ∧
      (∀ role, (c.endpoint role).session.terminated ≠ none ↔
        (c.endpoint role).session.keys = none) ∧
      (∀ domain direction direction' seq seq',
        recordNonce domain direction seq = recordNonce domain direction' seq' →
        direction = direction' ∧ seq = seq') ∧
      ∀ ctx ctx' : SessionContext, ∀ mt mt' direction direction' epoch epoch' seq seq',
        ctx.buildAad mt direction epoch seq = ctx'.buildAad mt' direction' epoch' seq' →
        mt = mt' ∧ direction = direction' ∧ ctx.bookId = ctx'.bookId ∧
          ctx.segment = ctx'.segment ∧ ctx.clientNonce = ctx'.clientNonce ∧
          ctx.serverNonce = ctx'.serverNonce ∧ epoch = epoch' ∧ seq = seq' := by
  intro c
  have steady : Steady segment ctx c := steady_run segment ctx events
  refine ⟨steady.calm, steady.fresh, steady.ledger, fun role => (steady.sound role).counted, ?_,
    ?_, fun role => (steady.sound role).coherent, ?_, ?_⟩
  · intro role
    have once := List.nodup_iff_count_le_one.mp (steady.sound role).sequences_nodup (2 ^ 64 - 1)
    rw [List.count_eq_countP, List.countP_map] at once
    simpa [Function.comp_def] using once
  · intro role note mem last
    have overflow := (steady.sound role).last_record mem last
    refine ⟨overflow, ?_⟩
    intro mt plaintext
    exact Session.seal_overflowed overflow mt plaintext
  · intro domain direction direction' seq seq' same
    exact (recordNonce_inj.mp same).2
  · intro ctx ctx' mt mt' direction direction' epoch epoch' seq seq' same
    exact SessionContext.buildAad_inj same

end Channel

end Jbuu
