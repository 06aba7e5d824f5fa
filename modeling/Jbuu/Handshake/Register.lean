/-
# Handshake.Register — what the instances of a world did, clients and servers alike

The register forgets which machine an instance is: it keeps whether the instance has
still to issue, the session it holds, what it opened, established and uses, and the
shared ledger. `Sound` is the invariant: every sealing is of a session that some instance
opened, no two instances of one side open one segment, and what an instance established
rests on a sealing of its peer. One lemma each says that it survives a step that does
nothing, an opening, a sealing, an establishment and a use.
-/
import Jbuu.Handshake.World

namespace Jbuu.Handshake

set_option autoImplicit false

open Jbuu.Library.BigEndian (Bytes Exactly)
open Jbuu.Library

/-! ## What the instances did, as one register -/

/-- What matters of a machine: whether it has still to issue, whether it is done, and the
session it holds. -/
structure View where
  waiting : Bool
  done : Bool
  session : Option Session
  agreed : Option SegmentIndex

/-- The world, clients and servers alike. -/
structure Register where
  view : Party → View
  env : Env
  opened : Party → Option Session
  established : Party → Option Established
  live : Party → Option Session

def clientView (h : ClientHandshake) : View where
  waiting := h.phase = .idle ∨ h.phase = .helloSent
  done := h.phase = .established
  session := h.session
  agreed := h.agreed

def serverView (h : ServerHandshake) : View where
  waiting := h.phase = .idle ∨ h.phase = .issueWait
  done := h.phase = .established
  session := h.session
  agreed := h.agreed

def World.view (w : World) : Party → View
  | ⟨.client, i⟩ => clientView (w.client i)
  | ⟨.server, j⟩ => serverView (w.server j)

def World.register (w : World) : Register where
  view := w.view
  env := w.env
  opened := w.opened
  established := w.established
  live := w.live

/-- What has become of the session `o` an instance opened. -/
structure Stems (o s : Session) : Prop where
  ctx : s.ctx = o.ctx
  domain : s.domain = o.domain
  coherent : s.Coherent
  keys : ∀ keys, s.keys = some keys → o.keys = some keys

/-- A session made of a segment its side issued. -/
structure OpenedBy (book : List Segment) (env : Env) (p : Party) (s : Session) : Prop where
  role : s.ctx.role = p.role
  domain : s.domain = s.ctx.nonceDomain
  body : ∃ k body, k ∈ env.issued p.role ∧ book[k.get.toNat]? = some body ∧
    s.keys = some (.split body)

abbrev Entry := Sealing Party DirectionKey Nonce96 Bytes Bytes (Bytes × Tag)

/-- A sealing made with the session. -/
def SealedWith (s : Session) (entry : Entry) : Prop :=
  ∃ keys mt seq, s.keys = some keys ∧ entry.key = keys.keyFor s.ctx.role.sendDirection ∧
    entry.nonce = recordNonce s.domain s.ctx.role.sendDirection seq ∧
    entry.aad = s.ctx.buildAad mt s.ctx.role.sendDirection ⟨0⟩ seq

/-- The sealed part of a CONFIRM. -/
def sealedOf : Message → Bytes
  | .confirmC2s _ _ _ _ sealed | .confirmS2c _ _ _ _ sealed => sealed.val
  | _ => []

/-- A sealing that the session accepts as the peer's CONFIRM. -/
def AcceptedBy (s : Session) (confirm : Message) (entry : Entry) : Prop :=
  ∃ keys, s.keys = some keys ∧ entry.key = keys.keyFor s.ctx.role.sendDirection.opposite ∧
    entry.nonce = recordNonce s.domain s.ctx.role.sendDirection.opposite .zero ∧
    entry.aad = s.ctx.buildAad (confirmType s.ctx.role.sendDirection.opposite)
      s.ctx.role.sendDirection.opposite ⟨0⟩ .zero ∧
    entry.sealed = splitTag (sealedOf confirm)

/-- What one machine's view has to do with the session it opened. -/
structure Holds (opened : Option Session) (v : View) : Prop where
  waiting : v.waiting = true → v.session = none ∧ opened = none
  held : ∀ s, v.session = some s → opened = some s ∧ s.Coherent ∧ v.agreed = some s.ctx.segment ∧
    (s.ctx.role = .server → s.nextSend = .zero)

structure Sound (book : List Segment) (r : Register) : Prop where
  holds : ∀ p, Holds (r.opened p) (r.view p)
  done : ∀ p, (r.view p).done = true → r.established p ≠ none
  opened : ∀ p s, r.opened p = some s → OpenedBy book r.env p s
  /-- Two instances of one side never open one segment. -/
  apart : ∀ p p' s s', r.opened p = some s → r.opened p' = some s' → p.role = p'.role →
    s.keys = s'.keys → p = p'
  ledger : ∀ entry ∈ r.env.ledger, ∃ s, r.opened entry.owner = some s ∧ SealedWith s entry ∧
    (entry.owner.role = .server → r.established entry.owner ≠ none)
  established : ∀ p e, r.established p = some e → ∃ o, r.opened p = some o ∧ Stems o e.session ∧
    e.session.keys = o.keys ∧ e.segment = o.ctx.segment ∧
    ∃ entry ∈ r.env.ledger, AcceptedBy o e.confirm entry
  live : ∀ p s, r.live p = some s → r.established p ≠ none ∧ ∃ o, r.opened p = some o ∧ Stems o s

section Register

variable {book : List Segment} {r : Register}

/-- What an updated ghost says of an instance. -/
theorem update_eq_some {α : Type} {f : Party → Option α} {p p' : Party} {a b : α}
    (is : Function.update f p (some a) p' = some b) : (p' = p ∧ b = a) ∨ (p' ≠ p ∧ f p' = some b) := by
  by_cases this : p' = p
  · subst this
    rw [Function.update_self] at is
    exact .inl ⟨rfl, (Option.some.inj is).symm⟩
  · rw [Function.update_of_ne this] at is
    exact .inr ⟨this, is⟩

theorem update_some_ne_none {α : Type} {f : Party → Option α} {p p' : Party} {a : α}
    (there : f p' ≠ none) : Function.update f p (some a) p' ≠ none := by
  by_cases this : p' = p
  · subst this
    rw [Function.update_self]
    nofun
  · rwa [Function.update_of_ne this]

/-- Segments may be issued and wasted. -/
structure Grown (env env' : Env) : Prop where
  ledger : env'.ledger = env.ledger
  issued : ∀ role k, k ∈ env.issued role → k ∈ env'.issued role

theorem Grown.refl (env : Env) : Grown env env := ⟨rfl, fun _ _ mem => mem⟩

theorem Grown.trans {env env' env'' : Env} (first : Grown env env') (then_ : Grown env' env'') :
    Grown env env'' where
  ledger := then_.ledger.trans first.ledger
  issued role k mem := then_.issued role k (first.issued role k mem)

theorem OpenedBy.grown {p : Party} {env env' : Env} (grown : Grown env env') {s : Session}
    (opened : OpenedBy book env p s) : OpenedBy book env' p s where
  role := opened.role
  domain := opened.domain
  body := by
    obtain ⟨k, body, mem, there, keys⟩ := opened.body
    exact ⟨k, body, grown.issued _ k mem, there, keys⟩

/-- A step of one machine in which nothing is opened, sealed or established. -/
theorem Sound.quiet (sound : Sound book r) (p : Party) {env : Env} (grown : Grown r.env env) {v : View}
    (holds : Holds (r.opened p) v) (done : v.done = true → r.established p ≠ none) :
    Sound book { r with env, view := Function.update r.view p v } where
  done p' := by
    dsimp only
    by_cases this : p' = p
    · subst this
      rw [Function.update_self]
      exact done
    · rw [Function.update_of_ne this]
      exact sound.done p'
  holds p' := by
    dsimp only
    by_cases this : p' = p
    · subst this
      rw [Function.update_self]
      exact holds
    · rw [Function.update_of_ne this]
      exact sound.holds p'
  opened p' s is := (sound.opened p' s is).grown grown
  apart := sound.apart
  ledger entry mem := sound.ledger entry (grown.ledger ▸ mem)
  established p' e is := by
    obtain ⟨o, opened, stems, keys, segment, entry, mem, accepted⟩ := sound.established p' e is
    exact ⟨o, opened, stems, keys, segment, entry, grown.ledger.symm ▸ mem, accepted⟩
  live := sound.live

/-- An instance that was still waiting opens a segment its side has just issued. -/
theorem Sound.opens (sound : Sound book r) (p : Party) (distinct : DistinctHalves book) {env env' : Env}
    (grown : Grown r.env env) {k : SegmentIndex} {body : Segment}
    (there : book[k.get.toNat]? = some body) (new : k ∉ env.issued p.role)
    (issued : Grown env env') (mem : k ∈ env'.issued p.role) (waiting : (r.view p).waiting = true)
    {v : View} {s : Session} (role : s.ctx.role = p.role) (domain : s.domain = s.ctx.nonceDomain)
    (keys : s.keys = some (.split body)) (holds : Holds (some s) v) (going : v.done = false) :
    Sound book
      { r with
        env := env'
        view := Function.update r.view p v
        opened := Function.update r.opened p (some s) } := by
  have free : r.opened p = none := ((sound.holds p).waiting waiting).2
  have kept : ∀ {p' s'}, r.opened p' = some s' →
      Function.update r.opened p (some s) p' = some s' := by
    intro p' s' is
    rwa [Function.update_of_ne]
    rintro rfl
    rw [free] at is
    cases is
  -- The segment is new to this side, so no instance of it has these keys.
  have strange : ∀ {p' s'}, r.opened p' = some s' → p'.role = p.role → s'.keys ≠ s.keys := by
    intro p' s' is same equal
    obtain ⟨k', body', mem', there', keys'⟩ := (sound.opened p' s' is).body
    rw [keys', keys] at equal
    have bodies := SessionKeys.split_inj (Option.some.inj equal)
    obtain ⟨index, -⟩ := distinct _ _ _ _ .clientToServer .clientToServer there' there
      (by rw [bodies])
    have same_k : k' = k := congrArg SegmentIndex.mk (UInt64.toNat_inj.mp index)
    rw [same_k, same] at mem'
    exact new (grown.issued _ _ mem')
  refine ⟨?_, ?_, ?_, ?_, ?_, ?_, ?_⟩
  · intro p'
    by_cases this : p' = p
    · subst this
      dsimp only
      rw [Function.update_self, Function.update_self]
      exact holds
    · dsimp only
      rw [Function.update_of_ne this, Function.update_of_ne this]
      exact sound.holds p'
  · intro p'
    dsimp only
    by_cases this : p' = p
    · subst this
      rw [Function.update_self, going]
      nofun
    · rw [Function.update_of_ne this]
      exact sound.done p'
  · intro p' s' is
    rcases update_eq_some is with ⟨rfl, rfl⟩ | ⟨-, is⟩
    · exact ⟨role, domain, k, body, mem, there, keys⟩
    · exact ((sound.opened p' s' is).grown grown).grown issued
  · intro p₁ p₂ s₁ s₂ is₁ is₂ same equal
    rcases update_eq_some is₁ with ⟨rfl, rfl⟩ | ⟨-, was₁⟩
    · rcases update_eq_some is₂ with ⟨rfl, rfl⟩ | ⟨-, was₂⟩
      · rfl
      · exact absurd equal.symm (strange was₂ same.symm)
    · rcases update_eq_some is₂ with ⟨rfl, rfl⟩ | ⟨-, was₂⟩
      · exact absurd equal (strange was₁ same)
      · exact sound.apart p₁ p₂ s₁ s₂ was₁ was₂ same equal
  · intro entry old
    rw [issued.ledger, grown.ledger] at old
    obtain ⟨s', is, rest⟩ := sound.ledger entry old
    exact ⟨s', kept is, rest⟩
  · intro p' e is
    obtain ⟨o, opened, stems, same, segment, entry, old, accepted⟩ := sound.established p' e is
    refine ⟨o, kept opened, stems, same, segment, entry, ?_, accepted⟩
    rw [issued.ledger, grown.ledger]
    exact old
  · intro p' s' is
    obtain ⟨there, o, opened, stems⟩ := sound.live p' s' is
    exact ⟨there, o, kept opened, stems⟩

/-- An instance seals a record with the session it opened. -/
theorem Sound.seals (sound : Sound book r) (entry : Entry) {o : Session}
    (opened : r.opened entry.owner = some o) (sealed : SealedWith o entry)
    (server : entry.owner.role = .server → r.established entry.owner ≠ none) :
    Sound book { r with env := { r.env with ledger := r.env.ledger ++ [entry] } } where
  holds := sound.holds
  done := sound.done
  opened p s is := by
    have before := sound.opened p s is
    exact ⟨before.role, before.domain, before.body⟩
  apart := sound.apart
  ledger e mem := by
    rcases List.mem_append.mp mem with old | new
    · exact sound.ledger e old
    · rw [List.mem_singleton.mp new]
      exact ⟨o, opened, sealed, server⟩
  established p e is := by
    obtain ⟨o, opened, stems, keys, segment, entry, mem, accepted⟩ := sound.established p e is
    exact ⟨o, opened, stems, keys, segment, entry, List.mem_append_left _ mem, accepted⟩
  live := sound.live

/-- An instance hands over its session, on a CONFIRM that someone sealed. -/
theorem Sound.establishes (sound : Sound book r) (p : Party) (e : Established) {o : Session}
    (opened : r.opened p = some o) (stems : Stems o e.session) (keys : e.session.keys = o.keys)
    (segment : e.segment = o.ctx.segment) {entry : Entry} (mem : entry ∈ r.env.ledger)
    (accepted : AcceptedBy o e.confirm entry) :
    Sound book
      { r with
        established := Function.update r.established p (some e)
        live := Function.update r.live p (some e.session) } where
  holds := sound.holds
  done p' ended := update_some_ne_none (sound.done p' ended)
  opened := sound.opened
  apart := sound.apart
  ledger entry mem := by
    obtain ⟨s, is, sealed, server⟩ := sound.ledger entry mem
    exact ⟨s, is, sealed, fun role => update_some_ne_none (server role)⟩
  established p' e' is := by
    rcases update_eq_some is with ⟨rfl, rfl⟩ | ⟨-, is⟩
    · exact ⟨o, opened, stems, keys, segment, entry, mem, accepted⟩
    · exact sound.established p' e' is
  live p' s is := by
    rcases update_eq_some is with ⟨rfl, rfl⟩ | ⟨-, is⟩
    · refine ⟨?_, o, opened, stems⟩
      dsimp only
      rw [Function.update_self]
      nofun
    · exact ⟨update_some_ne_none (sound.live p' s is).1, (sound.live p' s is).2⟩

/-- The holder of an established session uses it. -/
theorem Sound.uses (sound : Sound book r) (p : Party) {o s : Session} (there : r.established p ≠ none)
    (opened : r.opened p = some o) (stems : Stems o s) :
    Sound book { r with live := Function.update r.live p (some s) } where
  holds := sound.holds
  done := sound.done
  opened := sound.opened
  apart := sound.apart
  ledger := sound.ledger
  established := sound.established
  live p' s' is := by
    rcases update_eq_some is with ⟨rfl, rfl⟩ | ⟨-, is⟩
    · exact ⟨there, o, opened, stems⟩
    · exact sound.live p' s' is

end Register

end Jbuu.Handshake
