/-
# Station.History — what the marks of a station keep

`History` is the invariant of the marks over all that a station ever does: each encryption is under
the key of a segment that was delivered, no key and nonce are used twice, sessions are handed over on
segments that rise, and a record is never asked for before the log has the segment. `Holding` is what a
session that is still there adds: how far its own key was used.

A handshake extends the history by `History.spent` and `History.established`, a call of a session by
`History.used`, an entry by `History.audited`.
-/
import Jbuu.Handshake.World
import Jbuu.Station.Processes

namespace Jbuu.Station

set_option autoImplicit false

open Jbuu.Library.BigEndian (Bytes)
open Jbuu.Library
open Jbuu.Library.Program (wp_bind wp_mono wp_pure)
open Jbuu.Allocator (BookFile Steady Delivery)
open Jbuu.AuditLog (AuditEntry)
open Jbuu.Cli (SessionInfo)
open Jbuu.Handshake (Answer DistinctHalves)

section Invariant

variable (book : BookFile) (role : Role)

/-- The bodies of the book, in order. -/
def bodies : List Segment := (List.range book.segmentCount.toNat).map (bodyAt book)

/-- The segment of a session that was handed over. -/
def Mark.segment : Mark → Option Nat
  | .established info _ => some info.segment.get.toNat
  | _ => none

/-- The segments of the sessions, in the order they were handed over. -/
def segments (marks : List Mark) : List Nat := marks.filterMap Mark.segment

@[simp] theorem segments_append (marks marks' : List Mark) :
    segments (marks ++ marks') = segments marks ++ segments marks' := List.filterMap_append

/-- Every record comes after the entry of its segment. -/
def Preceded (marks : List Mark) : Prop :=
  ∀ (i : Nat) (segment : SegmentIndex) (op : HostOp), marks[i]? = some (Mark.record segment op) →
    ∃ j < i, ∃ info : SessionInfo, info.segment = segment ∧ marks[j]? = some (Mark.audited (issued book info))

structure History (g : Ground) : Prop where
  keys : ∀ key nonce, (key, nonce) ∈ sealings g.marks → ∃ d ∈ g.system.delivered, key = keyAt book role d.index
  once : DistinctHalves (bodies book) → (sealings g.marks).Nodup
  rising : (segments g.marks).Pairwise (· < ·)
  taken : ∀ i ∈ segments g.marks, ∃ d ∈ g.system.delivered, d.index = i
  keyed : ∀ info keys, Mark.established info keys ∈ g.marks →
    keys = some (.split (bodyAt book info.segment.get.toNat))
  preceded : Preceded book g.marks

/-- A session over the segment it names. -/
structure Holding (g : Ground) (session : Session) (info : SessionInfo) : Prop where
  played : session.ctx.role = role
  coherent : session.Coherent
  keys : session.terminated = none → session.keys = some (.split (bodyAt book info.segment.get.toNat))
  delivered : ∃ d ∈ g.system.delivered, d.index = info.segment.get.toNat
  /-- Its key was used with the nonces below its next sequence. -/
  below : DistinctHalves (bodies book) → session.terminated = none →
    ∀ nonce, (keyAt book role info.segment.get.toNat, nonce) ∈ sealings g.marks →
      ∃ seq : Sequence, seq.get.toNat < session.nextSend.get.toNat ∧
        nonce = recordNonce session.domain role.sendDirection seq

end Invariant

section Keys

variable {sha : Bytes → Digest} {book : BookFile} {role role' : Role} {start g g' : Ground}

/-- The key tells the segment and the role. -/
theorem keyAt_inj (distinct : DistinctHalves (bodies book)) {i j : Nat} (inside : i < book.segmentCount.toNat)
    (inside' : j < book.segmentCount.toNat) (same : keyAt book role i = keyAt book role' j) :
    i = j ∧ role = role' := by
  have at_ {n : Nat} (inside : n < book.segmentCount.toNat) : (bodies book)[n]? = some (bodyAt book n) := by
    rw [bodies, List.getElem?_map, List.getElem?_range inside]
    rfl
  obtain ⟨index, direction⟩ := distinct i j _ _ _ _ (at_ inside) (at_ inside') same
  exact ⟨index, Role.sendDirection_inj.mp direction⟩

/-- What a handshake took comes after all that was taken before. -/
theorem Spent.fresh {new : List Delivery} (steady : Steady sha book g.system) (took : Took start new g)
    {old d : Delivery} (before : old ∈ start.system.delivered) (now : d ∈ new) : old.index < d.index := by
  have ordered := steady.delivered.ordered
  rw [took, List.pairwise_append] at ordered
  exact ordered.2.2 old before d now

theorem Spent.key_fresh (distinct : DistinctHalves (bodies book)) {new : List Delivery}
    (steady : Steady sha book g.system) (took : Took start new g) {old d : Delivery}
    (before : old ∈ start.system.delivered) (now : d ∈ new) :
    keyAt book role old.index ≠ keyAt book role d.index := by
  intro same
  have inside {d : Delivery} (mem : d ∈ g.system.delivered) := steady.delivered.inside d mem
  have index := (keyAt_inj distinct (inside (by rw [took]; exact List.mem_append_left _ before))
    (inside (by rw [took]; exact List.mem_append_right _ now)) same).1
  exact absurd index (Spent.fresh steady took before now).ne

end Keys

/-! ## Marks that are none of these -/

section Marks

variable {sha : Bytes → Digest} {book : BookFile} {role : Role} {start g g' : Ground}

theorem Preceded.append {marks new : List Mark} (preceded : Preceded book marks)
    (after_ : ∀ segment op, Mark.record segment op ∈ new →
      ∃ info : SessionInfo, info.segment = segment ∧ Mark.audited (issued book info) ∈ marks) :
    Preceded book (marks ++ new) := by
  intro i segment op here
  rcases lt_or_ge i marks.length with old | late
  · rw [List.getElem?_append_left old] at here
    obtain ⟨j, before, info, same, there⟩ := preceded i segment op here
    exact ⟨j, before, info, same, by rw [List.getElem?_append_left (before.trans old), there]⟩
  · rw [List.getElem?_append_right late] at here
    obtain ⟨info, same, mem⟩ := after_ segment op (List.mem_of_getElem? here)
    obtain ⟨j, small, there⟩ := List.getElem_of_mem mem
    refine ⟨j, small.trans_le late, info, same, ?_⟩
    rw [List.getElem?_append_left small, List.getElem?_eq_getElem small, there]

/-- Most marks are no encryptions. -/
theorem sealings_mark {m : Mark} (quiet : m.sealing = none) : sealings (g.mark m).marks = sealings g.marks := by
  have none_ : sealings [m] = [] := by simp [sealings, quiet]
  rw [Ground.mark, sealings_append, none_, List.append_nil]

theorem sealings_confirm (ops : List HostOp) : sealings (ops.map .confirm) = ops.filterMap encryption := by
  rw [sealings, List.filterMap_map]
  rfl

theorem sealings_record (segment : SegmentIndex) (ops : List HostOp) :
    sealings (ops.map (.record segment)) = ops.filterMap encryption := by
  rw [sealings, List.filterMap_map]
  rfl

theorem segments_confirm (ops : List HostOp) : segments (ops.map .confirm) = [] := by
  rw [segments, List.filterMap_map, List.filterMap_eq_nil_iff]
  intro op _
  rfl

theorem segments_record (segment : SegmentIndex) (ops : List HostOp) :
    segments (ops.map (.record segment)) = [] := by
  rw [segments, List.filterMap_map, List.filterMap_eq_nil_iff]
  intro op _
  rfl

theorem Asked.encrypted {sealed : List (DirectionKey × Nonce96)} (asked : Asked start sealed g) :
    sealings g.marks = sealings start.marks ++ sealed := by
  obtain ⟨ops, marks, here⟩ := asked
  rw [marks, sealings_append, sealings_confirm, here]

theorem Asked.handed {sealed : List (DirectionKey × Nonce96)} (asked : Asked start sealed g) :
    segments g.marks = segments start.marks := by
  obtain ⟨ops, marks, -⟩ := asked
  rw [marks, segments_append, segments_confirm, List.append_nil]

/-- A handshake marks no more than its own requests. -/
theorem Asked.mem {sealed : List (DirectionKey × Nonce96)} (asked : Asked start sealed g) {m : Mark}
    (mem : m ∈ g.marks) : m ∈ start.marks ∨ ∃ op, m = .confirm op := by
  obtain ⟨ops, marks, -⟩ := asked
  rw [marks, List.mem_append, List.mem_map] at mem
  refine mem.imp_right ?_
  rintro ⟨op, -, rfl⟩
  exact ⟨op, rfl⟩

theorem Asked.preceded {sealed : List (DirectionKey × Nonce96)} (asked : Asked start sealed g)
    (preceded : Preceded book start.marks) : Preceded book g.marks := by
  obtain ⟨ops, marks, -⟩ := asked
  rw [marks]
  refine preceded.append fun segment op mem => ?_
  obtain ⟨_, _, other⟩ := List.mem_map.mp mem
  cases other

end Marks

/-! ## A handshake -/

section Handshake

variable {sha : Bytes → Digest} {book : BookFile} {role : Role} {start g : Ground}

/-- The encryptions of a handshake. -/
theorem Spent.encrypted (spent : Spent sha book role start g) : ∃ new, Took start new g ∧
    (sealings g.marks = sealings start.marks ∨ ∃ d ∈ new, ∃ nonce,
      sealings g.marks = sealings start.marks ++ [(keyAt book role d.index, nonce)]) := by
  obtain ⟨new, took, asked | ⟨d, mem, nonce, asked⟩⟩ := spent.taken
  · exact ⟨new, took, .inl (asked.encrypted.trans (List.append_nil _))⟩
  · exact ⟨new, took, .inr ⟨d, mem, nonce, asked.encrypted⟩⟩

theorem Spent.asks (spent : Spent sha book role start g) : ∃ sealed, Asked start sealed g := by
  obtain ⟨_, _, asked | ⟨_, _, _, asked⟩⟩ := spent.taken
  · exact ⟨_, asked⟩
  · exact ⟨_, asked⟩

theorem Spent.delivered (spent : Spent sha book role start g) {d : Delivery}
    (mem : d ∈ start.system.delivered) : d ∈ g.system.delivered := by
  obtain ⟨new, took, -⟩ := spent.taken
  rw [took]
  exact List.mem_append_left _ mem

/-- The handshake uses no key that was used before. -/
theorem Spent.quiet (distinct : DistinctHalves (bodies book)) (spent : Spent sha book role start g)
    {old : Delivery} (before : old ∈ start.system.delivered) {nonce : Nonce96}
    (mem : (keyAt book role old.index, nonce) ∈ sealings g.marks) :
    (keyAt book role old.index, nonce) ∈ sealings start.marks := by
  obtain ⟨new, took, same | ⟨d, now, nonce', same⟩⟩ := spent.encrypted
  · rw [same] at mem
    exact mem
  · rw [same, List.mem_append, List.mem_singleton] at mem
    refine mem.resolve_right fun here => ?_
    exact Spent.key_fresh distinct spent.steady took before now (congrArg Prod.fst here)

theorem History.spent (history : History book role start) (spent : Spent sha book role start g) :
    History book role g := by
  obtain ⟨sealed, asked⟩ := spent.asks
  refine ⟨?_, ?_, ?_, ?_, ?_, asked.preceded history.preceded⟩
  · intro key nonce mem
    obtain ⟨new, took, same | ⟨d, now, nonce', same⟩⟩ := spent.encrypted
    · rw [same] at mem
      obtain ⟨d, before, key_⟩ := history.keys key nonce mem
      exact ⟨d, spent.delivered before, key_⟩
    · rw [same, List.mem_append, List.mem_singleton] at mem
      rcases mem with mem | here
      · obtain ⟨d, before, key_⟩ := history.keys key nonce mem
        exact ⟨d, spent.delivered before, key_⟩
      · refine ⟨d, ?_, congrArg Prod.fst here⟩
        rw [took]
        exact List.mem_append_right _ now
  · intro distinct
    obtain ⟨new, took, same | ⟨d, now, nonce, same⟩⟩ := spent.encrypted
    · rw [same]
      exact history.once distinct
    · rw [same, List.nodup_append]
      refine ⟨history.once distinct, List.nodup_singleton _, ?_⟩
      rintro ⟨key, nonce'⟩ mem _ here rfl
      obtain ⟨old, before, rfl⟩ := history.keys key nonce' mem
      exact Spent.key_fresh distinct spent.steady took before now (congrArg Prod.fst (List.mem_singleton.mp here))
  · rw [asked.handed]
    exact history.rising
  · intro i mem
    rw [asked.handed] at mem
    obtain ⟨d, before, index⟩ := history.taken i mem
    exact ⟨d, spent.delivered before, index⟩
  · intro info keys mem
    rcases asked.mem mem with mem | ⟨op, other⟩
    · exact history.keyed info keys mem
    · cases other

/-- What was held before a handshake is held after it. -/
theorem Holding.spent {session : Session} {info : SessionInfo} (holding : Holding book role start session info)
    (spent : Spent sha book role start g) : Holding book role g session info where
  played := holding.played
  coherent := holding.coherent
  keys := holding.keys
  delivered := by
    obtain ⟨d, before, index⟩ := holding.delivered
    exact ⟨d, spent.delivered before, index⟩
  below := by
    intro distinct active nonce mem
    obtain ⟨d, before, index⟩ := holding.delivered
    rw [← index] at mem
    have old := spent.quiet distinct before mem
    rw [index] at old
    exact holding.below distinct active nonce old

/-- Between what was held and the segment of a new session. -/
theorem Holding.before {session : Session} {info info' : SessionInfo}
    {sealed : List (DirectionKey × Nonce96)} (holding : Holding book role start session info)
    (keyed : Keyed sha book start info'.segment.get.toNat sealed g) :
    info.segment.get.toNat < info'.segment.get.toNat := by
  obtain ⟨old, before, index⟩ := holding.delivered
  obtain ⟨new, took, d, now, index'⟩ := keyed.took
  rw [← index, ← index']
  exact Spent.fresh keyed.steady took before now

section Established

variable {session : Session} {info : SessionInfo}

/-- The driver hands over a session. -/
theorem History.established (history : History book role start)
    (fresh : OnSegment book role session info.segment ⟨1⟩)
    (keyed : Keyed sha book start info.segment.get.toNat
      [(keyAt book role info.segment.get.toNat, recordNonce session.domain role.sendDirection .zero)] g) :
    History book role (g.mark (.established info session.keys)) := by
  have spent : Spent sha book role start g := (keyed.left (.inr ⟨_, rfl⟩)).spent
  have now := history.spent spent
  have same : sealings (g.mark (.established info session.keys)).marks = sealings g.marks := sealings_mark rfl
  have one : segments (g.mark (.established info session.keys)).marks =
      segments g.marks ++ [info.segment.get.toNat] := by
    rw [Ground.mark, segments_append]
    rfl
  obtain ⟨new, took, d, mem, index⟩ := keyed.took
  refine ⟨?_, ?_, ?_, ?_, ?_, ?_⟩
  · rw [same]
    exact now.keys
  · rw [same]
    exact now.once
  · rw [one, keyed.asked.handed, List.pairwise_append]
    refine ⟨history.rising, List.pairwise_singleton _ _, ?_⟩
    intro i before j here
    obtain ⟨old, there, index'⟩ := history.taken i before
    rw [List.mem_singleton.mp here, ← index, ← index']
    exact Spent.fresh keyed.steady took there mem
  · intro i here
    rw [one, List.mem_append, List.mem_singleton] at here
    rcases here with before | rfl
    · exact now.taken i before
    · refine ⟨d, ?_, index⟩
      rw [Ground.system_mark, took]
      exact List.mem_append_right _ mem
  · intro info' keys here
    rcases List.mem_append.mp here with before | here
    · exact now.keyed info' keys before
    · obtain ⟨rfl, rfl⟩ := Mark.established.inj (List.mem_singleton.mp here)
      exact fresh.keys
  · refine now.preceded.append fun segment op here => ?_
    cases List.mem_singleton.mp here

theorem Holding.established (history : History book role start)
    (fresh : OnSegment book role session info.segment ⟨1⟩)
    (keyed : Keyed sha book start info.segment.get.toNat
      [(keyAt book role info.segment.get.toNat, recordNonce session.domain role.sendDirection .zero)] g) :
    Holding book role (g.mark (.established info session.keys)) session info := by
  obtain ⟨new, took, d, mem, index⟩ := keyed.took
  refine ⟨fresh.role, by simp [Session.Coherent, fresh.active, fresh.keys], fun _ => fresh.keys,
    ⟨d, ?_, index⟩, ?_⟩
  · rw [Ground.system_mark, took]
    exact List.mem_append_right _ mem
  intro distinct _ nonce here
  rw [sealings_mark rfl, keyed.asked.encrypted, List.mem_append] at here
  rcases here with before | now
  · obtain ⟨old, there, key⟩ := history.keys _ _ before
    rw [← index] at key
    exact absurd key.symm (Spent.key_fresh distinct keyed.steady took there mem)
  · refine ⟨.zero, ?_, congrArg Prod.snd (List.mem_singleton.mp now)⟩
    rw [fresh.next]
    exact Nat.zero_lt_one

end Established

end Handshake

/-! ## An entry -/

section Entry

variable {book : BookFile} {role : Role} {g : Ground} {m : Mark} {entry : AuditEntry}

theorem History.audited (history : History book role g) (entry : AuditEntry) :
    History book role (g.mark (.audited entry)) := by
  have quiet : sealings (g.mark (.audited entry)).marks = sealings g.marks := sealings_mark rfl
  have same : segments (g.mark (.audited entry)).marks = segments g.marks := by
    rw [Ground.mark, segments_append]
    exact List.append_nil _
  refine ⟨?_, ?_, ?_, ?_, ?_, ?_⟩
  · rw [quiet]
    exact history.keys
  · rw [quiet]
    exact history.once
  · rw [same]
    exact history.rising
  · rw [same]
    exact history.taken
  · intro info keys here
    refine history.keyed info keys ((List.mem_append.mp here).resolve_right fun other => ?_)
    cases List.mem_singleton.mp other
  · refine history.preceded.append fun segment op here => ?_
    cases List.mem_singleton.mp here

/-- What a session keeps where something else is marked. -/
theorem Holding.mark {session : Session} {info : SessionInfo} (holding : Holding book role g session info)
    (quiet : m.sealing = none) : Holding book role (g.mark m) session info := by
  refine ⟨holding.played, holding.coherent, holding.keys, holding.delivered, ?_⟩
  rw [sealings_mark quiet]
  exact holding.below

end Entry

/-! ## A call of a session -/

section Call

/-- What a call of a session did: it ended the session or left it as it is but for its sequences, and
it asked the cipher for at most one encryption, with the next sequence. -/
structure Used (role : Role) (segment : SegmentIndex) (session : Session) (start : Ground)
    (session' : Session) (g : Ground) : Prop where
  ctx : session'.ctx = session.ctx
  domain : session'.domain = session.domain
  coherent : session'.Coherent
  active : session'.terminated = none → session.terminated = none ∧ session'.keys = session.keys
  system : g.system = start.system
  asked : ∃ ops : List HostOp, g.marks = start.marks ++ ops.map (.record segment) ∧
    (ops.filterMap encryption = [] ∧ (session'.terminated = none → session'.nextSend = session.nextSend) ∨
      session.terminated = none ∧ ∃ keys, session.keys = some keys ∧
        ops.filterMap encryption =
          [(keys.keyFor role.sendDirection, recordNonce session.domain role.sendDirection session.nextSend)] ∧
        (session'.terminated = none → session.nextSend.get.toNat < session'.nextSend.get.toNat))

variable {book : BookFile} {role : Role} {g start : Ground} {session session' : Session}
  {segment : SegmentIndex} {info info' : SessionInfo}

theorem Used.refl (coherent : session.Coherent) : Used role segment session g session g :=
  ⟨rfl, rfl, coherent, fun active => ⟨active, rfl⟩, rfl, [], (List.append_nil _).symm, .inl ⟨rfl, fun _ => rfl⟩⟩

/-- The session ends without a request. -/
theorem Used.terminated (reason : Termination) : Used role segment session g (session.terminate reason) g :=
  ⟨rfl, rfl, Session.coherent_terminate session reason, by rintro ⟨⟩, rfl, [], (List.append_nil _).symm,
    .inl ⟨rfl, by rintro ⟨⟩⟩⟩

theorem wp_seal (coherent : session.Coherent) (played : session.ctx.role = role) (mt : MessageType)
    (plaintext : Bytes) :
    ((RecordCall.seal mt plaintext).on session).wp (recordHost segment) (Used role segment session g)
      (fun _ => False) g := by
  show Program.wp _ _ _ (_ >>= _) _
  rw [wp_bind]
  refine Session.wp_seal coherent (fun e _ => .refl coherent) (fun e reason _ _ => .terminated reason) ?_
  intro keys active held seals answer
  let op : HostOp := .encrypt (keys.keyFor session.ctx.role.sendDirection)
    (recordNonce session.domain session.ctx.role.sendDirection session.nextSend)
    (session.ctx.buildAad mt session.ctx.role.sendDirection ⟨0⟩ session.nextSend) plaintext
  have once : ([op] : List HostOp).filterMap encryption = [(keys.keyFor role.sendDirection,
      recordNonce session.domain role.sendDirection session.nextSend)] := by
    rw [← played]
    rfl
  have ended (reason : Termination) :
      Used role segment session g (session.terminate reason) (g.mark (.record segment op)) :=
    ⟨rfl, rfl, Session.coherent_terminate session reason, by rintro ⟨⟩, rfl, [op], rfl,
      .inr ⟨active, keys, held, once, by rintro ⟨⟩⟩⟩
  show Used role segment session g (session.sealedAfter _).2 (g.mark (.record segment op))
  cases answer.sealed with
  | none => exact ended .authentication
  | some pair =>
      simp only [Option.map_some, Session.sealedAfter]
      cases advance : session.nextSend.next with
      | none => exact ended .sequenceOverflow
      | some next =>
          refine ⟨rfl, rfl, coherent, fun _ => ⟨active, rfl⟩, rfl, [op], rfl,
            .inr ⟨active, keys, held, once, fun _ => ?_⟩⟩
          have after_ := (Sequence.next_eq_some.mp advance).2
          show _ < ((session.sendSeq.set _ next).get _).get.toNat
          rw [PerDirection.get_set_same, after_]
          exact Nat.lt_succ_self _

theorem wp_open (coherent : session.Coherent) (mt : MessageType) (seq : Sequence) (sealed : Bytes) :
    ((RecordCall.open mt seq sealed).on session).wp (recordHost segment) (Used role segment session g)
      (fun _ => False) g := by
  show Program.wp _ _ _ (_ >>= _) _
  rw [wp_bind]
  refine Session.wp_open coherent (fun e _ => .refl coherent) (fun e reason _ _ => .terminated reason) ?_
  intro keys active held opens answer
  let op : HostOp := .decrypt (keys.keyFor session.ctx.role.sendDirection.opposite)
    (recordNonce session.domain session.ctx.role.sendDirection.opposite seq)
    (session.ctx.buildAad mt session.ctx.role.sendDirection.opposite ⟨0⟩ seq) (splitTag sealed).1
    (splitTag sealed).2
  show Used role segment session g (session.openedAfter seq answer.opened).2 (g.mark (.record segment op))
  cases answer.opened with
  | none =>
      exact ⟨rfl, rfl, Session.coherent_terminate session .authentication, by rintro ⟨⟩, rfl, [op], rfl,
        .inl ⟨rfl, by rintro ⟨⟩⟩⟩
  | some plaintext => exact ⟨rfl, rfl, coherent, fun _ => ⟨active, rfl⟩, rfl, [op], rfl, .inl ⟨rfl, fun _ => rfl⟩⟩

/-- **What a call of a session can do.** -/
theorem wp_recordCall (coherent : session.Coherent) (played : session.ctx.role = role) (call : RecordCall) :
    (call.on session).wp (recordHost segment) (Used role segment session g) (fun _ => False) g := by
  cases call with
  | «seal» mt plaintext => exact wp_seal coherent played mt plaintext
  | «open» mt seq sealed => exact wp_open coherent mt seq sealed
  | close =>
      show Used role segment session g session.close g
      unfold Session.close
      split
      · exact .terminated .closed
      · exact .refl coherent

/-- The encryptions of a call. -/
theorem Used.encrypted (holding : Holding book role start session info)
    (used : Used role info.segment session start session' g) :
    sealings g.marks = sealings start.marks ∧ (session'.terminated = none → session'.nextSend = session.nextSend) ∨
      session.terminated = none ∧
        sealings g.marks = sealings start.marks ++ [(keyAt book role info.segment.get.toNat,
          recordNonce session.domain role.sendDirection session.nextSend)] ∧
        (session'.terminated = none → session.nextSend.get.toNat < session'.nextSend.get.toNat) := by
  obtain ⟨ops, marks, ⟨none_, next⟩ | ⟨active, keys, held, once, next⟩⟩ := used.asked
  · left
    rw [marks, sealings_append, sealings_record, none_, List.append_nil]
    exact ⟨rfl, next⟩
  · right
    obtain rfl := Option.some.inj ((holding.keys active).symm.trans held)
    rw [marks, sealings_append, sealings_record, once]
    exact ⟨active, rfl, next⟩

theorem Used.kept (used : Used role segment session start session' g) {m : Mark} (mem : m ∈ start.marks) :
    m ∈ g.marks := by
  obtain ⟨ops, marks, -⟩ := used.asked
  rw [marks]
  exact List.mem_append_left _ mem

/-- A call writes nothing to the log. -/
theorem Used.audited (used : Used role segment session start session' g) {entry : AuditEntry}
    (mem : Mark.audited entry ∈ g.marks) : Mark.audited entry ∈ start.marks := by
  obtain ⟨ops, marks, -⟩ := used.asked
  rw [marks, List.mem_append] at mem
  refine mem.resolve_right fun other => ?_
  obtain ⟨_, _, other⟩ := List.mem_map.mp other
  cases other

/-- A call asks only of a segment that the log has. -/
theorem History.used (history : History book role start) (holding : Holding book role start session info)
    (used : Used role info.segment session start session' g)
    (logged : Mark.audited (issued book info) ∈ start.marks) : History book role g := by
  obtain ⟨ops, marks, -⟩ := used.asked
  have same : segments g.marks = segments start.marks := by
    rw [marks, segments_append, segments_record, List.append_nil]
  refine ⟨?_, ?_, ?_, ?_, ?_, ?_⟩
  · intro key nonce mem
    rw [used.system]
    rcases used.encrypted holding with ⟨quiet, -⟩ | ⟨-, once, -⟩
    · rw [quiet] at mem
      exact history.keys key nonce mem
    · rw [once, List.mem_append, List.mem_singleton] at mem
      rcases mem with mem | here
      · exact history.keys key nonce mem
      · obtain ⟨d, there, index⟩ := holding.delivered
        exact ⟨d, there, by rw [index]; exact congrArg Prod.fst here⟩
  · intro distinct
    rcases used.encrypted holding with ⟨quiet, -⟩ | ⟨active, once, -⟩
    · rw [quiet]
      exact history.once distinct
    · rw [once, List.nodup_append]
      refine ⟨history.once distinct, List.nodup_singleton _, ?_⟩
      rintro _ mem _ here rfl
      rw [List.mem_singleton.mp here] at mem
      obtain ⟨seq, lower, nonce⟩ := holding.below distinct active _ mem
      rw [(recordNonce_inj.mp nonce).2.2] at lower
      exact absurd lower (lt_irrefl _)
  · rw [same]
    exact history.rising
  · rw [same, used.system]
    exact history.taken
  · intro info' keys here
    rw [marks, List.mem_append] at here
    refine history.keyed info' keys (here.resolve_right fun other => ?_)
    obtain ⟨_, _, other⟩ := List.mem_map.mp other
    cases other
  · rw [marks]
    refine history.preceded.append fun segment op here => ?_
    obtain ⟨_, _, same⟩ := List.mem_map.mp here
    exact ⟨info, (Mark.record.inj same).1, logged⟩

theorem Holding.used (holding : Holding book role start session info)
    (used : Used role info.segment session start session' g) : Holding book role g session' info where
  played := by
    rw [used.ctx]
    exact holding.played
  coherent := used.coherent
  keys := by
    intro active
    obtain ⟨before, same⟩ := used.active active
    rw [same]
    exact holding.keys before
  delivered := by
    rw [used.system]
    exact holding.delivered
  below := by
    intro distinct active nonce mem
    have below := holding.below distinct (used.active active).1 nonce
    rw [used.domain]
    rcases used.encrypted holding with ⟨quiet, next⟩ | ⟨-, once, next⟩
    · rw [quiet] at mem
      rw [next active]
      exact below mem
    · rw [once, List.mem_append, List.mem_singleton] at mem
      rcases mem with mem | here
      · obtain ⟨seq, lower, same⟩ := below mem
        exact ⟨seq, lower.trans (next active), same⟩
      · exact ⟨session.nextSend, next active, congrArg Prod.snd here⟩

/-- The call of another session. -/
theorem Holding.aside {sha : Bytes → Digest} {other : Session} (steady : Steady sha book start.system)
    (holding : Holding book role start other info') (mine : Holding book role start session info)
    (apart : info'.segment ≠ info.segment) (used : Used role info.segment session start session' g) :
    Holding book role g other info' where
  played := holding.played
  coherent := holding.coherent
  keys := holding.keys
  delivered := by
    rw [used.system]
    exact holding.delivered
  below := by
    intro distinct active nonce mem
    refine holding.below distinct active nonce ?_
    rcases used.encrypted mine with ⟨quiet, -⟩ | ⟨-, once, -⟩
    · rw [quiet] at mem
      exact mem
    · rw [once, List.mem_append, List.mem_singleton] at mem
      refine mem.resolve_right fun here => ?_
      have inside {info : SessionInfo} {session : Session} (holding : Holding book role start session info) :
          info.segment.get.toNat < book.segmentCount.toNat := by
        obtain ⟨d, there, index⟩ := holding.delivered
        rw [← index]
        exact steady.delivered.inside d there
      have same := (keyAt_inj distinct (inside holding) (inside mine) (congrArg Prod.fst here)).1
      exact apart (congrArg SegmentIndex.mk (UInt64.toNat_inj.mp same))

end Call

end Jbuu.Station
