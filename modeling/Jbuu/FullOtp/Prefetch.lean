/-
# FullOtp.Prefetch — an honest pair never fails closed

A new bundle is offered, adopted and acknowledged, and the pair agrees all the way
(`Agrees.grants`, `Agrees.adopts`, `Agrees.acked`). With the data calls this is every event
(`agrees_step`), and `honest_pair_never_fails` reads off the invariant what an honest run
promises.
-/
import Jbuu.FullOtp.Synchrony

namespace Jbuu.FullOtp

set_option autoImplicit false

open Jbuu.Library.BigEndian (Bytes Exactly)
open Jbuu.Library

/-! ## A new bundle -/

section Bundles

variable {σ τ : Type} {mac : MacKey → Bytes → Tag} {book : UInt64 → Bundle} {serverSide : PadSource σ}
  {clientSide : PadSource τ} {level : σ → τ → Prop} {w : Pair σ τ} {phase : Phase}

theorem current_install (p : FullOtpPump) (bundleId base : UInt64) (flat : Bundle) (d : Direction) :
    (p.install bundleId base flat).current d = p.current d := by
  cases d <;> rfl

theorem next_install (p : FullOtpPump) (bundleId base : UInt64) (flat : Bundle) (d : Direction) :
    (p.install bundleId base flat).next d = some ((splitBundle bundleId base flat).get d) := by
  cases d <;> rfl

theorem half_splitBundle (bundleId base : UInt64) (flat : Bundle) (d : Direction) :
    ((splitBundle bundleId base flat).get d).bundleId = bundleId ∧
      ((splitBundle bundleId base flat).get d).cursor = 0 := by
  cases d <;> exact ⟨rfl, rfl⟩

theorem hasNext_eq_false {p : FullOtpPump} : p.hasNext = false ↔ ∀ d, p.next d = none := by
  unfold FullOtpPump.hasNext
  rw [Bool.or_eq_false_iff]
  constructor
  · rintro ⟨client, server⟩ d
    cases d
    · simpa using client
    · simpa using server
  · intro none_
    simp [none_]

theorem laid_install {p : FullOtpPump} (laid : p.Laid) (free : ∀ d, p.next d = none) (base : UInt64)
    (flat : Bundle) : (p.install p.nextBundleId base flat).Laid := by
  constructor
  · intro d n held
    rw [next_install] at held
    obtain rfl := Option.some.inj held
    obtain ⟨number, fresh⟩ := half_splitBundle p.nextBundleId base flat d
    rw [current_install, number]
    exact ⟨laid.top d (free d), rfl, fresh⟩
  · intro d none_
    rw [next_install] at none_
    exact absurd none_ nofun

/-- A view that has no next stream reads the client's frames alike once it has one. -/
theorem reads_install {v v' : View} {f : Frame} (reads : Reads mac book .clientToServer v f v')
    (free : v.next = none) (n : PadStream) :
    v'.next = none ∧ Reads mac book .clientToServer (v.holding (some n)) f (v'.holding (some n)) := by
  cases reads with
  | record stream plaintext room some_ few =>
      cases stream with
      | stays => exact ⟨free, .record (v := v.holding (some n)) .stays plaintext room some_ few⟩
      | switches m held used => exact absurd (free.symm.trans held) nofun
  | offer bundleId base server _ => exact absurd server nofun
  | need client => exact ⟨free, .need _ rfl⟩
  | ack bundleId client => exact ⟨free, .ack _ bundleId rfl⟩

/-- **A new bundle is reserved and offered.** -/
theorem Agrees.grants {w' : Pair σ τ} (synchronised : Synchronised serverSide clientSide book level)
    (agrees : Agrees mac book clientSide level w phase) (free : ∀ d, w.server.next d = none)
    {base : UInt64} {flat : Bundle} {s : σ}
    (reserved : serverSide.reserveNextBundle w.serverSource = (.ok (base, flat), s))
    (recorded : Recorded w w' .serverToClient { w.server.install w.server.nextBundleId base flat with
      nextAcked := false, pendingAck := some w.server.nextBundleId })
    (flight : w'.flight = w.flight.set .serverToClient
      (w.flight.s2c ++ [.control (.padOffer w.server.nextBundleId base)]))
    (sent : w'.sent = w.sent) (received : w'.received = w.received) (serverSource : w'.serverSource = s)
    (clientSource : w'.clientSource = w.clientSource) :
    Agrees mac book clientSide level w' (.offered w.server.nextBundleId base) := by
  have quiet : phase = .quiet := by
    have stage := agrees.stage
    cases phase with
    | quiet => rfl
    | offered bundleId base =>
        obtain ⟨-, -, -, -, -, -, some_, -, -⟩ := stage
        rw [free] at some_
        exact absurd some_ nofun
    | acking bundleId =>
        obtain ⟨-, -, -, -, -, some_, -⟩ := stage
        rw [free] at some_
        exact absurd some_ nofun
  subst quiet
  obtain ⟨pending, number, noOffer, noAck, -, even⟩ := agrees.stage
  obtain ⟨rfl, t, adopts, even⟩ := synchronised.reserve even reserved
  have ends := recorded.ends
  have start : (w.seen .clientToServer).next = none := free .clientToServer
  have stays : ∀ v f v', Reads mac book .clientToServer v f v' → v.next = none → v'.next = none :=
    fun v f v' reads none_ => (reads_install reads none_ v.current).1
  have clientFree : (w.ends.get .clientToServer).next .clientToServer = none := by
    have kept := (agrees.behind .clientToServer).keeps stays start
    simpa [Pair.owed, Phase.promise, View.holding] using kept
  have views : ∀ d log, (w'.ends.get .serverToClient).view d log = (w.server.view d log).holding
      (some ((splitBundle w.server.nextBundleId base (book base)).get d)) := by
    intro d log
    rw [ends, PerDirection.get_set_same]
    cases d <;> rfl
  have client : w'.ends.get .clientToServer = w.ends.get .clientToServer := by
    rw [ends]
    rfl
  have seenClient : w'.seen .clientToServer = (w.seen .clientToServer).holding
      (some ((splitBundle w.server.nextBundleId base (book base)).get .clientToServer)) := by
    unfold Pair.seen Pair.reader
    rw [received]
    exact views .clientToServer _
  have seenServer : w'.seen .serverToClient = w.seen .serverToClient := by
    unfold Pair.seen Pair.reader
    rw [received]
    exact congrArg (fun p => FullOtpPump.view p _ _) client
  constructor
  · exact agrees.role_of (ends ▸ PerDirection.forall_set
      (P := fun d' (p : FullOtpPump) => p.role = (w.ends.get d').role) rfl fun _ => rfl)
  · exact ends ▸ PerDirection.forall_set (P := fun _ (p : FullOtpPump) => p.closed = false)
      (agrees.active .serverToClient) agrees.active
  · rw [ends]
    have server := agrees.laid .serverToClient
    have laid := laid_install server free base (book base)
    exact PerDirection.forall_set ⟨laid.next, laid.top⟩ agrees.laid
  · intro d
    cases d with
    | clientToServer =>
        have owed : w'.owed book (.offered w.server.nextBundleId base) .clientToServer =
            (w.owed book .quiet .clientToServer).holding
              (some ((splitBundle w.server.nextBundleId base (book base)).get .clientToServer)) := by
          unfold Pair.owed
          rw [client, clientFree, sent]
          rfl
        rw [owed, seenClient, flight]
        exact (agrees.behind .clientToServer).map stays
          (fun v f v' reads none_ => (reads_install reads none_ _).2) start
    | serverToClient =>
        have held : (w'.ends.get .serverToClient).next .serverToClient =
            some ((splitBundle w.server.nextBundleId base (book base)).get .serverToClient) :=
          congrArg View.next (views .serverToClient {})
        have owed : w'.owed book (.offered w.server.nextBundleId base) .serverToClient =
            (w.owed book .quiet .serverToClient).holding
              (some ((splitBundle w.server.nextBundleId base (book base)).get .serverToClient)) := by
          unfold Pair.owed
          rw [held, sent, views]
          rfl
        rw [owed, seenServer, flight]
        refine (agrees.behind .serverToClient).push (.offer _ _ _ rfl ?_)
        show ((w.ends.get .serverToClient).next .serverToClient).or none = none
        rw [show (w.ends.get .serverToClient).next .serverToClient = none from free _]
        rfl
  · intro d
    cases d with
    | clientToServer =>
        rw [seenClient]
        exact agrees.placed .clientToServer
    | serverToClient =>
        rw [seenServer]
        exact agrees.placed .serverToClient
  · rw [sent]
    intro d
    cases d with
    | clientToServer =>
        rw [client]
        exact agrees.counted .clientToServer
    | serverToClient =>
        rw [show (w'.ends.get .serverToClient).seqOf .serverToClient = w.server.seqOf .serverToClient from
          congrArg View.seq (views .serverToClient {})]
        exact agrees.counted .serverToClient
  · have held : (w'.server.next .serverToClient).isSome = true :=
      congrArg (fun v => v.next.isSome) (views .serverToClient {})
    have server : w'.server = { w.server.install w.server.nextBundleId base (book base) with
        nextAcked := false, pendingAck := some w.server.nextBundleId } := by
      unfold Pair.server
      rw [ends]
      rfl
    have same : w'.client = w.client := client
    refine ⟨?_, ?_, ?_, ?_, ?_, ?_, held, ?_, t, ?_, ?_⟩
    · rw [server]
    · rw [same, number]
    · rw [server]
      rfl
    · rw [flight]
      show offers (w.flight.s2c ++ _) = _
      rw [offers_append, noOffer]
      rfl
    · rw [flight]
      exact noAck
    · rw [server]
    · rw [same]
      exact clientFree
    · rw [clientSource]
      exact adopts
    · rwa [serverSource]
  · exact agrees.replied_after recorded
  · refine agrees.short_after recorded ?_
    rw [tailsOf_same (by intro d; cases d <;> rfl)]
    exact nofun

/-- The client has no next stream when it takes an offer. -/
theorem Agrees.offer_free {bundleId base : UInt64}
    (agrees : Agrees mac book clientSide level w (.offered bundleId base)) {rest : List Frame}
    (head : w.flight.s2c = .control (.padOffer bundleId base) :: rest) :
    (∀ d, w.client.next d = none) ∧
      Catches (Reads mac book .serverToClient) ((w.seen .serverToClient).holding
          (some ((splitBundle bundleId base (book base)).get .serverToClient))) rest
        (w.owed book (.offered bundleId base) .serverToClient) := by
  obtain ⟨-, -, -, -, -, -, -, clientFree, -⟩ := agrees.stage
  have behind := agrees.behind .serverToClient
  rw [show w.flight.get .serverToClient = _ from head] at behind
  obtain ⟨v, reads, behind⟩ := behind.pop
  cases reads with
  | offer _ _ _ seenFree =>
      refine ⟨?_, behind⟩
      intro d
      cases d with
      | clientToServer => exact clientFree
      | serverToClient => exact seenFree

/-- **The client adopts the bundle** it is offered, and acknowledges it. -/
theorem Agrees.adopts {w' : Pair σ τ} {bundleId base : UInt64}
    (agrees : Agrees mac book clientSide level w (.offered bundleId base)) {rest : List Frame}
    (head : w.flight.s2c = .control (.padOffer bundleId base) :: rest) {t : τ}
    (even : level w.serverSource t)
    (recorded : Recorded w w' .clientToServer (w.client.install bundleId base (book base)))
    (flight : w'.flight = ⟨w.flight.c2s ++ [.control (.padAck bundleId)], rest⟩)
    (sent : w'.sent = w.sent) (received : w'.received = w.received)
    (serverSource : w'.serverSource = w.serverSource) (clientSource : w'.clientSource = t) :
    Agrees mac book clientSide level w' (.acking bundleId) := by
  obtain ⟨pending, number, top, offer, noAck, unacked, some_, clientFree, -⟩ := agrees.stage
  obtain ⟨free, behind⟩ := agrees.offer_free head
  have ends := recorded.ends
  have views : ∀ d log, (w'.ends.get .clientToServer).view d log = (w.client.view d log).holding
      (some ((splitBundle bundleId base (book base)).get d)) := by
    intro d log
    rw [ends, PerDirection.get_set_same]
    cases d <;> rfl
  have server : w'.ends.get .serverToClient = w.ends.get .serverToClient := by
    rw [ends]
    rfl
  have seenClient : w'.seen .clientToServer = w.seen .clientToServer := by
    unfold Pair.seen Pair.reader
    rw [received]
    exact congrArg (fun p => FullOtpPump.view p _ _) server
  have seenServer : w'.seen .serverToClient = (w.seen .serverToClient).holding
      (some ((splitBundle bundleId base (book base)).get .serverToClient)) := by
    unfold Pair.seen Pair.reader
    rw [received]
    exact views .serverToClient _
  constructor
  · exact agrees.role_of (ends ▸ PerDirection.forall_set
      (P := fun d' (p : FullOtpPump) => p.role = (w.ends.get d').role) rfl fun _ => rfl)
  · exact ends ▸ PerDirection.forall_set (P := fun _ (p : FullOtpPump) => p.closed = false)
      (agrees.active .clientToServer) agrees.active
  · rw [ends, ← number]
    exact PerDirection.forall_set (laid_install (agrees.laid .clientToServer) free base (book base)) agrees.laid
  · intro d
    cases d with
    | clientToServer =>
        have owed : w'.owed book (.acking bundleId) .clientToServer =
            w.owed book (.offered bundleId base) .clientToServer := by
          have held : (w'.ends.get .clientToServer).next .clientToServer =
              some ((splitBundle bundleId base (book base)).get .clientToServer) :=
            congrArg View.next (views .clientToServer {})
          have none_ : (w.ends.get .clientToServer).next .clientToServer = none := clientFree
          unfold Pair.owed
          rw [held, none_, sent, views]
          rfl
        rw [owed, seenClient, flight]
        exact (agrees.behind .clientToServer).push (.ack _ _ rfl)
    | serverToClient =>
        have owed : w'.owed book (.acking bundleId) .serverToClient =
            w.owed book (.offered bundleId base) .serverToClient := by
          unfold Pair.owed
          rw [server, sent]
          rfl
        rw [owed, seenServer, flight]
        exact behind
  · intro d
    cases d with
    | clientToServer =>
        rw [seenClient]
        exact agrees.placed .clientToServer
    | serverToClient =>
        rw [seenServer]
        exact agrees.placed .serverToClient
  · rw [sent]
    intro d
    cases d with
    | clientToServer =>
        rw [show (w'.ends.get .clientToServer).seqOf .clientToServer = w.client.seqOf .clientToServer from
          congrArg View.seq (views .clientToServer {})]
        exact agrees.counted .clientToServer
    | serverToClient =>
        rw [server]
        exact agrees.counted .serverToClient
  · have same : w'.server = w.server := server
    have client : w'.client = w.client.install bundleId base (book base) := by
      unfold Pair.client
      rw [ends]
      rfl
    have gone : offers rest = [] := by
      have two : (bundleId, base) :: offers rest = [(bundleId, base)] := by
        rw [← offer, head]
        rfl
      exact (List.cons.inj two).2
    refine ⟨?_, ?_, ?_, ?_, ?_, ?_, ?_⟩
    · rw [same, pending]
    · rw [client, same, top, ← number]
      rfl
    · rw [flight]
      exact gone
    · rw [flight]
      show acks (w.flight.c2s ++ _) = _
      rw [acks_append, noAck]
      rfl
    · rw [same, unacked]
    · rwa [same]
    · rwa [serverSource, clientSource]
  · exact agrees.replied_after recorded
  · refine agrees.short_after recorded ?_
    rw [tailsOf_same (by intro d; cases d <;> rfl)]
    exact nofun

/-- **The bundle is acknowledged**, and the server may send from it. -/
theorem Agrees.acked {w' : Pair σ τ} {bundleId : UInt64}
    (agrees : Agrees mac book clientSide level w (.acking bundleId)) {rest : List Frame}
    (head : w.flight.c2s = .control (.padAck bundleId) :: rest)
    (recorded : Recorded w w' .serverToClient { w.server with nextAcked := true, pendingAck := none })
    (flight : w'.flight = ⟨rest, w.flight.s2c⟩) (sent : w'.sent = w.sent)
    (received : w'.received = w.received) (serverSource : w'.serverSource = w.serverSource)
    (clientSource : w'.clientSource = w.clientSource) : Agrees mac book clientSide level w' .quiet := by
  obtain ⟨pending, number, noOffer, ack, unacked, some_, even⟩ := agrees.stage
  have ends := recorded.ends
  have views : ∀ d d' log, (w'.ends.get d).view d' log = (w.ends.get d).view d' log := by
    intro d d' log
    rw [ends]
    cases d <;> rfl
  have seen : ∀ d, w'.seen d = w.seen d := by
    intro d
    unfold Pair.seen Pair.reader
    rw [received, views]
  have owed : ∀ d, w'.owed book .quiet d = w.owed book (.acking bundleId) d := by
    intro d
    unfold Pair.owed
    rw [views, sent]
    exact congrArg (fun v => (View.holding _ (Option.or v none))) (congrArg View.next (views d d {}))
  constructor
  · exact agrees.role_of (ends ▸ PerDirection.forall_set
      (P := fun d' (p : FullOtpPump) => p.role = (w.ends.get d').role) rfl fun _ => rfl)
  · exact ends ▸ PerDirection.forall_set (P := fun _ (p : FullOtpPump) => p.closed = false)
      (agrees.active .serverToClient) agrees.active
  · rw [ends]
    have laid := agrees.laid .serverToClient
    exact PerDirection.forall_set ⟨laid.next, laid.top⟩ agrees.laid
  · intro d
    rw [seen, owed, flight]
    cases d with
    | clientToServer =>
        have behind := agrees.behind .clientToServer
        rw [show w.flight.get .clientToServer = _ from head] at behind
        obtain ⟨v, reads, behind⟩ := behind.pop
        cases reads
        exact behind
    | serverToClient => exact agrees.behind .serverToClient
  · intro d
    rw [seen]
    exact agrees.placed d
  · intro d
    rw [sent, show (w'.ends.get d).seqOf d = (w.ends.get d).seqOf d from congrArg View.seq (views d d {})]
    exact agrees.counted d
  · have server : w'.server = { w.server with nextAcked := true, pendingAck := none } := by
      unfold Pair.server
      rw [ends]
      rfl
    have same : w'.client = w.client := by
      unfold Pair.client
      rw [ends]
      rfl
    refine ⟨?_, ?_, ?_, ?_, ?_, ?_⟩
    · rw [server]
    · rw [server, same, number]
    · rw [flight]
      exact noOffer
    · have two : bundleId :: acks rest = [bundleId] := by
        rw [← ack, head]
        rfl
      rw [flight]
      exact (List.cons.inj two).2
    · rw [server]
      exact .inl rfl
    · rwa [serverSource, clientSource]
  · exact agrees.replied_after recorded
  · refine agrees.short_after recorded ?_
    rw [tailsOf_same (by intro d; cases d <;> rfl)]
    exact nofun

/-- A PAD_NEED is emitted. -/
theorem Agrees.needs (agrees : Agrees mac book clientSide level w phase) :
    Agrees mac book clientSide level (w.emit .clientToServer [.control .padNeed]) phase := by
  obtain ⟨role, active, laid, behind, placed, counted, stage, replied, short⟩ := agrees
  refine ⟨role, active, laid, ?_, placed, counted, ?_, replied, short⟩
  · intro d
    cases d with
    | clientToServer => exact (behind .clientToServer).push (.need _ rfl)
    | serverToClient => exact behind .serverToClient
  · have same : acks (w.flight.c2s ++ [.control .padNeed]) = acks w.flight.c2s := by
      rw [acks_append]
      exact List.append_nil _
    refine stage.keeps (.refl _) (.refl _) (fun _ => rfl) rfl same rfl rfl

/-- A PAD_NEED is taken. -/
theorem Agrees.needed (agrees : Agrees mac book clientSide level w phase) {rest : List Frame}
    (head : w.flight.c2s = .control .padNeed :: rest) :
    Agrees mac book clientSide level { w with flight := w.flight.set .clientToServer rest } phase := by
  obtain ⟨role, active, laid, behind, placed, counted, stage, replied, short⟩ := agrees
  refine ⟨role, active, laid, ?_, placed, counted, ?_, replied, short⟩
  · intro d
    cases d with
    | clientToServer =>
        have behind := behind .clientToServer
        rw [show w.flight.get .clientToServer = _ from head] at behind
        obtain ⟨v, reads, behind⟩ := behind.pop
        cases reads
        exact behind
    | serverToClient => exact behind .serverToClient
  · refine stage.keeps (.refl _) (.refl _) (fun _ => rfl) rfl ?_ rfl rfl
    rw [head]
    rfl

/-! ## Every event -/

theorem onControl_need (serverSide : PadSource σ) (p : FullOtpPump) (st : σ) (active : p.closed = false) (role : p.role = .server) :
    p.onControl serverSide .padNeed st =
      ({ (p.serverPrefetch serverSide st).1 with
          result := ((p.serverPrefetch serverSide st).1.result.map Option.toList).mapError PumpError.source },
        (p.serverPrefetch serverSide st).2) := by
  simp [FullOtpPump.onControl, active, role]

/-- What `server_prefetch` does where the source does not fail. -/
theorem serverPrefetch_cases (serverSide : PadSource σ) {p : FullOtpPump} (active : p.closed = false) (role : p.role = .server) (st : σ)
    (supplies : p.hasNext = false → ∃ base flat s, serverSide.reserveNextBundle st = (.ok (base, flat), s)) :
    (p.hasNext = true ∧ p.serverPrefetch serverSide st = ({ result := .ok none, pump := p }, st)) ∨
    ∃ base flat s, p.hasNext = false ∧ serverSide.reserveNextBundle st = (.ok (base, flat), s) ∧
      p.serverPrefetch serverSide st =
        ({ result := .ok (some (.sendPadOffer p.nextBundleId base))
           pump := { p.install p.nextBundleId base flat with
             nextAcked := false, pendingAck := some p.nextBundleId } }, s) := by
  unfold FullOtpPump.serverPrefetch
  rw [if_neg (by simp [active]), if_neg (not_not.mpr role)]
  cases held : p.hasNext with
  | true => exact .inl ⟨rfl, rfl⟩
  | false =>
      obtain ⟨base, flat, s, reserved⟩ := supplies held
      refine .inr ⟨base, flat, s, rfl, reserved, ?_⟩
      unfold FullOtpPump.prefetch
      rw [reserved]
      rfl

theorem agrees_onPrefetch (synchronised : Synchronised serverSide clientSide book level)
    (agrees : Agrees mac book clientSide level w phase) (supplies : w.Supplies serverSide) :
    ∃ phase, Agrees mac book clientSide level (w.onPrefetch serverSide) phase := by
  unfold Pair.onPrefetch
  rcases serverPrefetch_cases serverSide (agrees.active .serverToClient) agrees.role.2 w.serverSource supplies with
    ⟨-, stays⟩ | ⟨base, flat, s, free, reserved, grants⟩
  · refine ⟨phase, agrees.waits (.prefetched (.ok none)) rfl ?_⟩
    rw [show (w.server.serverPrefetch serverSide w.serverSource) = _ from stays]
    exact congrArg (fun w' : Pair σ τ => { w' with serverSource := w.serverSource })
      (settle_same w .serverToClient _ _)
  · refine ⟨_, agrees.grants synchronised (hasNext_eq_false.mp free) reserved ?_ ?_ ?_ ?_ ?_ ?_⟩
    all_goals rw [show (w.server.serverPrefetch serverSide w.serverSource) = _ from grants]
    · exact ⟨rfl, ⟨_, rfl, rfl⟩, rfl⟩
    all_goals rfl

theorem emit_nil (w : Pair σ τ) (d : Direction) : w.emit d [] = w := by
  unfold Pair.emit
  rw [List.append_nil, set_get]

/-- The server takes a PAD_NEED: it prefetches, or has a bundle already. -/
theorem agrees_onNeed (synchronised : Synchronised serverSide clientSide book level)
    (agrees : Agrees mac book clientSide level w phase) (supplies : w.Supplies serverSide) :
    ∃ phase, Agrees mac book clientSide level (w.onMessage serverSide clientSide .clientToServer .padNeed)
      phase := by
  have prefetches := onControl_need serverSide w.server w.serverSource
    (agrees.active .serverToClient) agrees.role.2
  unfold Pair.onMessage
  dsimp only
  rcases serverPrefetch_cases serverSide (agrees.active .serverToClient) agrees.role.2 w.serverSource supplies with
    ⟨-, stays⟩ | ⟨base, flat, s, free, reserved, grants⟩
  · rw [show w.server.serverPrefetch serverSide w.serverSource = _ from stays] at prefetches
    rw [prefetches]
    refine ⟨phase, agrees.waits (.controlled (.ok [])) rfl ?_⟩
    refine (emit_nil _ _).trans ?_
    exact congrArg (fun w' : Pair σ τ => { w' with serverSource := w.serverSource })
      (settle_same w .serverToClient _ _)
  · rw [show w.server.serverPrefetch serverSide w.serverSource = _ from grants] at prefetches
    rw [prefetches]
    refine ⟨_, agrees.grants synchronised (hasNext_eq_false.mp free) reserved ⟨rfl, ⟨_, ?_, rfl⟩, rfl⟩
      rfl rfl rfl rfl rfl⟩
    rfl

/-- The client takes an offer. -/
theorem agrees_onOffer (agrees : Agrees mac book clientSide level w phase) {bundleId base : UInt64}
    {rest : List Frame} (head : w.flight.s2c = .control (.padOffer bundleId base) :: rest) :
    ∃ phase, Agrees mac book clientSide level
      ({ w with flight := w.flight.set .serverToClient rest }.onMessage serverSide clientSide .serverToClient
        (.padOffer bundleId base)) phase := by
  have stage := agrees.stage
  have here : phase = .offered bundleId base := by
    cases phase with
    | quiet =>
        obtain ⟨-, -, none_, -⟩ := stage
        rw [head] at none_
        exact absurd none_ nofun
    | acking bundleId' =>
        obtain ⟨-, -, none_, -⟩ := stage
        rw [head] at none_
        exact absurd none_ nofun
    | offered bundleId' base' =>
        obtain ⟨-, -, -, one, -⟩ := stage
        rw [head] at one
        obtain ⟨rfl, rfl⟩ := Prod.mk.inj (List.cons.inj one).1
        rfl
  subst here
  obtain ⟨-, number, -, -, -, -, -, -, t, adopted, even⟩ := stage
  have role := agrees.role.1
  have active : w.client.closed = false := agrees.active .clientToServer
  obtain ⟨free, -⟩ := agrees.offer_free head
  have adopts : w.client.onControl clientSide (.padOffer bundleId base) w.clientSource =
      ({ result := .ok [.sendPadAck bundleId], pump := w.client.install bundleId base (book base) }, t) := by
    simp [FullOtpPump.onControl, FullOtpPump.onPadOffer, active, role, number, hasNext_eq_false.mpr free, adopted]
  unfold Pair.onMessage
  dsimp only
  rw [show ({ w with flight := w.flight.set .serverToClient rest } : Pair σ τ).client.onControl clientSide
    (.padOffer bundleId base) w.clientSource = _ from adopts]
  exact ⟨_, agrees.adopts head even ⟨rfl, ⟨_, rfl, rfl⟩, rfl⟩ rfl rfl rfl rfl rfl⟩

/-- An acknowledgement in flight is the one the server waits for. -/
theorem Agrees.acking_of (agrees : Agrees mac book clientSide level w phase) {bundleId : UInt64}
    {rest : List Frame} (head : w.flight.c2s = .control (.padAck bundleId) :: rest) :
    phase = .acking bundleId := by
  have stage := agrees.stage
  cases phase with
  | quiet =>
      obtain ⟨-, -, -, none_, -⟩ := stage
      rw [head] at none_
      exact absurd none_ nofun
  | offered bundleId' base' =>
      obtain ⟨-, -, -, -, none_, -⟩ := stage
      rw [head] at none_
      exact absurd none_ nofun
  | acking bundleId' =>
      obtain ⟨-, -, -, one, -⟩ := stage
      rw [head] at one
      obtain rfl := (List.cons.inj one).1
      rfl

theorem onControl_ack (serverSide : PadSource σ) (agrees : Agrees mac book clientSide level w phase) {bundleId : UInt64}
    {rest : List Frame} (head : w.flight.c2s = .control (.padAck bundleId) :: rest) :
    w.server.onControl serverSide (.padAck bundleId) w.serverSource =
      ({ result := .ok [], pump := { w.server with nextAcked := true, pendingAck := none } },
        w.serverSource) := by
  obtain rfl := agrees.acking_of head
  have role := agrees.role.2
  have active : w.server.closed = false := agrees.active .serverToClient
  simp [FullOtpPump.onControl, active, role, agrees.stage.1]

/-- The server takes an acknowledgement. -/
theorem agrees_onAck (agrees : Agrees mac book clientSide level w phase) {bundleId : UInt64}
    {rest : List Frame} (head : w.flight.c2s = .control (.padAck bundleId) :: rest) :
    ∃ phase, Agrees mac book clientSide level
      ({ w with flight := w.flight.set .clientToServer rest }.onMessage serverSide clientSide .clientToServer
        (.padAck bundleId)) phase := by
  have acked := onControl_ack serverSide agrees head
  obtain rfl := agrees.acking_of head
  unfold Pair.onMessage
  dsimp only
  rw [show ({ w with flight := w.flight.set .clientToServer rest } : Pair σ τ).server.onControl serverSide
    (.padAck bundleId) w.serverSource = _ from acked]
  refine ⟨_, agrees.acked head ⟨rfl, ⟨_, rfl, rfl⟩, rfl⟩ ?_ rfl rfl rfl rfl⟩
  exact congrArg Pair.flight (emit_nil _ .serverToClient)

/-- **Every honest event keeps the pair in agreement.** -/
theorem agrees_step (synchronised : Synchronised serverSide clientSide book level) {event : PairEvent}
    (honest : w.Honest serverSide event) (agrees : Agrees mac book clientSide level w phase) :
    ∃ phase, Agrees mac book clientSide level (Pair.step mac serverSide clientSide event w) phase := by
  cases event with
  | send d plaintext => exact ⟨phase, agrees_onSend agrees honest.1 honest.2⟩
  | padNeed => exact ⟨phase, agrees.needs⟩
  | prefetch => exact agrees_onPrefetch synchronised agrees honest
  | deliver d =>
      unfold Pair.step Pair.onDeliver
      dsimp only
      split
      · exact ⟨phase, agrees⟩
      · rename_i bytes rest head
        exact ⟨phase, agrees_onData agrees head⟩
      · rename_i msg rest head
        have behind := agrees.behind d
        rw [head] at behind
        obtain ⟨v, reads, -⟩ := behind.pop
        cases reads with
        | offer bundleId base server _ =>
            subst server
            exact agrees_onOffer agrees head
        | need client =>
            subst client
            exact agrees_onNeed synchronised (agrees.needed head) (honest ⟨rest, head⟩)
        | ack bundleId client =>
            subst client
            exact agrees_onAck agrees head

theorem laid_new (role : Role) (base : UInt64) (flat : Bundle) : (FullOtpPump.new role base flat).Laid := by
  constructor
  · intro d n held
    cases d <;> exact absurd held nofun
  · intro d _
    cases d <;> rfl

/-- A new pair agrees. -/
theorem agrees_new {base : UInt64} {s : σ} {t : τ} (even : level s t) :
    Agrees mac book clientSide level (.new book base s t) .quiet where
  role := ⟨rfl, rfl⟩
  active d := by cases d <;> rfl
  laid d := by cases d <;> exact laid_new _ _ _
  behind d := by cases d <;> exact .nil _
  placed d := by cases d <;> rfl
  counted d := by cases d <;> rfl
  stage := ⟨rfl, rfl, rfl, rfl, .inr fun d => by cases d <;> rfl, even⟩
  replied := nofun
  short := nofun

/-- The pair agrees after any honest events. -/
theorem agrees_run (synchronised : Synchronised serverSide clientSide book level) {base : UInt64} {s : σ} {t : τ}
    (even : level s t) (events : List PairEvent)
    (honest : Along (Pair.step mac serverSide clientSide) (Pair.Honest serverSide) events (.new book base s t)) :
    ∃ phase, Agrees mac book clientSide level
      (run (Pair.step mac serverSide clientSide) events (.new book base s t)) phase := by
  have step : ∀ event (w : Pair σ τ), w.Honest serverSide event →
      (∃ phase, Agrees mac book clientSide level w phase) →
      ∃ phase, Agrees mac book clientSide level (Pair.step mac serverSide clientSide event w) phase := by
    intro event w honest before
    obtain ⟨phase, agrees⟩ := before
    exact agrees_step synchronised honest agrees
  exact run_invariant_along _ step events honest ⟨.quiet, agrees_new even⟩

/-! ## What an honest run promises -/

theorem prefix_extend (log : Log) (text : Bytes) (position : Position) :
    log.text <+: (log.extend text position).text ∧ log.positions <+: (log.extend text position).positions :=
  ⟨List.prefix_append _ _, List.prefix_append _ _⟩

theorem Reads.log {d : Direction} {v v' : View} {f : Frame} (reads : Reads mac book d v f v') :
    v.log.text <+: v'.log.text ∧ v.log.positions <+: v'.log.positions := by
  cases reads with
  | record stream plaintext room some_ few => exact prefix_extend _ _ _
  | offer bundleId base server free => exact ⟨List.prefix_rfl, List.prefix_rfl⟩
  | need client => exact ⟨List.prefix_rfl, List.prefix_rfl⟩
  | ack bundleId client => exact ⟨List.prefix_rfl, List.prefix_rfl⟩

/-- The sending end, too, is where its last record left it. -/
theorem Agrees.placed_sender (agrees : Agrees mac book clientSide level w phase) (d : Direction) :
    (w.ends.get d).position d = (w.sent.get d).positions.getLastD ⟨0, 0, 0⟩ := by
  have step : ∀ v f v', Reads mac book d v f v' → v.Placed → v'.Placed := by
    intro v f v' reads placed
    cases reads with
    | record stream plaintext room some_ few => exact View.placed_record _ _ _ _ _
    | offer bundleId base server free => exact placed
    | need client => exact placed
    | ack bundleId client => exact placed
  have owed : (w.owed book phase d).Placed := (agrees.behind d).keeps step (agrees.placed d)
  exact owed

/-- At most one bundle is on its way. -/
theorem Agrees.outstanding (agrees : Agrees mac book clientSide level w phase) :
    (offers w.flight.s2c).length + (acks w.flight.c2s).length ≤ 1 := by
  have stage := agrees.stage
  cases phase with
  | quiet =>
      obtain ⟨-, -, noOffer, noAck, -⟩ := stage
      simp [noOffer, noAck]
  | offered bundleId base =>
      obtain ⟨-, -, -, offer, noAck, -⟩ := stage
      simp [offer, noAck]
  | acking bundleId =>
      obtain ⟨-, -, noOffer, ack, -⟩ := stage
      simp [noOffer, ack]

/-- **An honest pair never fails closed.** After any honest events in any order: no call
returned an error; what was delivered is a prefix of what was accepted; at most one offer is
outstanding; a bundle was retired only with at most 32 bytes left; the receiver stands where
the sender stood after the last record that was received; and a send that waits changes
nothing. -/
theorem honest_pair_never_fails (mac : MacKey → Bytes → Tag)
    (synchronised : Synchronised serverSide clientSide book level) (base : UInt64) {s : σ} {t : τ}
    (even : level s t) (events : List PairEvent)
    (honest : Along (Pair.step mac serverSide clientSide) (Pair.Honest serverSide) events (.new book base s t)) :
    let w := run (Pair.step mac serverSide clientSide) events (.new book base s t)
    (∀ r ∈ w.replies, r.isOk = true) ∧
    (∀ d, (w.received.get d).text <+: (w.sent.get d).text) ∧
    (offers w.flight.s2c).length + (acks w.flight.c2s).length ≤ 1 ∧
    (∀ n ∈ w.tails, n ≤ 32) ∧
    (∀ d, (w.received.get d).positions <+: (w.sent.get d).positions ∧
      (w.ends.get d).position d = (w.sent.get d).positions.getLastD ⟨0, 0, 0⟩ ∧
      (w.reader d).position d = (w.received.get d).positions.getLastD ⟨0, 0, 0⟩) ∧
    ∀ d plaintext, ((w.ends.get d).send mac plaintext).result = .ok .backpressure →
      (w.ends.get d).send mac plaintext = { result := .ok .backpressure, pump := w.ends.get d } := by
  intro w
  obtain ⟨phase, agrees⟩ : ∃ phase, Agrees mac book clientSide level w phase :=
    agrees_run synchronised even events honest
  refine ⟨agrees.replied, ?_, agrees.outstanding, agrees.short, ?_, fun _ _ => backpressure_unchanged⟩
  · intro d
    exact (agrees.behind d).prefix_of (fun v => v.log.text) fun _ _ _ reads => reads.log.1
  · intro d
    refine ⟨?_, agrees.placed_sender d, agrees.placed d⟩
    exact (agrees.behind d).prefix_of (fun v => v.log.positions) fun _ _ _ reads => reads.log.2

end Bundles

/-! ### A pair over one book -/

/-- A book read from a pointer on. -/
def pointerBook (book : UInt64 → Bundle) : PadSource UInt64 where
  reserveNextBundle p := (.ok (p, book p), p + 128)
  reserveBundleAt base p :=
    if p = base then (.ok (book base), p + 128) else (.error (.pointerMismatch p base), p)

theorem synchronised_pointerBook (book : UInt64 → Bundle) :
    Synchronised (pointerBook book) (pointerBook book) book Eq where
  reserve := by
    intro s t base flat s' same reserved
    subst same
    obtain ⟨got, rfl⟩ := Prod.mk.inj reserved
    obtain ⟨rfl, rfl⟩ := Prod.mk.inj (Except.ok.inj got)
    exact ⟨rfl, s + 128, if_pos rfl, rfl⟩

def sevens : UInt64 → Bundle := fun _ => .replicate 8192 7

def someEvents : List PairEvent :=
  [.send .clientToServer [1, 2, 3], .padNeed, .prefetch, .deliver .clientToServer, .deliver .serverToClient,
    .deliver .clientToServer, .deliver .clientToServer]

theorem honest_pair_never_fails_sevens :
    let w := run (Pair.step zeroMac (pointerBook sevens) (pointerBook sevens)) someEvents (.new sevens 1 129 129)
    (w.received.get .clientToServer).text <+: (w.sent.get .clientToServer).text ∧ ∀ r ∈ w.replies, r.isOk = true := by
  intro w
  have honest : Along (Pair.step zeroMac (pointerBook sevens) (pointerBook sevens))
      (Pair.Honest (pointerBook sevens)) someEvents (.new sevens 1 129 129) := by
    refine ⟨⟨nofun, by decide⟩, trivial, fun _ => ⟨_, _, _, rfl⟩, fun _ _ => ⟨_, _, _, rfl⟩, trivial,
      fun _ _ => ⟨_, _, _, rfl⟩, fun _ _ => ⟨_, _, _, rfl⟩, trivial⟩
  obtain ⟨ok, text, -⟩ := honest_pair_never_fails zeroMac (synchronised_pointerBook sevens) 1 rfl someEvents honest
  exact ⟨text .clientToServer, ok⟩

end Jbuu.FullOtp
