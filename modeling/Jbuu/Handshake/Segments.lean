/-
# Handshake.Segments — what a handshake takes from its issuer

One machine with an issuer of its own, which gives the segments of a book in order, fails
when it likes and may lose the segment it failed on. Calls come in any order with any
messages.

An ARBITRATE is not authenticated, and it drives the loop that wastes the gap.
`ClientAccounted` says what a client's call may take: nothing, unless an ARBITRATE that
agrees with the pointers and the book size is answered, and then the segments from the
client's pointer to the server's. `clientAccounted_iff` says which calls do: all but an
`Ok` or a `ServerAhead` whose pointer lies beyond the book (`BeyondBook`). The server
always takes one segment for a matching ISSUE_REQUEST and none otherwise.
-/
import Jbuu.Handshake.Failure

namespace Jbuu.Handshake

set_option autoImplicit false

open Jbuu.Library.BigEndian (Bytes Exactly)
open Jbuu.Library
open Jbuu.Library.Program (exec_of_wp wp_bind wp_mono)
open Jbuu.Allocator (IssueError)

/-! ## A machine with its issuer -/

/-- What the host does at one request. -/
structure Luck where
  sealed : Option (Bytes × Tag)
  opened : Option Bytes
  random : Option Nonce16
  /-- An error of the issuer, and whether the segment it was about is lost. -/
  issueError : Option (IssueError × Bool)
  deriving DecidableEq, Repr

instance : Inhabited Luck := ⟨⟨none, none, none, none⟩⟩

/-- An issuer: its pointer, how often it was asked, and the segments it has consumed. -/
structure Issuer where
  next : UInt64
  asked : Nat
  taken : List SegmentIndex
  deriving DecidableEq, Repr

def Issuer.fresh (next : SegmentIndex) : Issuer := ⟨next.get, 0, []⟩

/-- The segment at the pointer is consumed. -/
def Issuer.advance (w : Issuer) : Issuer :=
  { w with next := w.next + 1, taken := w.taken ++ [⟨w.next⟩] }

section Host

variable (book : SegmentIndex → Segment) (count : UInt64)

def issueFrom (luck : Luck) (w : Issuer) : Except IssueError Segment × Issuer :=
  let w := { w with asked := w.asked + 1 }
  if count ≤ w.next then (.error (.exhausted ⟨w.next⟩), w)
  else
    match luck.issueError with
    | some (e, lost) => (.error e, if lost then w.advance else w)
    | none => (.ok (book ⟨w.next⟩), w.advance)

/-- A host whose issuer gives the segments of a book of `count`, in order. -/
def issuingHost : Device HostOp HostReply Luck Issuer
  | .encrypt _ _ _ plaintext, luck, w =>
      (some (luck.sealed.map fun (bytes, tag) => (fitted bytes plaintext.length, tag)), w)
  | .decrypt _ _ _ _ _, luck, w => (some luck.opened, w)
  | .csprng16, luck, w => (some luck.random, w)
  | .issue, luck, w =>
      let (reply, w) := issueFrom book count luck w
      (some reply, w)

/-- A machine, its issuer, and the replies its calls gave. -/
structure Issuing (μ : Type) where
  machine : μ
  issuer : Issuer
  replies : List CallReply
  panicked : Bool
  deriving DecidableEq, Repr

/-- One call. -/
def Issuing.step {κ μ : Type} (on : κ → μ → Host (CallReply × μ)) (event : κ × List Luck)
    (p : Issuing μ) : Issuing μ :=
  match (on event.1 p.machine).exec (issuingHost book count) event.2 p.issuer with
  | (.returned (reply, machine), issuer) => { p with machine, issuer, replies := p.replies ++ [reply] }
  | (.crashed, issuer) => { p with issuer }
  | (.panicked, issuer) => { p with issuer, panicked := true }

/-- What a call does, from its weakest precondition. -/
theorem Issuing.step_of_wp {κ μ : Type} {on : κ → μ → Host (CallReply × μ)} {call : κ}
    (lucks : List Luck) {p : Issuing μ} {post : CallReply × μ → Issuer → Prop}
    (holds : (on call p.machine).wp (issuingHost book count) post (fun _ => False) p.issuer) :
    ∃ reply machine issuer, post (reply, machine) issuer ∧
      Issuing.step book count on (call, lucks) p =
        { p with machine, issuer, replies := p.replies ++ [reply] } := by
  have ran := exec_of_wp holds lucks
  unfold Issuing.step
  revert ran
  rcases (on call p.machine).exec (issuingHost book count) lucks p.issuer with
    ⟨⟨reply, machine⟩ | _ | _, issuer⟩
  · exact fun now => ⟨reply, machine, issuer, now, rfl⟩
  · exact False.elim
  · exact False.elim

end Host

/-! ## Segments in order -/

/-- `n` segment indices from `first` on. -/
def segmentsFrom (first : UInt64) (n : Nat) : List SegmentIndex :=
  (List.range n).map fun k => ⟨first + UInt64.ofNat k⟩

@[simp] theorem segmentsFrom_zero (first : UInt64) : segmentsFrom first 0 = [] := rfl

theorem segmentsFrom_succ (first : UInt64) (n : Nat) :
    segmentsFrom first (n + 1) = ⟨first⟩ :: segmentsFrom (first + 1) n := by
  unfold segmentsFrom
  rw [List.range_succ_eq_map, List.map_cons, List.map_map]
  refine congrArg₂ List.cons ?_ (List.map_congr_left fun k _ => ?_)
  · simp
  · simp [UInt64.add_assoc, UInt64.add_comm]

theorem segmentsFrom_append (first : UInt64) (m n : Nat) :
    segmentsFrom first (m + n) = segmentsFrom first m ++ segmentsFrom (first + UInt64.ofNat m) n := by
  unfold segmentsFrom
  rw [List.range_add, List.map_append, List.map_map]
  refine congrArg _ (List.map_congr_left fun k _ => ?_)
  simp [UInt64.add_assoc]

/-! ## What an issue comes to -/

section Rules

variable {book : SegmentIndex → Segment} {count : UInt64}

/-- The segment at the pointer is given and consumed; or there is an error, and it is
consumed or not. -/
inductive Issues (book : SegmentIndex → Segment) (w : Issuer) : Except IssueError Segment × Issuer → Prop
  | gives (fits : w.next.toNat + 1 < 2 ^ 64) :
      Issues book w (.ok (book ⟨w.next⟩), { w.advance with asked := w.asked + 1 })
  | keeps (e : IssueError) : Issues book w (.error e, { w with asked := w.asked + 1 })
  | loses (e : IssueError) : Issues book w (.error e, { w.advance with asked := w.asked + 1 })

theorem issueFrom_issues (luck : Luck) (w : Issuer) : Issues book w (issueFrom book count luck w) := by
  unfold issueFrom
  dsimp only
  by_cases spent : count ≤ w.next
  · rw [if_pos spent]
    exact .keeps _
  · rw [if_neg spent]
    cases luck.issueError with
    | none =>
        refine .gives ?_
        have := count.toNat_lt
        rw [UInt64.le_iff_toNat_le] at spent
        omega
    | some failure =>
        obtain ⟨e, lost⟩ := failure
        cases lost with
        | true => exact .loses e
        | false => exact .keeps e

variable {crash : Issuer → Prop} {w : Issuer}

/-- The gap takes segments in order, all of them unless the issuer fails. -/
theorem wp_issueGap_takes (n : Nat) {post : Except IssueError Unit → Issuer → Prop}
    (fails : ∀ e k w', k ≤ n → w'.taken = w.taken ++ segmentsFrom w.next k → post (.error e) w')
    (gives : ∀ w', w'.taken = w.taken ++ segmentsFrom w.next n →
      w'.next.toNat = w.next.toNat + n → post (.ok ()) w') :
    (issueGap n).wp (issuingHost book count) post crash w := by
  induction n generalizing w with
  | zero => exact gives w (by simp) rfl
  | succ n ih =>
      intro luck
      have issues := @issueFrom_issues book count luck w
      simp only [issuingHost]
      generalize issueFrom book count luck w = given at issues
      cases issues with
      | keeps e => exact fails e 0 _ (Nat.zero_le _) (by simp)
      | loses e => exact fails e 1 _ (by omega) (by simp [Issuer.advance, segmentsFrom_succ])
      | gives fits =>
          have next : (w.next + 1).toNat = w.next.toNat + 1 := by
            rw [UInt64.toNat_add]
            exact Nat.mod_eq_of_lt fits
          apply ih
          · intro e k w' le taken
            refine fails e (k + 1) w' (by omega) ?_
            rw [taken, segmentsFrom_succ]
            simp [Issuer.advance]
          · intro w' taken reached
            refine gives w' ?_ ?_
            · rw [taken, segmentsFrom_succ]
              simp [Issuer.advance]
            · dsimp only [Issuer.advance] at reached
              omega

/-- `issue_and_confirm` takes the segments from the client's pointer to the agreed one,
all of them unless the issuer fails, and keys the session with the last. -/
theorem wp_issueAndConfirm_takes {h : ClientHandshake} {i : SegmentIndex} {clientNonce serverNonce : Nonce16}
    (agreed : h.agreed = some i) (client : h.clientNonce = some clientNonce)
    (server : h.serverNonce = some serverNonce) (level : w.next = h.cfg.localPointer.get)
    (ahead : h.cfg.localPointer.get ≤ i.get) {post : Step × ClientHandshake → Issuer → Prop}
    (issuerFails : ∀ e k w', k ≤ i.get.toNat - h.cfg.localPointer.get.toNat + 1 →
      w'.taken = w.taken ++ segmentsFrom w.next k →
        post (.failed (.issuer e), { h.burnSession with phase := .failed }) w')
    (cipherFails : ∀ w',
      w'.taken = w.taken ++ segmentsFrom w.next (i.get.toNat - h.cfg.localPointer.get.toNat + 1) →
        post (.failed (.violation .internal), { h.burnSession with phase := .failed }) w')
    (sends : ∀ w' outbox session,
      w'.taken = w.taken ++ segmentsFrom w.next (i.get.toNat - h.cfg.localPointer.get.toNat + 1) →
        session.keys = some (.split (book i)) → session.ctx.segment = i → session.Coherent →
          session.ctx.role = .client →
          post (.send outbox, { h with session := some session, phase := .confirmSent }) w') :
    h.issueAndConfirm.wp (issuingHost book count) post crash w := by
  rw [UInt64.le_iff_toNat_le] at ahead
  obtain ⟨cfg, phase, _, _, _, session, gap⟩ := h
  dsimp only at agreed client server level ahead issuerFails cipherFails
  subst agreed client server
  unfold ClientHandshake.issueAndConfirm
  dsimp only
  rw [wp_bind]
  apply wp_issueGap_takes
  · intro e k w' le taken
    exact issuerFails e k w' (by omega) taken
  · intro w' taken reached luck
    have issues := @issueFrom_issues book count luck w'
    have last : w'.next = i.get := by
      rw [← UInt64.toNat_inj, reached, level]
      omega
    have next : w.next + UInt64.ofNat (i.get.toNat - cfg.localPointer.get.toNat) = w'.next := by
      rw [← UInt64.toNat_inj, UInt64.toNat_add, reached, UInt64.toNat_ofNat', Nat.add_mod_mod]
      exact Nat.mod_eq_of_lt (by rw [← reached]; exact w'.next.toNat_lt)
    have grown : w'.advance.taken = w.taken ++
        segmentsFrom w.next (i.get.toNat - cfg.localPointer.get.toNat + 1) := by
      rw [segmentsFrom_append, next]
      simp [Issuer.advance, taken, segmentsFrom_succ]
    simp only [issuingHost]
    generalize issueFrom book count luck w' = given at issues
    cases issues with
    | keeps e => exact issuerFails e _ _ (Nat.le_succ _) taken
    | loses e => exact issuerFails e _ _ (Nat.le_refl _) grown
    | gives fits =>
        show Program.wp _ post crash (sealConfirm _ _ _ _ _ _ >>= _) _
        rw [wp_bind]
        refine wp_sealConfirm rfl rfl rfl (show _ = Direction.clientToServer from rfl) ?_
        intro luck
        dsimp only [issuingHost]
        cases luck.sealed with
        | none => exact cipherFails _ grown
        | some given =>
            refine ⟨by simp [confirmBodyLen], ?_⟩
            refine sends _ _ _ grown ?_ rfl ?_ rfl
            · rw [last]
              rfl
            · simp [Session.Coherent, Session.new]

end Rules

/-! ## The client -/

/-- The ARBITRATE a call is answered for: one handed over in HelloSent. -/
def arbitration (call : ClientCall) (h : ClientHandshake) : Option (SegmentIndex × ArbitrateResult) :=
  match h.phase, call with
  | .helloSent, .handle (.arbitrate _ sp result) => some (sp, result)
  | _, _ => none

/-- The result fits the client's pointer, the announced one and the size of the book. -/
def Agrees (cfg : ClientConfig) (sp : SegmentIndex) : ArbitrateResult → Prop
  | .ok => sp = cfg.localPointer ∧ sp.get < cfg.segmentCount
  | .serverAhead => cfg.localPointer.get < sp.get ∧ sp.get < cfg.segmentCount
  | .exhausted => sp.get = cfg.segmentCount
  | .clientAhead => sp.get < cfg.localPointer.get
  | .bookMismatch => True

/-- The result has the client issue. -/
def Pays : ArbitrateResult → Prop
  | .ok | .serverAhead => True
  | _ => False

/-- The segments from the client's pointer to the server's are taken, all of them unless
the issuer fails, and a session is keyed with the last. -/
structure Paid (book : SegmentIndex → Segment) (sp : SegmentIndex) (p p' : Issuing ClientHandshake) :
    Prop where
  taken : ∃ n ≤ sp.get.toNat - p.machine.cfg.localPointer.get.toNat + 1,
    p'.issuer.taken = p.issuer.taken ++ segmentsFrom p.machine.cfg.localPointer.get n ∧
      (n = sp.get.toNat - p.machine.cfg.localPointer.get.toNat + 1 ∨
        ∃ e, p'.replies = p.replies ++ [.step (.failed (.issuer e))])
  keyed : ∀ session, p'.machine.session = some session →
    session.keys = some (.split (book sp)) ∧ session.ctx.segment = sp ∧
      p'.issuer.taken = p.issuer.taken ++ segmentsFrom p.machine.cfg.localPointer.get
        (sp.get.toNat - p.machine.cfg.localPointer.get.toNat + 1)
  sent : p'.machine.session ≠ none ∨ ∃ e, p'.replies = p.replies ++ [.step (.failed e)]

/-- What one call of the client may take from its issuer. -/
structure ClientAccounted (book : SegmentIndex → Segment) (call : ClientCall)
    (p p' : Issuing ClientHandshake) : Prop where
  untouched : (∀ sp result, arbitration call p.machine = some (sp, result) →
    ¬(Pays result ∧ Agrees p.machine.cfg sp result)) → p'.issuer = p.issuer
  refused : ∀ sp result, arbitration call p.machine = some (sp, result) →
    ¬Agrees p.machine.cfg sp result →
      p'.replies = p.replies ++ [.step (.failed (.violation .issuePointerMismatch))]
  paid : ∀ sp result, arbitration call p.machine = some (sp, result) → Pays result →
    Agrees p.machine.cfg sp result → Paid book sp p p'

/-- An `Ok` or a `ServerAhead` that fits the pointers but not the book. -/
def BeyondBook (call : ClientCall) (h : ClientHandshake) : Prop :=
  ∃ sp result, arbitration call h = some (sp, result) ∧ h.cfg.segmentCount ≤ sp.get ∧
    (result = .ok ∧ sp = h.cfg.localPointer ∨
      result = .serverAhead ∧ h.cfg.localPointer.get < sp.get)

/-- What holds between two calls of the client. -/
structure ClientReady (cfg : ClientConfig) (p : Issuing ClientHandshake) : Prop where
  held : ClientHeld p.machine
  configured : p.machine.cfg = cfg
  level : p.machine.phase = .idle ∨ p.machine.phase = .helloSent → p.issuer.next = cfg.localPointer.get
  greeted : p.machine.phase = .helloSent → p.machine.session = none ∧ ∃ nonce, p.machine.clientNonce = some nonce
  calm : p.panicked = false

section Client

variable {book : SegmentIndex → Segment} {count : UInt64} {cfg : ClientConfig}
  {p : Issuing ClientHandshake}

theorem ready_fresh (cfg : ClientConfig) :
    ClientReady cfg ⟨.idle cfg, .fresh cfg.localPointer, [], false⟩ where
  held := clientHeld_of_none rfl
  configured := rfl
  level := fun _ => rfl
  greeted := nofun
  calm := rfl

/-- A machine past HelloSent with a session that is in order is ready for anything. -/
theorem ready_past {p' : Issuing ClientHandshake} (held : ClientHeld p'.machine)
    (configured : p'.machine.cfg = cfg) (past : p'.machine.phase ≠ .idle ∧ p'.machine.phase ≠ .helloSent)
    (calm : p'.panicked = false) : ClientReady cfg p' where
  held := held
  configured := configured
  level before := by
    rcases before with phase | phase
    · exact absurd phase past.1
    · exact absurd phase past.2
  greeted phase := absurd phase past.2
  calm := calm

/-- A call that is not answered for an ARBITRATE takes nothing. -/
theorem accounted_of_idle {call : ClientCall} {p' : Issuing ClientHandshake}
    (none_ : arbitration call p.machine = none) (same : p'.issuer = p.issuer) :
    ClientAccounted book call p p' ∧ ¬BeyondBook call p.machine := by
  refine ⟨⟨fun _ => same, ?_, ?_⟩, ?_⟩
  · intro sp result some_
    rw [none_] at some_
    cases some_
  · intro sp result some_
    rw [none_] at some_
    cases some_
  · rintro ⟨sp, result, some_, -⟩
    rw [none_] at some_
    cases some_

/-- `handle` of anything but an ARBITRATE in HelloSent asks the issuer for nothing. -/
theorem wp_handle_idle {msg : Message} {w : Issuer} {h : ClientHandshake}
    (none_ : arbitration (.handle msg) h = none)
    (own : ∀ session, h.session = some session → session.Coherent ∧ session.ctx.role = .client) :
    (h.handle msg).wp (issuingHost book count)
      (fun out w' => w' = w ∧ out.2.session = none ∧ out.2.cfg = h.cfg ∧
        (out.2.phase = .failed ∨ out.2.phase = .established)) (fun _ => False) w := by
  unfold ClientHandshake.handle
  split
  · rename_i phase
    simp [arbitration, phase] at none_
  · unfold ClientHandshake.onConfirmS2c
    split
    · rename_i i clientNonce serverNonce session agreed client server held
      obtain ⟨coherent, role⟩ := own session held
      show Program.wp _ _ _ (acceptConfirm _ _ _ _ _ _ _ >>= _) w
      rw [wp_bind]
      refine wp_acceptConfirm coherent (show _ = Direction.serverToClient by rw [role]; rfl)
        (fun e => ⟨rfl, rfl, rfl, .inl rfl⟩) ?_
      intro keys _ given luck
      dsimp only [issuingHost]
      cases luck.opened with
      | none => exact fun e => ⟨rfl, rfl, rfl, .inl rfl⟩
      | some payload => exact ⟨fun e => ⟨rfl, rfl, rfl, .inl rfl⟩, rfl, rfl, rfl, .inr rfl⟩
    · exact ⟨rfl, rfl, rfl, .inl rfl⟩
  · exact ⟨rfl, rfl, rfl, .inl rfl⟩

/-- The state after a call that returned `reply` and left `machine` and `issuer`. -/
def Issuing.returned {μ : Type} (p : Issuing μ) (reply : CallReply) (machine : μ) (issuer : Issuer) :
    Issuing μ :=
  { p with machine, issuer, replies := p.replies ++ [reply] }

/-- The last reply decides between two ends of one call. -/
theorem returned_replies {μ : Type} {p : Issuing μ} {reply other : CallReply} {machine : μ} {issuer : Issuer}
    (same : (p.returned reply machine issuer).replies = p.replies ++ [other]) : reply = other := by
  simpa [Issuing.returned] using same

/-- A call that a rejection ends takes nothing. -/
theorem accounted_of_refusal {call : ClientCall} {sp : SegmentIndex} {result : ArbitrateResult}
    {e : HandshakeError} {phase : ClientPhase} (some_ : arbitration call p.machine = some (sp, result))
    (free : ¬(Pays result ∧ Agrees p.machine.cfg sp result))
    (refuses : ¬Agrees p.machine.cfg sp result → e = .violation .issuePointerMismatch) :
    ClientAccounted book call p
      (p.returned (.step (.failed e)) { p.machine with phase := phase } p.issuer) where
  untouched := fun _ => rfl
  refused := by
    intro sp' result' other disagrees
    obtain ⟨rfl, rfl⟩ := Prod.mk.inj (Option.some.inj (some_.symm.trans other))
    rw [← refuses disagrees]
    rfl
  paid := by
    intro sp' result' other pays agrees
    obtain ⟨rfl, rfl⟩ := Prod.mk.inj (Option.some.inj (some_.symm.trans other))
    exact absurd ⟨pays, agrees⟩ free

/-- An `Ok` or a `ServerAhead` that fits the pointers is paid for; it is accounted for
when it fits the book, and not when it lies beyond. -/
theorem client_issues {call : ClientCall} {sp : SegmentIndex} {result : ArbitrateResult}
    (ready : ClientReady cfg p) (greets : p.machine.phase = .helloSent)
    (some_ : arbitration call p.machine = some (sp, result)) (pays : Pays result)
    (ahead : p.machine.cfg.localPointer.get ≤ sp.get)
    (agrees_iff : Agrees p.machine.cfg sp result ↔ sp.get < p.machine.cfg.segmentCount)
    (beyond_iff : BeyondBook call p.machine ↔ p.machine.cfg.segmentCount ≤ sp.get)
    (serverNonce : Nonce16) (gap : Option (SegmentIndex × SegmentIndex)) :
    ({ p.machine with wastedGap := gap, serverNonce := some serverNonce, agreed := some sp :
        ClientHandshake }).issueAndConfirm.wp (issuingHost book count)
      (fun out w' => ClientReady cfg (p.returned (.step out.1) out.2 w') ∧
        (ClientAccounted book call p (p.returned (.step out.1) out.2 w') ↔
          ¬BeyondBook call p.machine)) (fun _ => False) p.issuer := by
  obtain ⟨free, clientNonce, client⟩ := ready.greeted greets
  have level : p.issuer.next = p.machine.cfg.localPointer.get := by
    rw [ready.level (.inr greets), ready.configured]
  have past : ∀ {h : ClientHandshake} {w'} {reply} (phase : ClientPhase), ClientHeld h → h.cfg = p.machine.cfg →
      h.phase = phase → phase ≠ .idle ∧ phase ≠ .helloSent →
        ClientReady cfg (p.returned reply h w') := by
    intro h w' reply phase held configured is late
    exact ready_past held (configured.trans ready.configured) (is ▸ late) ready.calm
  -- what makes the call accounted for, and what a reply other than 0x0307 refutes
  have decides : ∀ {reply h w'}, reply ≠ .step (.failed (.violation .issuePointerMismatch)) →
      Paid book sp p (p.returned reply h w') →
        (ClientAccounted book call p (p.returned reply h w') ↔ ¬BeyondBook call p.machine) := by
    intro reply h w' other paid
    rw [beyond_iff, UInt64.not_le]
    constructor
    · intro accounted
      by_contra beyond
      exact other (returned_replies (accounted.refused sp result some_ (agrees_iff.not.mpr beyond)))
    · intro within
      have agrees := agrees_iff.mpr within
      refine ⟨fun free => absurd ⟨pays, agrees⟩ (free sp result some_), ?_, ?_⟩
      · intro sp' result' same disagrees
        obtain ⟨rfl, rfl⟩ := Prod.mk.inj (Option.some.inj (some_.symm.trans same))
        exact absurd agrees disagrees
      · intro sp' result' same _ _
        obtain ⟨rfl, rfl⟩ := Prod.mk.inj (Option.some.inj (some_.symm.trans same))
        exact paid
  refine wp_issueAndConfirm_takes (h := { p.machine with
    wastedGap := gap, serverNonce := some serverNonce, agreed := some sp }) rfl client rfl level ahead ?_ ?_ ?_
  · intro e k w' le taken
    refine ⟨past .failed (clientHeld_of_none rfl) rfl rfl (by simp), decides nofun ⟨?_, nofun, .inr ⟨_, rfl⟩⟩⟩
    exact ⟨k, le, level ▸ taken, .inr ⟨e, rfl⟩⟩
  · intro w' taken
    refine ⟨past .failed (clientHeld_of_none rfl) rfl rfl (by simp), decides nofun ⟨?_, nofun, .inr ⟨_, rfl⟩⟩⟩
    exact ⟨_, Nat.le_refl _, level ▸ taken, .inl rfl⟩
  · intro w' outbox session taken keys segment coherent role
    have held : ClientHeld { p.machine with
        wastedGap := gap, serverNonce := some serverNonce, agreed := some sp
        session := some session, phase := .confirmSent } := by
      refine ⟨fun _ => .inl rfl, ?_⟩
      intro session' same
      obtain rfl := Option.some.inj same
      exact ⟨coherent, role⟩
    refine ⟨past .confirmSent held rfl rfl (by simp), decides nofun ⟨?_, ?_, .inl nofun⟩⟩
    · exact ⟨_, Nat.le_refl _, level ▸ taken, .inl rfl⟩
    · intro session' same
      obtain rfl := Option.some.inj same
      exact ⟨keys, segment, level ▸ taken⟩

/-- `on_arbitrate`, by its result. -/
theorem client_arbitrates {serverNonce : Nonce16} {sp : SegmentIndex} {result : ArbitrateResult}
    (ready : ClientReady cfg p) (greets : p.machine.phase = .helloSent) :
    let call := ClientCall.handle (.arbitrate serverNonce sp result)
    (p.machine.onArbitrate serverNonce sp result).wp (issuingHost book count)
      (fun out w' => ClientReady cfg (p.returned (.step out.1) out.2 w') ∧
        (ClientAccounted book call p (p.returned (.step out.1) out.2 w') ↔
          ¬BeyondBook call p.machine)) (fun _ => False) p.issuer := by
  intro call
  have some_ : arbitration call p.machine = some (sp, result) := by simp [arbitration, greets, call]
  obtain ⟨burned, -⟩ := ready.greeted greets
  have beyond_iff : BeyondBook call p.machine ↔ p.machine.cfg.segmentCount ≤ sp.get ∧
      (result = .ok ∧ sp = p.machine.cfg.localPointer ∨
        result = .serverAhead ∧ p.machine.cfg.localPointer.get < sp.get) := by
    simp [BeyondBook, some_]
  have refuses : ∀ (e : HandshakeError) (phase : ClientPhase), phase ≠ .idle ∧ phase ≠ .helloSent →
      ¬(Pays result ∧ Agrees p.machine.cfg sp result) →
      (¬Agrees p.machine.cfg sp result → e = .violation .issuePointerMismatch) →
      ¬BeyondBook call p.machine →
        ClientReady cfg (p.returned (.step (.failed e)) { p.machine with phase := phase } p.issuer) ∧
        (ClientAccounted book call p
            (p.returned (.step (.failed e)) { p.machine with phase := phase } p.issuer) ↔
          ¬BeyondBook call p.machine) := by
    intro e phase late free rejects within
    refine ⟨ready_past (clientHeld_of_none burned) ready.configured late ready.calm, ?_⟩
    exact ⟨fun _ => within, fun _ => accounted_of_refusal some_ free rejects⟩
  cases result with
  | bookMismatch =>
      refine refuses _ .failed (by simp) (fun both => both.1) (fun disagrees => ?_) (by simp [beyond_iff])
      exact absurd trivial disagrees
  | exhausted =>
      show Program.wp _ _ _ (if _ then _ else _) _
      split
      · exact refuses _ .failed (by simp) (fun both => both.1) (fun _ => rfl) (by simp [beyond_iff])
      · rename_i agrees
        refine refuses _ .failed (by simp) (fun both => both.1) (fun disagrees => ?_) (by simp [beyond_iff])
        exact absurd (not_not.mp agrees) disagrees
  | clientAhead =>
      show Program.wp _ _ _ (if _ then _ else _) _
      split
      · exact refuses _ .failed (by simp) (fun both => both.1) (fun _ => rfl) (by simp [beyond_iff])
      · rename_i agrees
        refine refuses _ .aheadRecovery (by simp) (fun both => both.1) (fun disagrees => ?_)
          (by simp [beyond_iff])
        exact absurd (UInt64.not_le.mp agrees) disagrees
  | ok =>
      show Program.wp _ _ _ (if _ then _ else _) _
      split
      · rename_i apart
        refine refuses _ .failed (by simp) (fun both => apart both.2.1) (fun _ => rfl) ?_
        simp [beyond_iff, apart]
      · rename_i level
        replace level := not_not.mp level
        exact client_issues ready greets some_ trivial (level ▸ UInt64.le_refl _)
          (by simp [Agrees, level]) (by simp [beyond_iff, level]) serverNonce p.machine.wastedGap
  | serverAhead =>
      show Program.wp _ _ _ (if _ then _ else _) _
      split
      · rename_i behind
        have apart : ¬p.machine.cfg.localPointer.get < sp.get := UInt64.not_lt.mpr behind
        refine refuses _ .failed (by simp) (fun both => apart both.2.1) (fun _ => rfl) ?_
        simp [beyond_iff, apart]
      · rename_i ahead
        have ahead := UInt64.not_le.mp ahead
        exact client_issues ready greets some_ trivial (UInt64.le_of_lt ahead)
          (by simp [Agrees, ahead]) (by simp [beyond_iff, ahead]) serverNonce _

/-- Every call of the client keeps it ready, and is accounted for unless it answers an
ARBITRATE beyond the book. -/
theorem client_step (event : ClientCall × List Luck) (ready : ClientReady cfg p) :
    ClientReady cfg (Issuing.step book count ClientCall.on event p) ∧
      (ClientAccounted book event.1 p (Issuing.step book count ClientCall.on event p) ↔
        ¬BeyondBook event.1 p.machine) := by
  obtain ⟨call, lucks⟩ := event
  have both : ∀ {p' : Issuing ClientHandshake}, arbitration call p.machine = none →
      p'.issuer = p.issuer →
        (ClientAccounted book call p p' ↔ ¬BeyondBook call p.machine) := by
    intro p' none_ same
    obtain ⟨accounted, within⟩ := @accounted_of_idle book _ _ _ none_ same
    exact ⟨fun _ => within, fun _ => accounted⟩
  suffices safe : (call.on p.machine).wp (issuingHost book count)
      (fun out w' => ClientReady cfg (p.returned out.1 out.2 w') ∧
        (ClientAccounted book call p (p.returned out.1 out.2 w') ↔ ¬BeyondBook call p.machine))
      (fun _ => False) p.issuer by
    obtain ⟨reply, machine, issuer, now, stepped⟩ := Issuing.step_of_wp book count lucks safe
    rw [stepped]
    exact now
  cases call with
  | start =>
      have none_ : arbitration .start p.machine = none := by
        simp only [arbitration]
        cases p.machine.phase <;> rfl
      rw [ClientCall.on, wp_bind]
      unfold ClientHandshake.start
      by_cases idle : p.machine.phase = .idle
      · rw [if_neg (not_not.mpr idle)]
        intro luck
        dsimp only [issuingHost]
        cases luck.random with
        | none => exact ⟨{ ready with calm := ready.calm }, both none_ rfl⟩
        | some nonce =>
            have free : p.machine.session = none := by
              by_contra some_
              rcases ready.held.phase some_ with phase | phase <;> simp [phase] at idle
            refine ⟨⟨clientHeld_of_none free, ready.configured, fun _ => ready.level (.inl idle),
              fun _ => ⟨free, nonce, rfl⟩, ready.calm⟩, both none_ rfl⟩
      · rw [if_pos idle]
        refine ⟨ready_past ⟨fun _ => .inr rfl, ready.held.own⟩ ready.configured ?_ ready.calm,
          both none_ rfl⟩
        exact ⟨by rintro ⟨⟩, by rintro ⟨⟩⟩
  | abort reason =>
      have none_ : arbitration (.abort reason) p.machine = none := by
        simp only [arbitration]
        cases p.machine.phase <;> rfl
      refine ⟨ready_past (clientHeld_of_none rfl) ready.configured ?_ ready.calm, both none_ rfl⟩
      exact ⟨by rintro ⟨⟩, by rintro ⟨⟩⟩
  | handle msg =>
      rw [ClientCall.on, wp_bind]
      cases answers : arbitration (.handle msg) p.machine with
      | none =>
          refine wp_mono (wp_handle_idle answers ready.held.own) ?_ fun _ crashed => crashed
          rintro ⟨reply, machine⟩ w' ⟨rfl, burned, configured, phase⟩
          refine ⟨ready_past (clientHeld_of_none burned) (configured.trans ready.configured) ?_ ready.calm,
            both answers rfl⟩
          dsimp only at phase
          rcases phase with phase | phase <;> simp [Issuing.returned, phase]
      | some arbitrate =>
          have shape : ∃ serverNonce sp result, p.machine.phase = .helloSent ∧
              msg = .arbitrate serverNonce sp result := by
            unfold arbitration at answers
            split at answers
            · rename_i phase same
              exact ⟨_, _, _, phase, ClientCall.handle.inj same⟩
            · cases answers
          obtain ⟨serverNonce, sp, result, greets, rfl⟩ := shape
          unfold ClientHandshake.handle
          simp only [greets]
          exact client_arbitrates ready greets

end Client

/-! ## The server -/

/-- An ISSUE_REQUEST in IssueWait with the agreed pointer and both nonces. -/
def Matches (call : ServerCall) (h : ServerHandshake) : Prop :=
  ∃ chosen clientNonce serverNonce, call = .onIssueRequest (.issueRequest chosen clientNonce serverNonce) ∧
    h.phase = .issueWait ∧ h.agreed = some chosen ∧ h.clientNonce = some clientNonce ∧
      h.serverNonce = some serverNonce

/-- What one call of the server may take from its issuer: one segment, its own pointer's,
for a matching ISSUE_REQUEST (none if the issuer fails), and else nothing. -/
structure ServerAccounted (call : ServerCall) (p p' : Issuing ServerHandshake) : Prop where
  untouched : ¬Matches call p.machine → p'.issuer = p.issuer
  taken : Matches call p.machine → p'.issuer.asked = p.issuer.asked + 1 ∧
    (p'.issuer.taken = p.issuer.taken ++ [p.machine.cfg.localPointer] ∨
      p'.issuer.taken = p.issuer.taken ∧ ∃ e, p'.replies = p.replies ++ [.step (.failed (.issuer e))])

/-- What holds between two calls of the server. -/
structure ServerReady (cfg : ServerConfig) (p : Issuing ServerHandshake) : Prop where
  held : ServerHeld p.machine
  level : p.machine.phase = .idle ∨ p.machine.phase = .issueWait →
    p.machine.cfg = cfg ∧ p.issuer.next = cfg.localPointer.get
  agreed : p.machine.phase = .issueWait → p.machine.agreed = some cfg.localPointer
  calm : p.panicked = false

section Server

variable {book : SegmentIndex → Segment} {count : UInt64} {cfg : ServerConfig}
  {p : Issuing ServerHandshake}

theorem server_ready_fresh (cfg : ServerConfig) :
    ServerReady cfg ⟨.idle cfg, .fresh cfg.localPointer, [], false⟩ where
  held := serverHeld_of_none rfl
  level := fun _ => ⟨rfl, rfl⟩
  agreed := nofun
  calm := rfl

theorem server_ready_past {p' : Issuing ServerHandshake} (held : ServerHeld p'.machine) (past : p'.machine.phase ≠ .idle ∧
    p'.machine.phase ≠ .issueWait) (calm : p'.panicked = false) : ServerReady cfg p' where
  held := held
  level before := by
    rcases before with phase | phase
    · exact absurd phase past.1
    · exact absurd phase past.2
  agreed phase := absurd phase past.2
  calm := calm

theorem server_accounted_of_idle {call : ServerCall} {p' : Issuing ServerHandshake}
    (other : ¬Matches call p.machine) (same : p'.issuer = p.issuer) : ServerAccounted call p p' :=
  ⟨fun _ => same, fun matching => absurd matching other⟩

/-- An answered HELLO leaves the server waiting on its own pointer, or past it all. -/
theorem answerHello_agreed (h : ServerHandshake) (bookId : BookId) (clientPointer : SegmentIndex)
    (serverNonce : Nonce16) :
    let h' := (h.answerHello bookId clientPointer serverNonce).2
    h'.cfg = h.cfg ∧
      (h'.phase = .issueWait → h.phase ≠ .issueWait → h'.agreed = some h.cfg.localPointer) := by
  unfold ServerHandshake.answerHello
  split
  · exact ⟨rfl, nofun⟩
  · dsimp only
    generalize ServerHandshake.arbitrate h.cfg.localPointer clientPointer h.cfg.segmentCount = row
    cases row.1 with
    | ok => exact ⟨rfl, fun _ _ => rfl⟩
    | serverAhead => exact ⟨rfl, fun _ _ => rfl⟩
    | clientAhead => exact ⟨rfl, nofun⟩
    | exhausted => exact ⟨rfl, nofun⟩
    | bookMismatch => exact ⟨rfl, fun now before => absurd now before⟩

theorem server_hello {hello : Message} (ready : ServerReady cfg p) :
    (p.machine.onHello hello).wp (issuingHost book count)
      (fun out w' => w' = p.issuer ∧ ServerReady cfg (p.returned (.ofResult out.1) out.2 w'))
      (fun _ => False) p.issuer := by
  unfold ServerHandshake.onHello
  by_cases idle : p.machine.phase = .idle
  · rw [if_neg (not_not.mpr idle)]
    have burned : p.machine.session = none := by
      by_contra some_
      have := ready.held.phase some_
      simp [idle] at this
    cases hello with
    | hello bookId clientNonce clientPointer features =>
        intro luck
        dsimp only [issuingHost]
        cases luck.random with
        | none =>
            refine ⟨rfl, serverHeld_of_none burned, fun _ => ready.level (.inl idle), ?_, ready.calm⟩
            intro waits
            simp [Issuing.returned, idle] at waits
        | some serverNonce =>
            have fresh : { p.machine with clientNonce := some clientNonce : ServerHandshake }.session = none :=
              burned
            obtain ⟨same, level⟩ := ready.level (.inl idle)
            obtain ⟨configured, agreed⟩ := answerHello_agreed
              { p.machine with clientNonce := some clientNonce } bookId clientPointer serverNonce
            refine ⟨rfl, answerHello_held fresh bookId clientPointer serverNonce,
              fun _ => ⟨configured.trans same, level⟩, ?_, ready.calm⟩
            intro waits
            have now := agreed waits (by simp [idle])
            rwa [same] at now
    | _ =>
        refine ⟨rfl, server_ready_past (serverHeld_of_none burned) ?_ ready.calm⟩
        exact ⟨nofun, nofun⟩
  · rw [if_pos idle]
    refine ⟨rfl, server_ready_past (serverHeld_of_none rfl) ?_ ready.calm⟩
    exact ⟨nofun, nofun⟩

theorem server_issues {req : Message} (ready : ServerReady cfg p) :
    (p.machine.onIssueRequest req).wp (issuingHost book count)
      (fun out w' => ServerReady cfg (p.returned (.step out.1) out.2 w') ∧
        ServerAccounted (.onIssueRequest req) p (p.returned (.step out.1) out.2 w'))
      (fun _ => False) p.issuer := by
  have refuses : ∀ (e : HandshakeError) (h' : ServerHandshake), h'.phase = .failed →
      h'.session = none → ¬Matches (.onIssueRequest req) p.machine →
        ServerReady cfg (p.returned (.step (.failed e)) h' p.issuer) ∧
          ServerAccounted (.onIssueRequest req) p (p.returned (.step (.failed e)) h' p.issuer) := by
    intro e h' failed burned other
    refine ⟨server_ready_past (serverHeld_of_none burned) ?_ ready.calm,
      server_accounted_of_idle other rfl⟩
    constructor <;> simp [Issuing.returned, failed]
  unfold ServerHandshake.onIssueRequest
  split
  · rename_i phase
    exact refuses _ _ rfl rfl fun ⟨_, _, _, _, waits, _⟩ => phase waits
  · rename_i phase
    replace phase := not_not.mp phase
    have burned : p.machine.session = none := by
      by_contra some_
      have := ready.held.phase some_
      simp [phase] at this
    have agreed := ready.agreed phase
    split
    · rename_i chosen clientNonce serverNonce i is
      obtain rfl : cfg.localPointer = i := Option.some.inj (agreed.symm.trans is)
      split
      · rename_i other
        refine refuses _ _ rfl burned fun ⟨_, _, _, same, _, its, _, _⟩ => other ?_
        obtain ⟨rfl, -, -⟩ := Message.issueRequest.inj (ServerCall.onIssueRequest.inj same)
        exact Option.some.inj (its.symm.trans agreed)
      · rename_i level
        replace level := not_not.mp level
        subst level
        split
        · rename_i helloClientNonce selfServerNonce client server
          split
          · rename_i apart
            refine refuses _ _ rfl rfl fun ⟨_, _, _, same, _, _, c, s⟩ => ?_
            obtain ⟨-, rfl, rfl⟩ := Message.issueRequest.inj (ServerCall.onIssueRequest.inj same)
            rcases apart with other | other
            · exact other (Option.some.inj (c.symm.trans client))
            · exact other (Option.some.inj (s.symm.trans server))
          · rename_i echoed
            obtain ⟨rfl, rfl⟩ : clientNonce = helloClientNonce ∧ serverNonce = selfServerNonce := by
              simpa [not_or] using echoed
            have matching : Matches (.onIssueRequest (.issueRequest cfg.localPointer clientNonce serverNonce))
                p.machine := ⟨_, _, _, rfl, phase, agreed, client, server⟩
            have next : p.issuer.next = p.machine.cfg.localPointer.get := by
              obtain ⟨same, level⟩ := ready.level (.inr phase)
              rw [level, same]
            intro luck
            have issues := @issueFrom_issues book count luck p.issuer
            simp only [issuingHost]
            generalize issueFrom book count luck p.issuer = given at issues
            have advanced : p.issuer.advance.taken = p.issuer.taken ++ [p.machine.cfg.localPointer] := by
              simp [Issuer.advance, next]
            cases issues with
            | keeps e =>
                refine ⟨server_ready_past (serverHeld_of_none burned) ⟨nofun, nofun⟩ ready.calm,
                  fun other => absurd matching other, fun _ => ⟨rfl, .inr ⟨rfl, e, rfl⟩⟩⟩
            | loses e =>
                refine ⟨server_ready_past (serverHeld_of_none burned) ⟨nofun, nofun⟩ ready.calm,
                  fun other => absurd matching other, fun _ => ⟨rfl, .inl advanced⟩⟩
            | gives fits =>
                refine ⟨server_ready_past ⟨fun _ => rfl, ?_⟩ ⟨nofun, nofun⟩ ready.calm,
                  fun other => absurd matching other, fun _ => ⟨rfl, .inl advanced⟩⟩
                intro session held
                obtain rfl := Option.some.inj held
                exact ⟨Session.coherent_new _ _, rfl, rfl⟩
        · rename_i missing
          exact refuses _ _ rfl rfl fun ⟨_, c, s, _, _, _, client, server⟩ => missing c s client server
    · rename_i shapeless
      refine refuses _ _ rfl rfl fun ⟨chosen, c, s, same, _, its, _, _⟩ => ?_
      exact shapeless chosen c s chosen (ServerCall.onIssueRequest.inj same) its

theorem server_confirms {confirm : Message} (ready : ServerReady cfg p) :
    (p.machine.onConfirm confirm).wp (issuingHost book count)
      (fun out w' => w' = p.issuer ∧ ServerReady cfg (p.returned (.step out.1) out.2 w'))
      (fun _ => False) p.issuer := by
  apply ServerHandshake.wp_onConfirm (· = p.issuer) rfl ready.held.own
  · rintro e h' w' dead rfl
    refine ⟨rfl, server_ready_past (serverHeld_of_none dead.burned) ?_ ready.calm⟩
    rcases dead.ended with phase | phase <;> simp [Issuing.returned, phase]
  · intro i clientNonce serverNonce session keys _ _ _ _ _ _ _ _ _ _ _ _ luck
    dsimp only [issuingHost]
    cases luck.opened with
    | none => rfl
    | some payload =>
        refine ⟨rfl, fun luck => ?_⟩
        cases luck.sealed with
        | none => rfl
        | some given =>
            exact ⟨by simp [confirmBodyLen], rfl,
              server_ready_past (serverHeld_of_none rfl) ⟨nofun, nofun⟩ ready.calm⟩

/-- Every call of the server keeps it ready and is accounted for. -/
theorem server_step (event : ServerCall × List Luck) (ready : ServerReady cfg p) :
    ServerReady cfg (Issuing.step book count ServerCall.on event p) ∧
      ServerAccounted event.1 p (Issuing.step book count ServerCall.on event p) := by
  obtain ⟨call, lucks⟩ := event
  suffices safe : (call.on p.machine).wp (issuingHost book count)
      (fun out w' => ServerReady cfg (p.returned out.1 out.2 w') ∧
        ServerAccounted call p (p.returned out.1 out.2 w')) (fun _ => False) p.issuer by
    obtain ⟨reply, machine, issuer, now, stepped⟩ := Issuing.step_of_wp book count lucks safe
    rw [stepped]
    exact now
  cases call with
  | onHello hello =>
      rw [ServerCall.on, wp_bind]
      refine wp_mono (server_hello ready) ?_ fun _ crashed => crashed
      rintro out w' ⟨rfl, now⟩
      exact ⟨now, server_accounted_of_idle (by rintro ⟨_, _, _, ⟨⟩, _⟩) rfl⟩
  | onIssueRequest req =>
      rw [ServerCall.on, wp_bind]
      exact wp_mono (server_issues ready) (fun _ _ now => now) fun _ crashed => crashed
  | onConfirm confirm =>
      rw [ServerCall.on, wp_bind]
      refine wp_mono (server_confirms ready) ?_ fun _ crashed => crashed
      rintro out w' ⟨rfl, now⟩
      exact ⟨now, server_accounted_of_idle (by rintro ⟨_, _, _, ⟨⟩, _⟩) rfl⟩
  | abort reason =>
      exact ⟨server_ready_past (serverHeld_of_none rfl) ⟨by rintro ⟨⟩, by rintro ⟨⟩⟩ ready.calm,
        server_accounted_of_idle (by rintro ⟨_, _, _, ⟨⟩, _⟩) rfl⟩

end Server

/-! ## Every run -/

/-- **Segment accounting.** In every run of a client and of a server, each with an issuer
that stands at its configured pointer, every call takes what it may and every ARBITRATE
that contradicts the pointers or the book is refused with 0x0307, if and only if the
client never answers an `Ok` or a `ServerAhead` that fits the pointers and lies beyond
the book. -/
theorem segments_accounted_iff (book : SegmentIndex → Segment) (clientCount serverCount : UInt64)
    (clientCfg : ClientConfig) (serverCfg : ServerConfig)
    (clientCalls : List (ClientCall × List Luck)) (serverCalls : List (ServerCall × List Luck)) :
    let client := Issuing.step book clientCount ClientCall.on
    let server := Issuing.step book serverCount ServerCall.on
    let c : Issuing ClientHandshake := ⟨.idle clientCfg, .fresh clientCfg.localPointer, [], false⟩
    let s : Issuing ServerHandshake := ⟨.idle serverCfg, .fresh serverCfg.localPointer, [], false⟩
    (Along client (fun p event => ClientAccounted book event.1 p (client event p)) clientCalls c ∧
        Along server (fun p event => ServerAccounted event.1 p (server event p)) serverCalls s) ↔
      Along client (fun p event => ¬BeyondBook event.1 p.machine) clientCalls c := by
  intro client server c s
  have clientKeeps : ∀ event p, ClientReady clientCfg p → ClientReady clientCfg (client event p) :=
    fun event p ready => (client_step event ready).1
  have clientSame : ∀ event p, ClientReady clientCfg p →
      (ClientAccounted book event.1 p (client event p) ↔ ¬BeyondBook event.1 p.machine) :=
    fun event p ready => (client_step event ready).2
  have serverKeeps : ∀ event p, ServerReady serverCfg p → ServerReady serverCfg (server event p) :=
    fun event p ready => (server_step event ready).1
  have serverHolds : ∀ event p, ServerReady serverCfg p →
      ServerAccounted event.1 p (server event p) :=
    fun event p ready => (server_step event ready).2
  have clients := along_iff client clientKeeps clientSame clientCalls (ready_fresh clientCfg)
  have servers := along_of_invariant server serverKeeps serverHolds serverCalls
    (server_ready_fresh serverCfg)
  rw [clients]
  exact and_iff_left servers

/-- A forged `ServerAhead` that announces pointer 9 over a book of two segments: the client
takes both and fails only when its issuer is exhausted. -/
theorem forged_arbitrate_burns_the_book :
    let nonce : Nonce16 := .replicate 16 7
    let cfg : ClientConfig := ⟨.v2, ⟨.replicate 16 3⟩, .zero, 2⟩
    let book : SegmentIndex → Segment := fun _ => .replicate 64 5
    let client := Issuing.step book 2 ClientCall.on
    let greeted := client (.start, [⟨none, none, some nonce, none⟩])
      ⟨.idle cfg, .fresh cfg.localPointer, [], false⟩
    let call : ClientCall := .handle (.arbitrate nonce ⟨9⟩ .serverAhead)
    (client (call, []) greeted).issuer.taken = [⟨0⟩, ⟨1⟩] ∧
      (client (call, []) greeted).replies.getLast? = some (.step (.failed (.issuer (.exhausted ⟨2⟩)))) ∧
      ¬ClientAccounted book call greeted (client (call, []) greeted) := by
  refine ⟨by decide, by decide, fun accounted => ?_⟩
  have untouched := accounted.untouched (by
    rintro sp result answers ⟨-, agrees⟩
    obtain ⟨rfl, rfl⟩ := Prod.mk.inj (Option.some.inj (answers.symm.trans (by decide :
      arbitration _ _ = some (⟨9⟩, .serverAhead))))
    exact absurd agrees.2 (by decide))
  exact absurd (congrArg Issuer.taken untouched) (by decide)

end Jbuu.Handshake
