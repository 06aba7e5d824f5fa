/-
# Terminal.Records — terminal frames over the two sessions of a connection

`send_terminal_frame`, `recv_terminal_frame` and `recv_raw` as calls of one end of a
`Session.DataFrames` exchange, with what they return. The channel behind the exchange takes a
step with every call, and its records say what came of it: a frame that is sent is the record
that was sealed, a frame received is the record that was opened (`Follows`).
-/
import Jbuu.Session.DataFrames

namespace Jbuu

set_option autoImplicit false

open Jbuu.Library.BigEndian (Bytes)
open Jbuu.Library
open Jbuu.Library.Program (exec_bind_pure)
open Jbuu.Transport (TransportError)
open Jbuu.Terminal (TerminalError TerminalFrame)

/-! ## Terminal frames over the two sessions -/

namespace Exchange

/-- What a call returned. -/
def returned {α : Type} : Outcome (α × Session) × Ledger Role → Option α
  | (.returned (out, _), _) => some out
  | _ => none

/-- A terminal frame is sealed and framed. -/
def tells (x : Exchange) (role : Role) (f : TerminalFrame) (fates : List Fate) :
    Option (Except TerminalError Bytes) × Exchange :=
  let call := (sendTerminalFrame (x.session role) f).exec (aead role) fates x.ledger
  (returned call, x.after role (fun framed => match framed with
    | .ok wire => [wire]
    | .error _ => []) nothing call)

/-- The frame, where it was taken. -/
def wires (received : Except TransportError Bytes) (taken : Bool) : List Bytes :=
  match taken, received with
  | true, .ok wire => [wire]
  | _, _ => []

/-- The server receives. -/
def serverHears (x : Exchange) (received : Except TransportError Bytes) (fates : List Fate) :
    Option RecvOutcome × Exchange :=
  let call := (recvTerminalFrame received (x.session .server)).exec (aead .server) fates x.ledger
  (returned call, x.after .server nothing (fun outcome => wires received (match outcome with
    | .frame _ => true
    | _ => false)) call)

/-- The client receives. -/
def clientHears (x : Exchange) (received : Except TransportError Bytes) (fates : List Fate) :
    Option (Except TerminalError (Option TerminalFrame)) × Exchange :=
  let call := (recvRaw received (x.session .client)).exec (aead .client) fates x.ledger
  (returned call, x.after .client nothing (fun outcome => wires received (match outcome with
    | .ok (some _) => true
    | _ => false)) call)

end Exchange

/-- The terminal frames that records carry. -/
def framesOf (notes : List Note) : List TerminalFrame :=
  notes.filterMap fun note => if note.mt = .data then (TerminalFrame.decode note.plaintext).toOption else none

@[simp] theorem framesOf_append (notes more : List Note) : framesOf (notes ++ more) = framesOf notes ++ framesOf more :=
  List.filterMap_append

theorem framesOf_mono {notes more : List Note} (before : notes <+: more) : framesOf notes <+: framesOf more := by
  obtain ⟨rest, rfl⟩ := before
  rw [framesOf_append]
  exact List.prefix_append ..

namespace Channel

variable {c : Channel}

/-- The record a call of `seal` left. -/
def sealedNote (mt : MessageType) (plaintext : Bytes) : Outcome (Except SessionError Record × Session) → List Note
  | .returned (.ok record, _) => [{ mt, sequence := record.sequence, plaintext, sealed := record.sealed }]
  | _ => []

/-- The record a call of `open` accepted. -/
def openedNote (mt : MessageType) (sequence : Sequence) (sealed : Bytes) :
    Outcome (Except SessionError Bytes × Session) → List Note
  | .returned (.ok plaintext, _) => [{ mt, sequence, plaintext, sealed }]
  | _ => []

/-- What one event adds to the records that the ends sealed and accepted. -/
structure Adds (c c' : Channel) (role : Role) (sent accepted : List Note) : Prop where
  sent : (c'.endpoint role).sent = (c.endpoint role).sent ++ sent
  accepted : (c'.endpoint role).accepted = (c.endpoint role).accepted ++ accepted
  other : ∀ other, other ≠ role → c'.endpoint other = c.endpoint other

theorem adds_seal (role : Role) (mt : MessageType) (plaintext : Bytes) (fates : List Fate) :
    Adds c (step (.seal role mt plaintext fates) c) role
      (sealedNote mt plaintext (((c.endpoint role).session.seal mt plaintext).exec (aead role) fates c.ledger).1) [] := by
  unfold step
  dsimp only
  rcases ((c.endpoint role).session.seal mt plaintext).exec (aead role) fates c.ledger with
    ⟨⟨_ | record, s⟩ | _ | _, ledger⟩
  · refine ⟨?_, ?_, fun other ne => put_other ne ..⟩ <;> rw [put_same] <;> simp [Endpoint.sealReturned, sealedNote]
  · refine ⟨?_, ?_, fun other ne => put_other ne ..⟩ <;> rw [put_same] <;> simp [Endpoint.sealReturned, sealedNote]
  · exact ⟨(List.append_nil _).symm, (List.append_nil _).symm, fun _ _ => rfl⟩
  · exact ⟨(List.append_nil _).symm, (List.append_nil _).symm, fun _ _ => rfl⟩

theorem adds_open (role : Role) (mt : MessageType) (seq : Sequence) (sealed : Bytes) (fates : List Fate) :
    Adds c (step (.open role mt seq sealed fates) c) role []
      (openedNote mt seq sealed (((c.endpoint role).session.open mt seq sealed).exec (aead role) fates c.ledger).1) := by
  unfold step
  dsimp only
  rcases ((c.endpoint role).session.open mt seq sealed).exec (aead role) fates c.ledger with
    ⟨⟨_ | plaintext, s⟩ | _ | _, ledger⟩
  · refine ⟨?_, ?_, fun other ne => put_other ne ..⟩ <;> rw [put_same] <;> simp [Endpoint.openReturned, openedNote]
  · refine ⟨?_, ?_, fun other ne => put_other ne ..⟩ <;> rw [put_same] <;> simp [Endpoint.openReturned, openedNote]
  · exact ⟨(List.append_nil _).symm, (List.append_nil _).symm, fun _ _ => rfl⟩
  · exact ⟨(List.append_nil _).symm, (List.append_nil _).symm, fun _ _ => rfl⟩

theorem adds_close (role : Role) : Adds c (step (.close role) c) role [] [] := by
  refine ⟨?_, ?_, fun other ne => put_other ne ..⟩
  · show ((c.put role _ _).endpoint role).sent = _
    rw [put_same, List.append_nil]
  · show ((c.put role _ _).endpoint role).accepted = _
    rw [put_same, List.append_nil]

theorem Adds.nothing (role : Role) : Adds c c role [] [] :=
  ⟨(List.append_nil _).symm, (List.append_nil _).symm, fun _ _ => rfl⟩

end Channel

namespace Exchange

variable {segment : Segment} {ctx : Role → SessionContext} {x : Exchange} {c : Channel}

/-- The exchange goes on as a channel does, and these are the terminal frames that were sealed
and opened with it. -/
def Follows (segment : Segment) (ctx : Role → SessionContext) (x : Exchange) (c : Channel) (role : Role)
    (frames opened : List TerminalFrame) : Prop :=
  ∃ c' sent accepted, Channel.Steady segment ctx c' ∧ Mirrors x c' ∧ Channel.Adds c c' role sent accepted ∧
    framesOf sent = frames ∧ framesOf accepted = opened

/-- What comes of a sealed record. -/
def wireOf : Except SessionError Record → Except TerminalError Bytes
  | .error e => .error (.session e)
  | .ok record =>
      match encode (.data ⟨0⟩ record.sequence record.sealed) with
      | .error _ => .error .protocol
      | .ok wire => .ok wire

theorem sendTerminalFrame_eq {f : TerminalFrame} {plaintext : Bytes} (encoded : f.encode = some plaintext) (s : Session) :
    sendTerminalFrame s f = s.seal .data plaintext >>= fun out => pure (wireOf out.1, out.2) := by
  unfold sendTerminalFrame sealFrame
  rw [encoded]
  simp only [bind_assoc, pure_bind]
  show (s.seal .data plaintext >>= _) = _
  congr 1
  funext out
  obtain ⟨e | record, s⟩ := out
  · rfl
  · unfold wireOf
    dsimp only
    cases encode (.data ⟨0⟩ record.sequence record.sealed) <;> rfl

theorem plain_of_wireOf {sealed : Except SessionError Record} {wire : Bytes}
    (mem : wire ∈ match wireOf sealed with
      | .ok wire => [wire]
      | .error _ => []) : ∃ seq data, encode (.data ⟨0⟩ seq data) = .ok wire := by
  cases sealed with
  | error e => nomatch mem
  | ok record =>
      unfold wireOf at mem
      dsimp only at mem
      cases encoded : encode (.data ⟨0⟩ record.sequence record.sealed) with
      | error e => rw [encoded] at mem; nomatch mem
      | ok frame =>
          rw [encoded] at mem
          exact ⟨_, _, List.mem_singleton.mp mem ▸ encoded⟩

/-- **A frame is sealed**, or the call fails. -/
theorem follows_tells (steady : Channel.Steady segment ctx c) (mirrors : Mirrors x c) (role : Role)
    (f : TerminalFrame) (fates : List Fate) :
    ∃ frames, Follows segment ctx (x.tells role f fates).2 c role frames [] ∧
      match (x.tells role f fates).1 with
      | some (.ok _) => frames = [f]
      | some (.error _) => frames = [] ∨ frames = [f]
      | none => frames = [] := by
  cases encoded : f.encode with
  | none =>
      have panics : (sendTerminalFrame (x.session role) f).exec (aead role) fates x.ledger = (.panicked, x.ledger) := by
        unfold sendTerminalFrame
        rw [encoded]
        rfl
      unfold tells
      rw [panics]
      exact ⟨[], ⟨c, [], [], steady, mirrors, .nothing role, rfl, rfl⟩, rfl⟩
  | some plaintext =>
      have follows := mirrors.after_seal role .data plaintext fates wireOf
        (fun framed => match framed with
          | .ok wire => [wire]
          | .error _ => [])
        (fun record _ wire encoded => by simp [wireOf, encoded])
        (fun sealed wire mem => plain_of_wireOf mem)
      have adds := @Channel.adds_seal c role .data plaintext fates
      have one (record : Record) : framesOf [⟨.data, record.sequence, plaintext, record.sealed⟩] = [f] := by
        simp [framesOf, TerminalFrame.decode_encode encoded, Except.toOption]
      rw [← mirrors.session role, ← mirrors.ledger] at adds
      unfold tells
      rw [sendTerminalFrame_eq encoded]
      refine ⟨_, ⟨_, _, _, Channel.steady_step _ _ steady, follows, adds, rfl, rfl⟩, ?_⟩
      rw [exec_bind_pure]
      rcases ((x.session role).seal .data plaintext).exec (aead role) fates x.ledger with
        ⟨⟨e | record, s⟩ | _ | _, ledger⟩
      · exact .inl rfl
      · show match some (wireOf (.ok record)) with
          | some (.ok _) => framesOf [_] = [f]
          | some (.error _) => framesOf [_] = [] ∨ framesOf [_] = [f]
          | none => framesOf [_] = []
        cases wireOf (.ok record) with
        | error e => exact .inr (one record)
        | ok wire => exact one record
      · rfl
      · rfl

/-- A call that asks for nothing. -/
theorem follows_pure (steady : Channel.Steady segment ctx c) (mirrors : Mirrors x c) (role : Role) {α : Type}
    {accepted : α → List Bytes} {out : α} (none_ : accepted out = []) (fates : List Fate) :
    Follows segment ctx (x.after role nothing accepted
      ((pure (out, x.session role) : Host (α × Session)).exec (aead role) fates x.ledger)) c role [] [] := by
  refine ⟨c, [], [], steady, ?_, .nothing role, rfl, rfl⟩
  simpa [Exchange.after, nothing, none_] using mirrors.keeps role

theorem of_mem_wires {received : Except TransportError Bytes} {taken : Bool} {wire : Bytes}
    (mem : wire ∈ wires received taken) : received = .ok wire ∧ taken = true := by
  unfold wires at mem
  split at mem
  · exact ⟨congrArg Except.ok (List.mem_singleton.mp mem).symm, rfl⟩
  · nomatch mem

/-- A call of `open` with the record of a frame. -/
theorem follows_open (steady : Channel.Steady segment ctx c) (mirrors : Mirrors x c) (role : Role) {α : Type}
    {wire : Bytes} {epoch : Epoch} {seq : Sequence} {data : Bytes}
    (decoded : decode role wire = .ok (.data epoch seq data)) (fates : List Fate)
    (result : Except SessionError Bytes → α) (taken : α → Bool) (honest : ∀ e, taken (result (.error e)) = false) :
    let call := ((x.session role).open .data seq data >>= fun out => pure (result out.1, out.2)).exec
      (aead role) fates x.ledger
    ∃ opened, Follows segment ctx (x.after role nothing (fun out => wires (.ok wire) (taken out)) call) c role [] opened ∧
      match returned call with
      | some out => ∃ plain, out = result plain ∧ opened = match plain with
        | .ok plain => (TerminalFrame.decode plain).toOption.toList
        | .error _ => []
      | none => opened = [] := by
  intro call
  have follows := mirrors.after_open role .data seq data fates result (fun out => wires (.ok wire) (taken out)) (by
    intro opened wire' mem
    obtain ⟨same, took⟩ := of_mem_wires mem
    obtain rfl := Except.ok.inj same
    cases opened with
    | error e => nomatch (honest e).symm.trans took
    | ok plain => exact ⟨rfl, ⟨plain, rfl⟩, epoch, decoded⟩)
  have adds := @Channel.adds_open c role .data seq data fates
  rw [← mirrors.session role, ← mirrors.ledger] at adds
  refine ⟨_, ⟨_, _, _, Channel.steady_step _ _ steady, follows, adds, rfl, rfl⟩, ?_⟩
  unfold call
  rw [exec_bind_pure]
  rcases ((x.session role).open .data seq data).exec (aead role) fates x.ledger with
    ⟨⟨e | plain, s⟩ | _ | _, ledger⟩
  · exact ⟨.error e, rfl, rfl⟩
  · refine ⟨.ok plain, rfl, ?_⟩
    show framesOf [⟨.data, seq, plain, data⟩] = _
    unfold framesOf
    cases (TerminalFrame.decode plain) <;> rfl
  · rfl
  · rfl

/-- What the server makes of an opened record. -/
def outcomeOf : Except SessionError Bytes → RecvOutcome
  | .error e => .closed (.session e)
  | .ok plain =>
      match TerminalFrame.decode plain with
      | .ok f => .frame f
      | .error _ => .closed .protocol

/-- What the client makes of it. -/
def heardOf : Except SessionError Bytes → Except TerminalError (Option TerminalFrame)
  | .error e => .error (.session e)
  | .ok plain => (TerminalFrame.decode plain).map some

/-- What the server receives without a record, or of one. -/
theorem recvTerminalFrame_cases (received : Except TransportError Bytes) (s : Session) :
    (∃ out, (∀ f, out ≠ .frame f) ∧ recvTerminalFrame received s = pure (out, s)) ∨
      ∃ wire epoch seq data, received = .ok wire ∧ decode .server wire = .ok (.data epoch seq data) ∧
        recvTerminalFrame received s = s.open .data seq data >>= fun out => pure (outcomeOf out.1, out.2) := by
  unfold recvTerminalFrame
  split
  · exact .inl ⟨.timeout, nofun, rfl⟩
  · exact .inl ⟨.closed _, nofun, rfl⟩
  · rename_i wire
    rcases DataEndpoint.openFrame_cases .server s wire with ⟨e, refused⟩ | other | ⟨epoch, seq, data, decoded, opens⟩
    · rw [refused]
      exact .inl ⟨.closed .protocol, nofun, rfl⟩
    · rw [other]
      exact .inl ⟨.closed .protocol, nofun, rfl⟩
    · refine .inr ⟨wire, epoch, seq, data, rfl, decoded, ?_⟩
      rw [opens]
      simp only [bind_assoc, pure_bind]
      congr 1
      funext out
      obtain ⟨_ | plain, s⟩ := out <;> rfl

/-- And the client. -/
theorem recvRaw_cases (received : Except TransportError Bytes) (s : Session) :
    (∃ out, (∀ f, out ≠ .ok (some f)) ∧ recvRaw received s = pure (out, s)) ∨
      ∃ wire epoch seq data, received = .ok wire ∧ decode .client wire = .ok (.data epoch seq data) ∧
        recvRaw received s = s.open .data seq data >>= fun out => pure (heardOf out.1, out.2) := by
  unfold recvRaw
  split
  · exact .inl ⟨.ok none, nofun, rfl⟩
  · exact .inl ⟨.error _, nofun, rfl⟩
  · rename_i wire
    rcases DataEndpoint.openFrame_cases .client s wire with ⟨e, refused⟩ | other | ⟨epoch, seq, data, decoded, opens⟩
    · rw [refused]
      exact .inl ⟨.error .protocol, nofun, rfl⟩
    · rw [other]
      exact .inl ⟨.error .protocol, nofun, rfl⟩
    · refine .inr ⟨wire, epoch, seq, data, rfl, decoded, ?_⟩
      rw [opens]
      simp only [bind_assoc, pure_bind]
      congr 1
      funext out
      obtain ⟨_ | plain, s⟩ := out <;> rfl

/-- **What the server receives as a frame is what its session opened.** -/
theorem follows_serverHears (steady : Channel.Steady segment ctx c) (mirrors : Mirrors x c)
    (received : Except TransportError Bytes) (fates : List Fate) :
    ∃ opened, Follows segment ctx (x.serverHears received fates).2 c .server [] opened ∧
      match (x.serverHears received fates).1 with
      | some (.frame f) => opened = [f]
      | _ => opened = [] := by
  unfold serverHears
  dsimp only
  rcases recvTerminalFrame_cases received (x.session .server) with ⟨out, quiet, same⟩ |
    ⟨wire, epoch, seq, data, rfl, decoded, same⟩
  · rw [same]
    refine ⟨[], follows_pure steady mirrors .server ?_ fates, ?_⟩
    · cases out <;> first | rfl | exact absurd rfl (quiet _)
    · cases out <;> first | rfl | exact absurd rfl (quiet _)
  · rw [same]
    obtain ⟨opened, follows, result⟩ := follows_open steady mirrors .server decoded fates outcomeOf
      (fun outcome => match outcome with
        | .frame _ => true
        | _ => false) fun _ => rfl
    refine ⟨opened, follows, ?_⟩
    revert result
    generalize returned _ = out
    cases out with
    | none => exact id
    | some out =>
        rintro ⟨plain, rfl, rfl⟩
        cases plain with
        | error e => rfl
        | ok plain =>
            unfold outcomeOf
            dsimp only
            cases TerminalFrame.decode plain <;> rfl

theorem follows_clientHears (steady : Channel.Steady segment ctx c) (mirrors : Mirrors x c)
    (received : Except TransportError Bytes) (fates : List Fate) :
    ∃ opened, Follows segment ctx (x.clientHears received fates).2 c .client [] opened := by
  unfold clientHears
  dsimp only
  rcases recvRaw_cases received (x.session .client) with ⟨out, quiet, same⟩ |
    ⟨wire, epoch, seq, data, rfl, decoded, same⟩
  · rw [same]
    refine ⟨[], follows_pure steady mirrors .client ?_ fates⟩
    rcases out with e | _ | f <;> first | rfl | exact absurd rfl (quiet _)
  · rw [same]
    obtain ⟨opened, follows, -⟩ := follows_open steady mirrors .client decoded fates heardOf
      (fun outcome => match outcome with
        | .ok (some _) => true
        | _ => false) fun _ => rfl
    exact ⟨opened, follows⟩

/-- A confirmation carries no terminal frame. -/
theorem framesOf_confirmation {role : Role} {notes : List Note} (all : ∀ note ∈ notes, note.mt = Channel.confirmation role) :
    framesOf notes = [] := by
  refine List.filterMap_eq_nil_iff.mpr fun note mem => if_neg ?_
  rw [all note mem]
  cases role <;> decide

theorem follows_sealConfirm (steady : Channel.Steady segment ctx c) (mirrors : Mirrors x c) (role : Role)
    (plaintext : Bytes) (fates : List Fate) :
    Follows segment ctx (step (.sealConfirm role plaintext fates) x) c role [] [] := by
  have follows := mirrors.after_seal role (Channel.confirmation role) plaintext fates id nothing
    (fun record data => by cases role <;> cases data) (by rintro _ _ ⟨⟩)
  refine ⟨_, _, _, Channel.steady_step _ _ steady, by simpa [Exchange.step] using follows,
    Channel.adds_seal role (Channel.confirmation role) plaintext fates, @framesOf_confirmation role _ ?_, rfl⟩
  intro note mem
  unfold Channel.sealedNote at mem
  split at mem
  · rw [List.mem_singleton.mp mem]
  · cases mem

theorem follows_openConfirm (steady : Channel.Steady segment ctx c) (mirrors : Mirrors x c) (role : Role)
    (seq : Sequence) (sealed : Bytes) (fates : List Fate) :
    Follows segment ctx (step (.openConfirm role seq sealed fates) x) c role [] [] := by
  have follows := mirrors.after_open role (Channel.confirmation role.peer) seq sealed fates id nothing (by rintro _ _ ⟨⟩)
  refine ⟨_, _, _, Channel.steady_step _ _ steady, by simpa [Exchange.step] using follows,
    Channel.adds_open role (Channel.confirmation role.peer) seq sealed fates, rfl, @framesOf_confirmation role.peer _ ?_⟩
  intro note mem
  unfold Channel.openedNote at mem
  split at mem
  · rw [List.mem_singleton.mp mem]
  · cases mem

theorem follows_close (steady : Channel.Steady segment ctx c) (mirrors : Mirrors x c) (role : Role) :
    Follows segment ctx (step (.close role) x) c role [] [] :=
  ⟨_, [], [], Channel.steady_step _ _ steady, mirrors.close role, Channel.adds_close role, rfl, rfl⟩

end Exchange

end Jbuu
