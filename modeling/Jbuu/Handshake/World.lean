/-
# Handshake.World — any number of instances, one book, and any network

Any number of clients and servers over one book, configured in any way; a network that
hands any of them any message at any time; an ideal cipher that all of them share; and
an issuer on each side that gives any segment, but none twice. Sessions that were
established may be used freely. As ghosts, `opened` is the session an instance made when
it issued its segment, and `established` what it handed over.
-/
import Mathlib.Logic.Function.Basic
import Jbuu.Library.Runs
import Jbuu.Session.Channel
import Jbuu.Handshake.Server

namespace Jbuu.Handshake

set_option autoImplicit false

open Jbuu.Library.BigEndian (Bytes Exactly)
open Jbuu.Library
open Jbuu.Allocator (IssueError)

/-! ## The world -/

/-- One instance: a client or a server. -/
structure Party where
  role : Role
  index : Nat
  deriving DecidableEq, Repr

/-- What all instances share: the cipher, and what each side's issuers have given out. -/
structure Env where
  ledger : Ledger Party
  issued : Role → List SegmentIndex

/-- No two halves of segments are equal. -/
def DistinctHalves (book : List Segment) : Prop :=
  ∀ (k k' : Nat) (body body' : Segment) (d d' : Direction), book[k]? = some body →
    book[k']? = some body' →
    (SessionKeys.split body).keyFor d = (SessionKeys.split body').keyFor d' → k = k' ∧ d = d'

/-- An issuer of one side: any segment of the book, but none twice. -/
def issuer (book : List Segment) (role : Role) (fate : Fate) (env : Env) :
    Except IssueError Segment × Env :=
  match fate.issued with
  | .error e => (.error e, env)
  | .ok k =>
      match book[k.get.toNat]? with
      | none => (.error (.exhausted k), env)
      | some body =>
          if k ∈ env.issued role then (.error .persistenceUncertain, env)
          else
            (.ok body,
              { env with issued := Function.update env.issued role (k :: env.issued role) })

/-- The host of one instance. -/
def host (book : List Segment) (owner : Party) : Device HostOp HostReply Fate Env
  | .issue, fate, env =>
      let (reply, env) := issuer book owner.role fate env
      (some reply, env)
  | .encrypt key nonce aad plaintext, fate, env =>
      let (reply, ledger) := aead owner (.encrypt key nonce aad plaintext) fate env.ledger
      (reply, { env with ledger })
  | .decrypt key nonce aad ciphertext tag, fate, env =>
      let (reply, ledger) := aead owner (.decrypt key nonce aad ciphertext tag) fate env.ledger
      (reply, { env with ledger })
  | .csprng16, fate, env => (some fate.random, env)

/-- What an instance handed over: its session, the segment it names, and the CONFIRM that
it accepted. -/
structure Established where
  session : Session
  segment : SegmentIndex
  confirm : Message
  deriving DecidableEq, Repr

structure World where
  client : Nat → ClientHandshake
  server : Nat → ServerHandshake
  env : Env
  /-- The session an instance made when it issued its segment. -/
  opened : Party → Option Session
  established : Party → Option Established
  /-- The established session, as its holder has used it since. -/
  live : Party → Option Session
  panicked : Bool

inductive Event where
  | client (i : Nat) (call : ClientCall) (fates : List Fate)
  | server (j : Nat) (call : ServerCall) (fates : List Fate)
  | seal (p : Party) (mt : MessageType) (plaintext : Bytes) (fates : List Fate)
  | open (p : Party) (mt : MessageType) (seq : Sequence) (sealed : Bytes) (fates : List Fate)
  | close (p : Party)

namespace World

def initial (clientCfg : Nat → ClientConfig) (serverCfg : Nat → ServerConfig) : World where
  client i := .idle (clientCfg i)
  server j := .idle (serverCfg j)
  env := { ledger := [], issued := fun _ => [] }
  opened _ := none
  established _ := none
  live _ := none
  panicked := false

/-- The message a call handed to a machine. -/
def received : ClientCall ⊕ ServerCall → Option Message
  | .inl (.handle m) | .inr (.onHello m) | .inr (.onIssueRequest m) | .inr (.onConfirm m) => some m
  | _ => none

/-- The ghosts after a reply: what was established. -/
def hand (w : World) (p : Party) (m : Option Message) : CallReply → World
  | .step (.established _ session segment) =>
      match m with
      | some confirm =>
          { w with
            established := Function.update w.established p (some ⟨session, segment, confirm⟩)
            live := Function.update w.live p (some session) }
      | none => w
  | _ => w

/-- The ghost of an instance that holds a session it has just made. -/
def note (w : World) (p : Party) (now : Bool) (session : Option Session) : World :=
  if now then { w with opened := Function.update w.opened p session } else w

def clientReturned (w : World) (i : Nat) (call : ClientCall) (env : Env) :
    CallReply × ClientHandshake → World
  | (reply, h) =>
      let w := { w with env, client := Function.update w.client i h }
      (w.note ⟨.client, i⟩ (h.phase = .confirmSent) h.session).hand ⟨.client, i⟩
        (received (.inl call)) reply

def serverReturned (w : World) (j : Nat) (call : ServerCall) (env : Env) :
    CallReply × ServerHandshake → World
  | (reply, h) =>
      let w := { w with env, server := Function.update w.server j h }
      (w.note ⟨.server, j⟩ (h.phase = .confirmWait) h.session).hand ⟨.server, j⟩
        (received (.inr call)) reply

def step (book : List Segment) : Event → World → World
  | .client i call fates, w =>
      match (call.on (w.client i)).exec (host book ⟨.client, i⟩) fates w.env with
      | (.returned out, env) => w.clientReturned i call env out
      | (.crashed, env) => { w with env }
      | (.panicked, env) => { w with env, panicked := true }
  | .server j call fates, w =>
      match (call.on (w.server j)).exec (host book ⟨.server, j⟩) fates w.env with
      | (.returned out, env) => w.serverReturned j call env out
      | (.crashed, env) => { w with env }
      | (.panicked, env) => { w with env, panicked := true }
  | .seal p mt plaintext fates, w =>
      match w.live p with
      | none => w
      | some session =>
          match (session.seal mt plaintext).exec (host book p) fates w.env with
          | (.returned (_, session), env) =>
              { w with env, live := Function.update w.live p (some session) }
          | (.crashed, env) => { w with env }
          | (.panicked, env) => { w with env, panicked := true }
  | .open p mt seq sealed fates, w =>
      match w.live p with
      | none => w
      | some session =>
          match (session.open mt seq sealed).exec (host book p) fates w.env with
          | (.returned (_, session), env) =>
              { w with env, live := Function.update w.live p (some session) }
          | (.crashed, env) => { w with env }
          | (.panicked, env) => { w with env, panicked := true }
  | .close p, w =>
      match w.live p with
      | none => w
      | some session => { w with live := Function.update w.live p (some session.close) }

end World

end Jbuu.Handshake
