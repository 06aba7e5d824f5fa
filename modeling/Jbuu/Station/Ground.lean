/-
# Station.Ground — what the handshakes of one station stand on

A station is one book and one pair of anchor files, at the server or at a client, with all the
processes that ever run on them. `Ground` is what outlives a connection: the allocator with its
anchor disk and the ghosts of `Allocator.Runs`, and as a further ghost the marks that were made,
among them every request to the cipher.

`port` is what answers a handshake driver there. The peer, the network, the cipher, the random
generator and the medium do as they like, and at any request the process or the machine may be
gone. `issue_leaves` is what one `issue` comes to: the body at the pointer is delivered and the
pointer moves past it, or nothing is delivered.
-/
import Jbuu.Allocator.Runs
import Jbuu.Handshake.Drivers
import Jbuu.Platform.AuditLog

namespace Jbuu.Station

set_option autoImplicit false

open Jbuu.Library.BigEndian (Bytes Exactly)
open Jbuu.Library
open Jbuu.Library.Program (exec_bind_pure exec_of_wp)
open Jbuu.Transport (TransportError)
open Jbuu.Allocator (IssueError BookFile TransactionCore Disk Loss System Steady Delivery media Called
  Past Sound Genuine)
open Jbuu.AuditLog (AuditEntry)
open Jbuu.Cli (HandshakeOp HandshakeReply SessionInfo)

/-! ## The ground -/

/-- What happened, in the order it did. -/
inductive Mark where
  /-- A handshake asked the cipher. -/
  | confirm (op : HostOp)
  /-- A handshake gave its session, with these keys, to the code that serves it. -/
  | established (info : SessionInfo) (keys : Option SessionKeys)
  /-- `Audit::emit` returned `Ok`. -/
  | audited (entry : AuditEntry)
  /-- The session of the segment asked the cipher for a record. -/
  | record (segment : SegmentIndex) (op : HostOp)
  deriving DecidableEq, Repr

/-- The key and the nonce of an encryption. -/
def encryption : HostOp → Option (DirectionKey × Nonce96)
  | .encrypt key nonce _ _ => some (key, nonce)
  | _ => none

def Mark.sealing : Mark → Option (DirectionKey × Nonce96)
  | .confirm op => encryption op
  | .record _ op => encryption op
  | _ => none

/-- The key and the nonce of every encryption, in order. -/
def sealings (marks : List Mark) : List (DirectionKey × Nonce96) := marks.filterMap Mark.sealing

@[simp] theorem sealings_nil : sealings [] = [] := rfl

@[simp] theorem sealings_append (marks marks' : List Mark) :
    sealings (marks ++ marks') = sealings marks ++ sealings marks' := List.filterMap_append

structure Ground where
  system : System
  marks : List Mark
  deriving DecidableEq, Repr

def Ground.mark (g : Ground) (m : Mark) : Ground := { g with marks := g.marks ++ [m] }

@[simp] theorem Ground.system_mark (g : Ground) (m : Mark) : (g.mark m).system = g.system := rfl

/-- The process is gone, and with it what the loss takes from the disk. -/
def Ground.lose {sha : Bytes → Digest} (g : Ground) (loss : Loss sha) : Ground :=
  { g with system := { g.system with disk := g.system.disk.lose loss, core := none } }

section Port

variable (sha : Bytes → Digest) (book : BookFile)

/-- `Allocator::issue`. -/
def issue (fates : List (Allocator.Fate sha)) (s : System) : Option (Except IssueError Segment) × System :=
  match s.core with
  | none => (none, s)
  | some core =>
      match (core.issue sha).exec (media sha book) fates s.disk with
      | (.returned (.ok body, core'), disk) =>
          (some (.ok body),
            { s with
              disk, core := some core'
              delivered := s.delivered ++ [⟨core.current.next.get.toNat, body.val⟩] })
      | (.returned (.error e, core'), disk) => (some (.error e), { s with disk, core := some core' })
      | (.crashed, disk) => (none, { s with disk, core := none })
      | (.panicked, disk) => (none, { s with disk, core := none, panicked := true })

/-- The adversary's choice for one request. -/
structure Luck where
  /-- The process ends at the request, before it is answered. -/
  lost : Option (Loss sha)
  deadline : Except TransportError Unit
  sent : Except TransportError Unit
  received : Except TransportError Bytes
  sealed : Option (Bytes × Tag)
  opened : Option Bytes
  random : Option Nonce16
  issue : List (Allocator.Fate sha)

instance : Inhabited (Luck sha) :=
  ⟨⟨none, .ok (), .ok (), .error .closedByPeer, none, none, none, []⟩⟩

/-- What a process that lives has for a request. -/
def answer (luck : Luck sha) (g : Ground) : (op : HandshakeOp) → Option (HandshakeReply op) × Ground
  | .setDeadline _ => (some luck.deadline, g)
  | .state =>
      (g.system.core.map fun core => (core.current.next, core.current.generation), g)
  | .driver (.sendFrame _) => (some luck.sent, g)
  | .driver .recvFrame => (some luck.received, g)
  | .driver (.host (.encrypt key nonce aad plaintext)) =>
      (some (luck.sealed.map fun sealed => (fitted sealed.1 plaintext.length, sealed.2)),
        g.mark (.confirm (.encrypt key nonce aad plaintext)))
  | .driver (.host (.decrypt key nonce aad ciphertext tag)) =>
      (some luck.opened, g.mark (.confirm (.decrypt key nonce aad ciphertext tag)))
  | .driver (.host .csprng16) => (some luck.random, g)
  | .driver (.host .issue) =>
      ((issue sha book luck.issue g.system).1, { g with system := (issue sha book luck.issue g.system).2 })

def port : Device HandshakeOp HandshakeReply (Luck sha) Ground := fun op luck g =>
  match luck.lost with
  | some loss => (none, g.lose loss)
  | none => answer sha book luck g op

/-- What the state machines have for a host. -/
def host : Device HostOp HostReply (Luck sha) Ground := fun op => port sha book (.driver (.host op))

end Port

/-! ## One issue -/

section Issue

variable {sha : Bytes → Digest} {book : BookFile}

/-- The body of the book at an index. -/
def bodyAt (book : BookFile) (index : Nat) : Segment := book.body ⟨UInt64.ofNat index⟩

/-- How one `issue` on an open core ends. -/
inductive IssueLeaves (sha : Bytes → Digest) (book : BookFile) (s : System) (core : TransactionCore) :
    Option (Except IssueError Segment) → System → Prop
  /-- The body at the pointer, which moves past it. -/
  | gave {s' : System} {core' : TransactionCore} (opened : s'.core = some core')
      (next : core'.current.next.get.toNat = core.current.next.get.toNat + 1)
      (delivered : s'.delivered = s.delivered ++
        [⟨core.current.next.get.toNat, (bodyAt book core.current.next.get.toNat).val⟩]) :
      IssueLeaves sha book s core (some (.ok (bodyAt book core.current.next.get.toNat))) s'
  | failed {s' : System} {core' : TransactionCore} (e : IssueError) (opened : s'.core = some core')
      (delivered : s'.delivered = s.delivered) :
      IssueLeaves sha book s core (some (.error e)) s'
  | gone {s' : System} (delivered : s'.delivered = s.delivered) (closed : s'.core = none) :
      IssueLeaves sha book s core none s'

/-- `issue` is a step of the allocator's machine. -/
theorem issue_step (fates : List (Allocator.Fate sha)) (s : System) :
    (issue sha book fates s).2 = Allocator.step sha book (.call .issue fates) s := by
  cases opened : s.core with
  | none => simp only [issue, Allocator.step, opened]
  | some core =>
      simp only [issue, Allocator.step, opened, Allocator.Call.on]
      rw [map_eq_pure_bind, exec_bind_pure]
      rcases (core.issue sha).exec (media sha book) fates s.disk with ⟨⟨_ | body, core'⟩ | _ | _, disk⟩
      · rfl
      · rfl
      · rfl
      · rfl

theorem issue_steady {s : System} (steady : Steady sha book s) (fates : List (Allocator.Fate sha)) :
    Steady sha book (issue sha book fates s).2 := by
  rw [issue_step]
  exact Allocator.step_steady _ s steady

/-- **What one `issue` comes to.** -/
theorem issue_leaves {s : System} {core : TransactionCore} (steady : Steady sha book s)
    (opened : s.core = some core) (fates : List (Allocator.Fate sha)) :
    IssueLeaves sha book s core (issue sha book fates s).1 (issue sha book fates s).2 := by
  have current := steady.current core opened
  have sound : Sound sha (fun _ _ => True) s.disk := steady.sound.mono fun _ _ _ _ => trivial
  have calls := Allocator.wp_on current.on .issue sound (fun _ _ _ => ⟨trivial, trivial⟩)
    fun live copy older holds => current.newest live older ⟨copy, holds⟩
  have ends := exec_of_wp calls fates
  simp only [Allocator.Call.on] at ends
  rw [map_eq_pure_bind, exec_bind_pure] at ends
  simp only [issue, opened]
  revert ends
  rcases (core.issue sha).exec (media sha book) fates s.disk with ⟨⟨e | body, core'⟩ | _ | _, disk⟩
  · intro _
    exact .failed e rfl rfl
  · intro ends
    replace ends : Called sha (fun _ _ => True) book core .issue s.disk
        (.ok [⟨core.current.next.get.toNat, body.val⟩], core') disk := ends
    generalize same : ((.ok [⟨core.current.next.get.toNat, body.val⟩], core') :
      Except IssueError (List Delivery) × TransactionCore) = out at ends
    cases ends with
    | done live res written =>
        obtain ⟨first, rfl⟩ := Prod.mk.inj same
        have given : body = bodyAt book core.current.next.get.toNat := by
          have one := Except.ok.inj first
          simp only [Allocator.Call.width, BookFile.deliver] at one
          exact Subtype.ext (Delivery.mk.inj (List.cons.inj one).1).2
        rw [given]
        exact .gave rfl res.sum rfl
    | _ => cases same
  · intro _
    exact .gone rfl rfl
  · exact False.elim

end Issue

end Jbuu.Station
