/-
# Allocator.Runs — whole runs of the allocator: nothing delivered twice

The machine the allocator is: an anchor disk, the core if one is open, and, as ghosts,
the segments delivered so far and the records start-ups adopted. An event is a
start-up, a call on the open core, or a loss between calls, each with the fates of its
requests. A run is any list of events from a valid INIT pair.

`Steady` is the invariant of all runs: every record either copy may hold tells the
truth about the book and points past all that was delivered, any two of them are an
older and a newer record of one pointer, and a live core is at least as new as all of
them. `no_segment_delivered_twice` reads it off.
-/
import Jbuu.Library.Runs
import Jbuu.Allocator.Failures

namespace Jbuu.Allocator

set_option autoImplicit false

open Jbuu.Library.BigEndian (Bytes)
open Jbuu.Library
open Jbuu.Library.Program (exec_of_wp)

structure System where
  disk : Disk
  core : Option TransactionCore
  delivered : List Delivery
  adopted : List AnchorRecord
  panicked : Bool
  deriving DecidableEq, Repr

inductive Event (sha : Bytes → Digest) where
  | open (fates : List (Fate sha))
  | call (call : Call) (fates : List (Fate sha))
  | lose (loss : Loss sha)

section Machine

variable (sha : Bytes → Digest) (book : BookFile)

def initial : System where
  disk :=
    { a := { durable := encodeRecord sha (.init book.bookId), unsynced := [] }
      b := { durable := encodeRecord sha (.init book.bookId), unsynced := [] } }
  core := none
  delivered := []
  adopted := []
  panicked := false

def step : Event sha → System → System
  | .open fates, s =>
      match (TransactionCore.open sha book.segmentCount book.bookId).run.exec (media sha book)
          fates s.disk with
      | (.returned (.ok core), disk) =>
          { s with disk, core := some core, adopted := s.adopted ++ [core.current] }
      | (.returned (.error _), disk) => { s with disk, core := none }
      | (.crashed, disk) => { s with disk, core := none }
      | (.panicked, disk) => { s with disk, core := none, panicked := true }
  | .call call fates, s =>
      match s.core with
      | none => s
      | some core =>
          match (call.on sha core).exec (media sha book) fates s.disk with
          | (.returned (.ok deliveries, core), disk) =>
              { s with disk, core := some core, delivered := s.delivered ++ deliveries }
          | (.returned (.error _, core), disk) => { s with disk, core := some core }
          | (.crashed, disk) => { s with disk, core := none }
          | (.panicked, disk) => { s with disk, core := none, panicked := true }
  | .lose loss, s => { s with disk := s.disk.lose loss, core := none }

end Machine

/-! ## The invariant -/

section Invariant

variable {sha : Bytes → Digest} {book : BookFile}

/-- The record points past everything delivered. -/
def Past (delivered : List Delivery) (r : AnchorRecord) : Prop :=
  ∀ d ∈ delivered, d.index < r.next.get.toNat

/-- One of the copies may turn out to hold the record. -/
def Disk.Holds (sha : Bytes → Digest) (d : Disk) (r : AnchorRecord) : Prop :=
  ∃ copy, (d.get copy).Holds sha r

/-- Any two records the disk may hold are an older and a newer one of one pointer. -/
def Lineage (sha : Bytes → Digest) (d : Disk) : Prop :=
  ∀ r r', d.Holds sha r → d.Holds sha r' → r.LeadsTo r' ∨ r'.LeadsTo r

/-- What `delivered` may contain. -/
structure Delivered (book : BookFile) (delivered : List Delivery) : Prop where
  ordered : delivered.Pairwise fun earlier later => earlier.index < later.index
  inside : ∀ d ∈ delivered, d.index < book.segmentCount.toNat
  body : ∀ d ∈ delivered, d.body = (book.body ⟨UInt64.ofNat d.index⟩).val

/-- What holds of an open core. -/
structure Current (sha : Bytes → Digest) (book : BookFile) (s : System) (core : TransactionCore) :
    Prop where
  on : core.On sha book
  past : Past s.delivered core.current
  newest : core.halted = false → ∀ r, s.disk.Holds sha r → r.LeadsTo core.current

structure Steady (sha : Bytes → Digest) (book : BookFile) (s : System) : Prop where
  calm : s.panicked = false
  delivered : Delivered book s.delivered
  lineage : Lineage sha s.disk
  sound : Sound sha (fun _ r => Genuine sha book r ∧ Past s.delivered r) s.disk
  current : ∀ core, s.core = some core → Current sha book s core

theorem canonical_init (bookId : BookId) : (AnchorRecord.init bookId).Canonical := ⟨rfl, rfl⟩

theorem genuine_init : Genuine sha book (.init book.bookId) where
  canonical := canonical_init _
  bookId := rfl
  inside := Nat.zero_le _
  generation := le_rfl
  hash := nofun

theorem written_initial : Written sha (.init book.bookId) (initial sha book).disk := by
  intro copy
  cases copy <;> rfl

/-- A disk that holds one record. -/
theorem Written.holds_iff {record r : AnchorRecord} {d : Disk} (written : Written sha record d)
    (canonical : record.Canonical) : d.Holds sha r ↔ r = record := by
  constructor
  · rintro ⟨copy, holds⟩
    exact ((written copy).holds canonical).mp holds
  · rintro rfl
    exact ⟨.a, ((written .a).holds canonical).mpr rfl⟩

theorem Written.lineage {record : AnchorRecord} {d : Disk} (written : Written sha record d)
    (canonical : record.Canonical) : Lineage sha d := by
  intro r r' holds holds'
  rw [(written.holds_iff canonical).mp holds, (written.holds_iff canonical).mp holds']
  exact .inl (.refl record)

theorem steady_initial : Steady sha book (initial sha book) where
  calm := rfl
  delivered := ⟨.nil, nofun, nofun⟩
  lineage := written_initial.lineage (canonical_init _)
  sound := written_initial.sound (canonical_init _) fun _ => ⟨genuine_init, nofun⟩
  current := nofun

theorem Lineage.of_holds {d d' : Disk} (lineage : Lineage sha d)
    (kept : ∀ r, d'.Holds sha r → d.Holds sha r) : Lineage sha d' :=
  fun r r' holds holds' => lineage r r' (kept r holds) (kept r' holds')

/-! ### A call -/

/-- The true bodies of a range that starts past all that was delivered. -/
theorem Delivered.append {delivered : List Delivery} {base n : Nat}
    (ok : Delivered book delivered) (past : ∀ d ∈ delivered, d.index < base)
    (fits : base + n ≤ book.segmentCount.toNat) : Delivered book (delivered ++ book.deliver base n) where
  ordered := by
    refine List.pairwise_append.mpr ⟨ok.ordered, ?_, ?_⟩
    · refine List.pairwise_map.mpr (List.pairwise_lt_range.imp ?_)
      intro i j lt
      simpa using lt
    · intro d mem e new
      obtain ⟨j, _, rfl⟩ := List.mem_map.mp new
      exact Nat.lt_add_right j (past d mem)
  inside := by
    intro d mem
    rcases List.mem_append.mp mem with old | new
    · exact ok.inside d old
    · obtain ⟨j, below, rfl⟩ := List.mem_map.mp new
      have := List.mem_range.mp below
      simp only
      omega
  body := by
    intro d mem
    rcases List.mem_append.mp mem with old | new
    · exact ok.body d old
    · obtain ⟨j, _, rfl⟩ := List.mem_map.mp new
      rfl

theorem past_deliver {delivered : List Delivery} {base n : Nat} {r : AnchorRecord}
    (past : Past delivered r) (beyond : base + n ≤ r.next.get.toNat) :
    Past (delivered ++ book.deliver base n) r := by
  intro d mem
  rcases List.mem_append.mp mem with old | new
  · exact past d old
  · obtain ⟨j, below, rfl⟩ := List.mem_map.mp new
    have := List.mem_range.mp below
    simp only
    omega

theorem Past.leadsTo {delivered : List Delivery} {r r' : AnchorRecord} (past : Past delivered r)
    (leads : r.LeadsTo r') : Past delivered r' :=
  fun d mem => (past d mem).trans_le leads.next_le

/-- What a call does to the disk, over and above the invariant: `X` is any further
property of the records of each copy that the new records have too. -/
inductive CallLeaves (sha : Bytes → Digest) (X : AnchorCopy → AnchorRecord → Prop) (s : System)
    (core : TransactionCore) (call : Call) (s' : System) : Prop
  | refused (same : s' = s)
  /-- Both copies and the core are at one record, at the end of the range. -/
  | written (live : core.halted = false) (r : AnchorRecord) (core' : TransactionCore)
      (written : Written sha r s'.disk) (canonical : r.Canonical) (open_ : s'.core = some core') (at_ : core'.current = r)
      (leads : core.current.LeadsTo r)
      (next : r.next.get.toNat = core.current.next.get.toNat + call.width.toNat)
  | dead (within : Within sha X s'.disk) (dead : ∀ core', s'.core = some core' → core'.halted = true)

/-- Records on the disk before the call, and the two the call may write. -/
def Involved (sha : Bytes → Digest) (book : BookFile) (d : Disk) (core : TransactionCore) (call : Call)
    (r : AnchorRecord) : Prop :=
  d.Holds sha r ∨ core.halted = false ∧
    ∃ res : Reservation book core call.width, r = res.intent ∨ r = res.commit sha

theorem Involved.comparable {s : System} {core : TransactionCore} {call : Call}
    {r r' : AnchorRecord} (lineage : Lineage sha s.disk) (current : Current sha book s core)
    (here : Involved sha book s.disk core call r)
    (there : Involved sha book s.disk core call r') : r.LeadsTo r' ∨ r'.LeadsTo r := by
  have held {r r' : AnchorRecord} (live : core.halted = false) (holds : s.disk.Holds sha r)
      (res : Reservation book core call.width) (new : r' = res.intent ∨ r' = res.commit sha) :
      r.LeadsTo r' := by
    have reaches := (current.newest live r holds).trans res.leadsTo_intent
    rcases new with rfl | rfl
    · exact reaches
    · exact reaches.trans res.intent_leadsTo_commit
  rcases here with here | ⟨live, res, here⟩ <;> rcases there with there | ⟨live', res', there⟩
  · exact lineage r r' here there
  · exact .inl (held live' here res' there)
  · exact .inr (held live there res here)
  · rw [Reservation.eq_of res' res] at there
    rcases here with rfl | rfl <;> rcases there with rfl | rfl
    · exact .inl (.refl _)
    · exact .inl res.intent_leadsTo_commit
    · exact .inr res.intent_leadsTo_commit
    · exact .inl (.refl _)

/-- The state after a call that left both copies and the core at one record. -/
theorem steady_written {s : System} {core : TransactionCore} {delivered : List Delivery}
    {d : Disk} {r : AnchorRecord} (steady : Steady sha book s) (on : core.On sha book)
    (ok : Delivered book delivered) (written : Written sha r d) (genuine : Genuine sha book r)
    (past : Past delivered r) :
    Steady sha book
      { s with disk := d, core := some { core with current := r }, delivered := delivered } where
  calm := steady.calm
  delivered := ok
  lineage := written.lineage genuine.canonical
  sound := written.sound genuine.canonical fun _ => ⟨genuine, past⟩
  current := by
    rintro _ ⟨⟩
    refine ⟨⟨on.bookId, on.segmentCount, genuine⟩, past, fun _ older holds => ?_⟩
    rw [(written.holds_iff genuine.canonical).mp holds]
    exact .refl r

theorem step_call {s : System} {core : TransactionCore} (steady : Steady sha book s)
    (opened : s.core = some core) (call : Call) (fates : List (Fate sha))
    {X : AnchorCopy → AnchorRecord → Prop} (within : Within sha X s.disk)
    (allowed : ∀ res : Reservation book core call.width, core.halted = false →
      ∀ copy, X copy res.intent ∧ X copy (res.commit sha)) :
    Steady sha book (step sha book (.call call fates) s) ∧
      CallLeaves sha X s core call (step sha book (.call call fates) s) ∧
      (step sha book (.call call fates) s).adopted = s.adopted := by
  have current := steady.current core opened
  let p : AnchorCopy → AnchorRecord → Prop := fun copy r =>
    (Genuine sha book r ∧ Past s.delivered r) ∧
      Involved sha book s.disk core call r ∧ X copy r
  have sound : Sound sha p s.disk := steady.sound.mono fun copy r holds true_ =>
    ⟨true_, .inl ⟨copy, holds⟩, within copy r holds⟩
  have new (res : Reservation book core call.width) (live : core.halted = false)
      (copy : AnchorCopy) : p copy res.intent ∧ p copy (res.commit sha) := by
    have past := current.past.leadsTo res.leadsTo_intent
    exact ⟨⟨⟨res.genuine_intent current.on, past⟩, .inr ⟨live, res, .inl rfl⟩,
        (allowed res live copy).1⟩,
      ⟨⟨res.genuine_commit current.on, past.leadsTo res.intent_leadsTo_commit⟩,
        .inr ⟨live, res, .inr rfl⟩, (allowed res live copy).2⟩⟩
  -- What a disk that is sound for `p` says of the next state, whatever became of the core.
  have lineageOf {d : Disk} (sound : Sound sha p d) : Lineage sha d := by
    rintro r r' ⟨copy, holds⟩ ⟨copy', holds'⟩
    exact Involved.comparable steady.lineage current (sound.within copy r holds).2.1
      (sound.within copy' r' holds').2.1
  have trueOf {d : Disk} (sound : Sound sha p d) :
      Sound sha (fun _ r => Genuine sha book r ∧ Past s.delivered r) d :=
    sound.mono fun _ _ _ allowed => allowed.1
  have withinOf {d : Disk} (sound : Sound sha p d) : Within sha X d :=
    fun copy r holds => (sound.within copy r holds).2.2
  have ends := exec_of_wp (wp_on current.on call sound new fun live copy older holds =>
    current.newest live older ⟨copy, holds⟩) fates
  simp only [step, opened]
  revert ends
  rcases (call.on sha core).exec (media sha book) fates s.disk with ⟨⟨r, core'⟩ | _ | _, d⟩
  · rintro (⟨refused⟩ | ⟨live, res, written⟩ | ⟨live, res, written⟩ | ⟨live, res, sound'⟩)
    · have same : ({ s with disk := s.disk, core := some core } : System) = s := by
        rw [← opened]
      dsimp only
      rw [same]
      exact ⟨steady, .refused rfl, rfl⟩
    · have fits : core.current.next.get.toNat + call.width.toNat ≤ book.segmentCount.toNat :=
        res.sum ▸ res.fits
      have beyond : Past s.delivered (res.commit sha) :=
        (current.past.leadsTo res.leadsTo_intent).leadsTo res.intent_leadsTo_commit
      refine ⟨steady_written steady current.on (steady.delivered.append current.past fits) written
        (res.genuine_commit current.on) (past_deliver beyond res.sum.ge), ?_, rfl⟩
      exact .written live _ _ written (res.genuine_commit current.on).canonical rfl rfl
        (res.leadsTo_intent.trans res.intent_leadsTo_commit) res.sum
    · refine ⟨steady_written steady current.on steady.delivered written
        (res.genuine_intent current.on) (current.past.leadsTo res.leadsTo_intent), ?_, rfl⟩
      exact .written live _ _ written (res.genuine_intent current.on).canonical rfl rfl
        res.leadsTo_intent res.sum
    · refine ⟨⟨steady.calm, steady.delivered, lineageOf sound', trueOf sound', ?_⟩, ?_, rfl⟩
      · rintro _ ⟨⟩
        exact ⟨⟨current.on.bookId, current.on.segmentCount, res.genuine_intent current.on⟩,
          current.past.leadsTo res.leadsTo_intent, nofun⟩
      · refine .dead (withinOf sound') ?_
        rintro _ ⟨⟩
        rfl
  · intro sound'
    exact ⟨⟨steady.calm, steady.delivered, lineageOf sound', trueOf sound', nofun⟩,
      .dead (withinOf sound') nofun, rfl⟩
  · exact False.elim

/-! ### A start-up -/

/-- A property of records that a repair keeps. -/
def Repairs (X : AnchorCopy → AnchorRecord → Prop) : Prop :=
  ∀ copy older newer, X copy older → X copy.other newer → older.LeadsTo newer → X copy newer

/-- What a start-up does, over and above the invariant. -/
inductive OpenLeaves (sha : Bytes → Digest) (s s' : System) : Prop
  | refused (none_ : s'.core = none) (same : s'.adopted = s.adopted)
  | adopted (core : TransactionCore) (opened : s'.core = some core) (live : core.halted = false)
      (adds : s'.adopted = s.adopted ++ [core.current])
      (reads : ∀ copy, decodeAndVerify sha (s'.disk.get copy).cached = .ok core.current)
      (newest : ∀ copy, ∃ older, decodeAndVerify sha (s.disk.get copy).cached = .ok older ∧
        older.LeadsTo core.current)

theorem step_open {s : System} (steady : Steady sha book s) (fates : List (Fate sha))
    {X : AnchorCopy → AnchorRecord → Prop} (within : Within sha X s.disk) (repairs : Repairs X) :
    Steady sha book (step sha book (.open fates) s) ∧
      Within sha X (step sha book (.open fates) s).disk ∧
      OpenLeaves sha s (step sha book (.open fates) s) := by
  let p : AnchorCopy → AnchorRecord → Prop := fun copy r =>
    (Genuine sha book r ∧ Past s.delivered r) ∧ s.disk.Holds sha r ∧ X copy r
  have sound : Sound sha p s.disk := steady.sound.mono fun copy r holds true_ =>
    ⟨true_, ⟨copy, holds⟩, within copy r holds⟩
  have lineageOf {d : Disk} (sound : Sound sha p d) : Lineage sha d :=
    steady.lineage.of_holds fun r ⟨copy, holds⟩ => (sound.within copy r holds).2.1
  have trueOf {d : Disk} (sound : Sound sha p d) :
      Sound sha (fun _ r => Genuine sha book r ∧ Past s.delivered r) d :=
    sound.mono fun _ _ _ allowed => allowed.1
  have withinOf {d : Disk} (sound : Sound sha p d) : Within sha X d :=
    fun copy r holds => (sound.within copy r holds).2.2
  have opens : (TransactionCore.open sha book.segmentCount book.bookId).run.wp (media sha book)
      (Opened sha p book s.disk) (Sound sha p) s.disk :=
    wp_open sound fun copy older newer old new leads =>
      ⟨new.1, new.2.1, repairs copy older newer old.2.2 new.2.2 leads⟩
  have ends := exec_of_wp opens fates
  simp only [step]
  revert ends
  rcases (TransactionCore.open sha book.segmentCount book.bookId).run.exec (media sha book) fates
    s.disk with ⟨r | _ | _, d⟩
  · rintro (sound' | ⟨sound', reads, newest⟩)
    · exact ⟨⟨steady.calm, steady.delivered, lineageOf sound', trueOf sound', nofun⟩,
        withinOf sound', .refused rfl rfl⟩
    · rename_i record
      have holds := CopyState.holds_cached (reads .a)
      refine ⟨⟨steady.calm, steady.delivered, lineageOf sound', trueOf sound', ?_⟩,
        withinOf sound', .adopted _ rfl rfl rfl reads newest⟩
      rintro _ ⟨⟩
      obtain ⟨⟨genuine, past⟩, _⟩ := sound'.within .a record holds
      exact ⟨⟨rfl, rfl, genuine⟩, past, fun _ r ⟨copy, holds⟩ =>
        sound'.newest copy record (reads copy) r holds⟩
  · intro sound'
    exact ⟨⟨steady.calm, steady.delivered, lineageOf sound', trueOf sound', nofun⟩,
      withinOf sound', .refused rfl rfl⟩
  · exact False.elim

/-! ### A loss -/

theorem step_lose {s : System} (steady : Steady sha book s) (loss : Loss sha)
    {X : AnchorCopy → AnchorRecord → Prop} (within : Within sha X s.disk) :
    Steady sha book (step sha book (.lose loss) s) ∧
      Within sha X (step sha book (.lose loss) s).disk := by
  have kept : ∀ copy r, ((s.disk.lose loss).get copy).Holds sha r → s.disk.Holds sha r :=
    lose_within fun copy r holds => ⟨copy, holds⟩
  exact ⟨⟨steady.calm, steady.delivered, steady.lineage.of_holds fun r ⟨copy, holds⟩ =>
    kept copy r holds, steady.sound.lose loss, nofun⟩, lose_within within⟩

/-! ### Runs -/

theorem step_steady (event : Event sha) (s : System) (steady : Steady sha book s) :
    Steady sha book (step sha book event s) := by
  have anything : Within sha (fun _ _ => True) s.disk := fun _ _ _ => trivial
  cases event with
  | «open» fates => exact (step_open steady fates anything fun _ _ _ _ _ _ => trivial).1
  | call call fates =>
      cases opened : s.core with
      | none => simpa only [step, opened] using steady
      | some core =>
          exact (step_call steady opened call fates anything fun _ _ _ => ⟨trivial, trivial⟩).1
  | lose loss => exact (step_lose steady loss anything).1

theorem run_steady (events : List (Event sha)) :
    Steady sha book (run (step sha book) events (initial sha book)) :=
  run_invariant _ step_steady events steady_initial

end Invariant

/-- **No segment is delivered twice.** In every run from a valid INIT pair, whatever
fails, tears or crashes, the delivered indices strictly increase, each body is the
book's body at its index, and no call panics. -/
theorem no_segment_delivered_twice (sha : Bytes → Digest) (book : BookFile)
    (events : List (Event sha)) :
    let s := run (step sha book) events (initial sha book)
    s.panicked = false ∧
      (s.delivered.Pairwise fun earlier later => earlier.index < later.index) ∧
      ∀ d ∈ s.delivered, d.index < book.segmentCount.toNat ∧
        d.body = (book.body ⟨UInt64.ofNat d.index⟩).val := by
  have steady : Steady sha book (run (step sha book) events (initial sha book)) :=
    run_steady events
  exact ⟨steady.calm, steady.delivered.ordered, fun d mem =>
    ⟨steady.delivered.inside d mem, steady.delivered.body d mem⟩⟩

end Jbuu.Allocator
