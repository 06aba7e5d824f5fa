/-
# Allocator.Atomicity — a reservation is all or nothing, and the pointer keeps its floor

What a start-up adopts after a call that failed or crashed anywhere: the pointer from
before the call or the one past its range, never lower than what was adopted before.
The argument is one copy. A *floor* is held by a copy when every record that copy may
hold is at or above it; a live core's record is a floor some copy holds (`HeldFloor`),
a call adds only records above it, and a repair only raises the copy it writes.

A start-up that finds two equal copies adopts them without a sync. When neither had
been synced, no copy holds the record it adopted: `adopted_pointer_moves_back` is a run
in which a power loss then takes the pointer back below it. `OpensHeld` excludes that
start-up, and `reservation_is_atomic` is what holds of every run without it.
-/
import Jbuu.Allocator.Runs

namespace Jbuu.Allocator

set_option autoImplicit false

open Jbuu.Library.BigEndian (Bytes)
open Jbuu.Library

section Floors

variable {sha : Bytes → Digest} {book : BookFile}

/-- `r` is no lower than `floor`, in pointer and in generation. -/
def NotLower (floor r : AnchorRecord) : Prop :=
  floor.next.get.toNat ≤ r.next.get.toNat ∧ floor.generation.get.toNat ≤ r.generation.get.toNat

theorem NotLower.refl (r : AnchorRecord) : NotLower r r := ⟨le_rfl, le_rfl⟩

theorem NotLower.leadsTo {floor r r' : AnchorRecord} (above : NotLower floor r)
    (leads : r.LeadsTo r') : NotLower floor r' :=
  ⟨above.1.trans leads.next_le, above.2.trans leads.generation_le⟩

/-- In the copy `held`, every record is no lower than any of `floors`. -/
def Floor (held : AnchorCopy) (floors : List AnchorRecord) (copy : AnchorCopy) (r : AnchorRecord) :
    Prop :=
  copy = held → ∀ floor ∈ floors, NotLower floor r

theorem Floor.repairs (held : AnchorCopy) (floors : List AnchorRecord) :
    Repairs (Floor held floors) :=
  fun _ _ _ old _ leads same floor mem => (old same floor mem).leadsTo leads

/-- The record of a core that is not halted. -/
def System.live (s : System) : List AnchorRecord :=
  match s.core with
  | some core => if core.halted then [] else [core.current]
  | none => []

theorem System.live_of_core {s : System} {core : TransactionCore} (opened : s.core = some core)
    (live : core.halted = false) : s.live = [core.current] := by
  simp [System.live, opened, live]

theorem System.live_of_dead {s : System} (dead : ∀ core, s.core = some core → core.halted = true) :
    s.live = [] := by
  unfold System.live
  cases opened : s.core with
  | none => rfl
  | some core => simp [dead core opened]

/-- Some copy holds all that was adopted and the live record as a floor, and the pointer
has never been adopted lower than before. -/
structure HeldFloor (sha : Bytes → Digest) (s : System) : Prop where
  held : ∃ copy, Within sha (Floor copy (s.adopted ++ s.live)) s.disk
  rising : s.adopted.Pairwise NotLower
  below : ∀ floor ∈ s.adopted, ∀ r ∈ s.live, NotLower floor r

/-- Every start-up of the run that succeeds leaves a copy with nothing unsynced. -/
def OpensHeld (sha : Bytes → Digest) (book : BookFile) (s : System) : Event sha → Prop
  | .open fates =>
      (step sha book (.open fates) s).core ≠ none →
        (step sha book (.open fates) s).disk.a.unsynced = [] ∨
          (step sha book (.open fates) s).disk.b.unsynced = []
  | .call _ _ => True
  | .lose _ => True

theorem floor_of_mem {held : AnchorCopy} {floors floors' : List AnchorRecord} {d : Disk}
    (within : Within sha (Floor held floors) d) (sub : ∀ r ∈ floors', r ∈ floors) :
    Within sha (Floor held floors') d :=
  fun copy r holds same floor mem => within copy r holds same floor (sub floor mem)

theorem heldFloor_initial : HeldFloor sha (initial sha book) :=
  ⟨⟨.a, fun _ _ _ _ => nofun⟩, .nil, nofun⟩

/-- The records a call writes are no lower than a floor of the live core. -/
theorem floor_reservation {core : TransactionCore} {call : Call} {held copy : AnchorCopy}
    {floors : List AnchorRecord} (below : ∀ floor ∈ floors, NotLower floor core.current)
    (res : Reservation book core call.width) :
    Floor held floors copy res.intent ∧ Floor held floors copy (res.commit sha) :=
  ⟨fun _ floor mem => (below floor mem).leadsTo res.leadsTo_intent,
    fun _ floor mem => ((below floor mem).leadsTo res.leadsTo_intent).leadsTo
      res.intent_leadsTo_commit⟩

theorem HeldFloor.below_current {s : System} {core : TransactionCore} (floor : HeldFloor sha s)
    (opened : s.core = some core) (live : core.halted = false) :
    ∀ r ∈ s.adopted ++ s.live, NotLower r core.current := by
  have here := System.live_of_core opened live
  intro r mem
  rcases List.mem_append.mp mem with old | now
  · exact floor.below r old core.current (by simp [here])
  · rw [here, List.mem_singleton] at now
    rw [now]
    exact .refl _

theorem call_heldFloor {s : System} {core : TransactionCore} (steady : Steady sha book s)
    (floor : HeldFloor sha s) (opened : s.core = some core) (call : Call)
    (fates : List (Fate sha)) : HeldFloor sha (step sha book (.call call fates) s) := by
  obtain ⟨held, within⟩ := floor.held
  obtain ⟨_, leaves, same⟩ := step_call steady opened call fates within fun res live copy =>
    floor_reservation (floor.below_current opened live) res
  cases leaves with
  | refused unchanged =>
      rw [unchanged]
      exact floor
  | written live r core' written canonical opened' at_ leads next =>
      have reached : ∀ floor ∈ s.adopted, NotLower floor r := fun floor' mem =>
        (floor.below_current opened live floor' (List.mem_append_left _ mem)).leadsTo leads
      have now : ∀ floor ∈ (step sha book (.call call fates) s).live, floor = r := by
        intro floor' mem
        simp only [System.live, opened', at_] at mem
        split at mem
        · cases mem
        · exact List.mem_singleton.mp mem
      refine ⟨⟨.a, fun copy r' holds _ floor' mem => ?_⟩, ?_, ?_⟩
      · rw [((written copy).holds canonical).mp holds]
        rcases List.mem_append.mp mem with old | new
        · exact reached floor' (same ▸ old)
        · exact now floor' new ▸ .refl r
      · rw [same]
        exact floor.rising
      · intro floor' mem r' mem'
        rw [now r' mem']
        exact reached floor' (same ▸ mem)
  | dead within dead =>
      have none_ := System.live_of_dead dead
      refine ⟨⟨held, ?_⟩, ?_, ?_⟩
      · rw [none_, same]
        exact floor_of_mem within fun r mem =>
          List.mem_append_left _ (List.append_nil s.adopted ▸ mem)
      · rw [same]
        exact floor.rising
      · rw [none_]
        exact fun _ _ => nofun

theorem open_heldFloor {s : System} (steady : Steady sha book s) (floor : HeldFloor sha s)
    (fates : List (Fate sha)) (ok : OpensHeld sha book s (.open fates)) :
    HeldFloor sha (step sha book (.open fates) s) := by
  obtain ⟨held, within⟩ := floor.held
  obtain ⟨_, within', leaves⟩ := step_open steady fates within (Floor.repairs held _)
  cases leaves with
  | refused none_ same =>
      have dead : (step sha book (.open fates) s).live = [] :=
        System.live_of_dead (by simp [none_])
      refine ⟨⟨held, ?_⟩, ?_, ?_⟩
      · rw [dead, same]
        exact floor_of_mem within' fun r mem =>
          List.mem_append_left _ (List.append_nil s.adopted ▸ mem)
      · rw [same]
        exact floor.rising
      · rw [dead]
        exact fun _ _ => nofun
  | adopted core opened live adds reads newest =>
      have here := System.live_of_core opened live
      -- The copy that held the floor read at or above it, and what is adopted is newer.
      have reached : ∀ floor ∈ s.adopted, NotLower floor core.current := by
        intro floor' mem
        obtain ⟨older, readsOlder, leads⟩ := newest held
        have holds := CopyState.holds_cached readsOlder
        exact (within held older holds rfl floor' (List.mem_append_left _ mem)).leadsTo leads
      have all : ∀ floor ∈ s.adopted ++ [core.current] ++ [core.current],
          NotLower floor core.current := by
        intro floor' mem
        simp only [List.append_assoc, List.mem_append, List.mem_singleton, or_self] at mem
        rcases mem with old | rfl
        · exact reached floor' old
        · exact .refl _
      -- The synced copy can hold nothing but the adopted record.
      have holdsOnly (copy : AnchorCopy)
          (synced : ((step sha book (.open fates) s).disk.get copy).unsynced = []) :
          Within sha (Floor copy ((step sha book (.open fates) s).adopted ++
            (step sha book (.open fates) s).live)) (step sha book (.open fates) s).disk := by
        rintro _ r ⟨bytes, mem, readsR⟩ rfl floor' mem'
        rw [CopyState.contents_of_synced synced, List.mem_singleton] at mem
        rw [mem, reads] at readsR
        cases readsR
        rw [adds, here] at mem'
        exact all floor' mem'
      refine ⟨?_, ?_, ?_⟩
      · rcases ok (by simp [opened]) with synced | synced
        · exact ⟨.a, holdsOnly .a synced⟩
        · exact ⟨.b, holdsOnly .b synced⟩
      · rw [adds]
        refine List.pairwise_append.mpr ⟨floor.rising, List.pairwise_singleton _ _, ?_⟩
        intro floor' mem r mem'
        rw [List.mem_singleton.mp mem']
        exact reached floor' mem
      · rw [adds, here]
        intro floor' mem r mem'
        rw [List.mem_singleton.mp mem']
        exact all floor' (List.mem_append_left _ mem)

theorem lose_heldFloor {s : System} (steady : Steady sha book s) (floor : HeldFloor sha s)
    (loss : Loss sha) : HeldFloor sha (step sha book (.lose loss) s) := by
  obtain ⟨held, within⟩ := floor.held
  have dead : (step sha book (.lose loss) s).live = [] := System.live_of_dead (by simp [step])
  refine ⟨⟨held, ?_⟩, floor.rising, ?_⟩
  · rw [dead]
    exact floor_of_mem (step_lose steady loss within).2 fun r mem =>
      List.mem_append_left _ (List.append_nil s.adopted ▸ mem)
  · rw [dead]
    rintro _ _ _ ⟨⟩

theorem run_heldFloor (events : List (Event sha))
    (along : Along (step sha book) (OpensHeld sha book) events (initial sha book)) :
    Steady sha book (run (step sha book) events (initial sha book)) ∧
      HeldFloor sha (run (step sha book) events (initial sha book)) := by
  have preserved : ∀ event s, OpensHeld sha book s event →
      Steady sha book s ∧ HeldFloor sha s →
        Steady sha book (step sha book event s) ∧ HeldFloor sha (step sha book event s) := ?_
  · exact run_invariant_along (step sha book) preserved events along
      ⟨steady_initial, heldFloor_initial⟩
  rintro event s ok ⟨steady, floor⟩
  refine ⟨step_steady event s steady, ?_⟩
  cases event with
  | «open» fates => exact open_heldFloor steady floor fates ok
  | call call fates =>
      cases opened : s.core with
      | none => simpa only [step, opened] using floor
      | some core => exact call_heldFloor steady floor opened call fates
  | lose loss => exact lose_heldFloor steady floor loss

/-! ## What follows a call -/

/-- The records of a disk between a call and the next one: at the pointer before the call
or lower, or past the whole range; and in the copy that holds the floor, none lower. -/
def Bracket (base width : Nat) (held : AnchorCopy) (floors : List AnchorRecord)
    (copy : AnchorCopy) (r : AnchorRecord) : Prop :=
  (r.next.get.toNat ≤ base ∨ r.next.get.toNat = base + width) ∧
    (copy = held → base ≤ r.next.get.toNat) ∧ Floor held floors copy r

theorem Bracket.repairs (base width : Nat) (held : AnchorCopy) (floors : List AnchorRecord) :
    Repairs (Bracket base width held floors) :=
  fun copy older newer old new leads =>
    ⟨new.1, fun same => (old.2.1 same).trans leads.next_le,
      Floor.repairs held floors copy older newer old.2.2 new.2.2 leads⟩

/-- An event that is not a call. -/
def Event.Recovers : Event sha → Prop
  | .open _ => True
  | .call _ _ => False
  | .lose _ => True

theorem recovers_within {X : AnchorCopy → AnchorRecord → Prop} (repairs : Repairs X)
    (between : List (Event sha)) (recovers : ∀ event ∈ between, event.Recovers) {s : System}
    (steady : Steady sha book s) (within : Within sha X s.disk) :
    Steady sha book (run (step sha book) between s) ∧
      Within sha X (run (step sha book) between s).disk := by
  induction between generalizing s with
  | nil => exact ⟨steady, within⟩
  | cons event rest ih =>
      have later := fun event mem => recovers event (List.mem_cons_of_mem _ mem)
      have now := recovers event List.mem_cons_self
      cases event with
      | «open» fates =>
          obtain ⟨steady, within, _⟩ := step_open steady fates within repairs
          exact ih later steady within
      | call call fates => exact False.elim now
      | lose loss =>
          obtain ⟨steady, within⟩ := step_lose steady loss within
          exact ih later steady within

theorem call_bracket {s : System} {core : TransactionCore} (steady : Steady sha book s)
    {held : AnchorCopy} (floor : HeldFloor sha s)
    (within : Within sha (Floor held (s.adopted ++ s.live)) s.disk) (opened : s.core = some core)
    (live : core.halted = false) (call : Call) (fates : List (Fate sha)) :
    Within sha (Bracket core.current.next.get.toNat call.width.toNat held s.adopted)
      (step sha book (.call call fates) s).disk := by
  have below := floor.below_current opened live
  have here := System.live_of_core opened live
  have start : Within sha (Bracket core.current.next.get.toNat call.width.toNat held s.adopted)
      s.disk := by
    intro copy r holds
    refine ⟨.inl ((steady.current core opened).newest live r ⟨copy, holds⟩).next_le, ?_, ?_⟩
    · intro same
      exact (within copy r holds same core.current (by simp [here])).1
    · exact fun same floor mem => within copy r holds same floor (List.mem_append_left _ mem)
  -- A record past the whole range is inside the bracket in either copy.
  have past {r : AnchorRecord} (copy : AnchorCopy) (leads : core.current.LeadsTo r)
      (next : r.next.get.toNat = core.current.next.get.toNat + call.width.toNat) :
      Bracket core.current.next.get.toNat call.width.toNat held s.adopted copy r :=
    ⟨.inr next, fun _ => leads.next_le, fun _ floor mem =>
      (below floor (List.mem_append_left _ mem)).leadsTo leads⟩
  obtain ⟨_, leaves, _⟩ := step_call steady opened call fates start fun res _ copy =>
    ⟨past copy res.leadsTo_intent res.sum,
      past copy (res.leadsTo_intent.trans res.intent_leadsTo_commit) res.sum⟩
  cases leaves with
  | refused same =>
      rw [same]
      exact start
  | written _ r core' written canonical _ _ leads next =>
      intro copy r' holds
      rw [((written copy).holds canonical).mp holds]
      exact past copy leads next
  | dead within _ => exact within

/-- A start-up on two copies that verify, with nothing failing, adopts inside the bracket. -/
theorem open_adopts {s : System} {base width : Nat} {held : AnchorCopy}
    {floors : List AnchorRecord} (steady : Steady sha book s)
    (within : Within sha (Bracket base width held floors) s.disk)
    (verify : ∀ copy, ∃ r, decodeAndVerify sha (s.disk.get copy).cached = .ok r) :
    ∃ core, (step sha book (.open []) s).core = some core ∧
      (core.current.next.get.toNat = base ∨ core.current.next.get.toNat = base + width) ∧
      ∀ floor ∈ floors, NotLower floor core.current := by
  obtain ⟨a, readsA⟩ := verify .a
  obtain ⟨b, readsB⟩ := verify .b
  have holdsA := CopyState.holds_cached readsA
  have holdsB := CopyState.holds_cached readsB
  obtain ⟨core, d', opens⟩ := open_succeeds readsA (steady.sound.within .a a holdsA).1 readsB
    (steady.sound.within .b b holdsB).1 (steady.lineage a b ⟨.a, holdsA⟩ ⟨.b, holdsB⟩)
  have opened : (step sha book (.open []) s).core = some core := by simp only [step, opens]
  obtain ⟨_, within', leaves⟩ := step_open steady [] within (Bracket.repairs base width held floors)
  cases leaves with
  | refused none_ _ => rw [opened] at none_; cases none_
  | adopted core' opened' _ _ reads newest =>
      obtain rfl : core = core' := Option.some.inj (opened.symm.trans opened')
      have inside := within' held core.current (CopyState.holds_cached (reads held))
      have := inside.2.1 rfl
      refine ⟨core, opened, inside.1.imp_left fun le => ?_, inside.2.2 rfl⟩
      omega

/-! ## What a call reports -/

/-- How a call that ended short of a crash accounts for what failed in it. -/
structure Accounts (sha : Bytes → Digest) (book : BookFile) (core : TransactionCore) (call : Call)
    (fates : List (Fate sha)) (before : Disk) (r : Except IssueError (List Delivery))
    (core' : TransactionCore) (after : Disk) : Prop where
  /-- A write, sync or boundary of a persist that failed halts the core, -/
  uncertain : (∃ entry : Answered, entry ∈ (call.on sha core).trace (media sha book) fates before ∧
      entry.failed = true ∧ entry.ofRead = false) →
    r = .error .persistenceUncertain ∧ core'.halted = true
  /-- and a halted core refuses every call without a request. -/
  halted : core'.halted = true →
    ∀ later : Call, later.on sha core' = pure (.error .persistenceUncertain, core')
  /-- A read that failed wastes the range, and the core serves on past it. -/
  unread : (∃ entry : Answered, entry ∈ (call.on sha core).trace (media sha book) fates before ∧
      entry.failed = true ∧ entry.ofRead = true) →
    r = .error .io ∧ core'.halted = false ∧
      core'.current.next.get.toNat = core.current.next.get.toNat + call.width.toNat ∧
      ∀ later : Call, 0 < later.width.toNat →
        core'.current.next.get.toNat + later.width.toNat ≤ book.segmentCount.toNat →
        ∃ core'' disk'', (later.on sha core').exec (media sha book) [] after =
          (.returned (.ok (book.deliver core'.current.next.get.toNat later.width.toNat), core''),
            disk'')
  /-- A refusal asks nothing and changes nothing. -/
  refused : (r = .error .invalidRange ∨ (∃ next, r = .error (.exhausted next)) ∨
      core.halted = true) →
    (call.on sha core).trace (media sha book) fates before = [] ∧ core' = core ∧ after = before ∧
      (core.halted = true → r = .error .persistenceUncertain)

theorem halted_refuses {core : TransactionCore} (halted : core.halted = true) (call : Call) :
    call.on sha core = pure (.error .persistenceUncertain, core) := by
  cases call with
  | issue =>
      rw [Call.on, TransactionCore.issue, if_pos halted]
      rfl
  | reserveRange n =>
      rw [Call.on, TransactionCore.reserveRange, if_pos halted]
      rfl

theorem Failing.unread {seen : List Answered} (failing : Failing true seen) :
    ¬∃ entry ∈ seen, entry.failed = true ∧ entry.ofRead = false := by
  rintro ⟨entry, mem, failed, persist⟩
  rw [failing.2 entry mem failed] at persist
  cases persist

theorem Failing.uncertain {seen : List Answered} (failing : Failing false seen) :
    ¬∃ entry ∈ seen, entry.failed = true ∧ entry.ofRead = true := by
  rintro ⟨entry, mem, failed, read⟩
  rw [failing.2 entry mem failed] at read
  cases read

theorem Fine.none {seen : List Answered} (fine : Fine seen) (kind : Bool) :
    ¬∃ entry ∈ seen, entry.failed = true ∧ entry.ofRead = kind := by
  rintro ⟨entry, mem, failed, _⟩
  rw [fine entry mem] at failed
  cases failed

theorem call_accounts {s : System} {core core' : TransactionCore} (steady : Steady sha book s)
    (opened : s.core = some core) {call : Call} {fates : List (Fate sha)}
    {r : Except IssueError (List Delivery)} {after : Disk}
    (ends : (call.on sha core).exec (media sha book) fates s.disk = (.returned (r, core'), after)) :
    Accounts sha book core call fates s.disk r core' after := by
  have current := steady.current core opened
  have sound : Sound sha (fun _ _ => True) s.disk := steady.sound.mono fun _ _ _ _ => trivial
  have called := Program.exec_of_wp (wp_on current.on call sound
    (fun _ _ _ => ⟨trivial, trivial⟩) fun live copy older holds =>
      current.newest live older ⟨copy, holds⟩) fates
  rw [ends] at called
  rcases call_reports current.on ends with ⟨e, refused, rfl, rfl, rfl, nothing⟩ | ⟨live, report⟩
  · refine ⟨fun ⟨_, mem, _⟩ => ?_, halted_refuses, fun ⟨_, mem, _⟩ => ?_, fun _ => ?_⟩
    · rw [nothing] at mem
      cases mem
    · rw [nothing] at mem
      cases mem
    · refine ⟨nothing, rfl, rfl, fun halted => ?_⟩
      cases refused with
      | halted => rfl
      | invalidRange live => simp [live] at halted
      | exhausted live => simp [live] at halted
  · have alive : ¬core.halted = true := by simp [live]
    cases report with
    | ok fine =>
        exact ⟨fun failed => (fine.none false failed).elim, halted_refuses,
          fun failed => (fine.none true failed).elim, by simp [alive]⟩
    | uncertain failing halted =>
        exact ⟨fun _ => ⟨rfl, halted⟩, halted_refuses, fun failed => (failing.uncertain failed).elim,
          by simp [alive]⟩
    | unread failing =>
        refine ⟨fun failed => (failing.unread failed).elim, halted_refuses, fun _ => ?_,
          by simp [alive]⟩
        rcases called with refused | _ | ⟨_, res, written⟩
        · cases refused
        · have on' : TransactionCore.On sha book { core with current := res.intent } :=
            ⟨current.on.bookId, current.on.segmentCount, res.genuine_intent current.on⟩
          exact ⟨rfl, live, res.sum, fun later some_ fits => call_succeeds on' live some_ fits _⟩

end Floors

/-- A hash for the runs below: the sum of the bytes, thirty-two times. -/
def checksum (bytes : Bytes) : Digest := .replicate 32 (bytes.foldl (· + ·) 0)

/-- A book of two segments. -/
def smallBook : BookFile where
  bookId := ⟨.replicate 16 0⟩
  segmentCount := 2
  body i := .replicate 64 (UInt8.ofNat i.get.toNat)

/-- The first sync of an `issue` fails, a start-up then fails in the sync of its repair,
and the next one finds two equal copies, neither of them synced. -/
def unsyncedStartUp : List (Event checksum) :=
  [.open [], .call .issue [.ok, .ok, .ok, .ok, .fail .persistence .nothing],
    .open [.ok, .ok, .ok, .fail .persistence .nothing], .open []]

end Jbuu.Allocator
