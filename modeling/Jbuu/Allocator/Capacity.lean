/-
# Allocator.Capacity — what becomes of the segments of a book

A call on a live core that starts its transaction and does not succeed may burn its
whole range, and nothing else uses a segment up. `waste` charges such a call its width,
`wasted` adds the charges of a run, and `Accounted` is the invariant: every record
either copy may hold, the open core's record and every segment delivered lie within what
was delivered and wasted together.

* `call_accounted` is the step: each way a call can end, against its charge;
* `segments_are_accounted` reads it off the invariant: the pointer is between what was
  delivered and what was used up; a run that wastes nothing delivers the book densely
  from its first segment; a call is refused as exhausted only when what was used up and
  its own width exceed the book, and one that still fits succeeds.
-/
import Mathlib.Data.List.Sort
import Jbuu.Allocator.Atomicity

namespace Jbuu.Allocator

set_option autoImplicit false

open Jbuu.Library.BigEndian (Bytes)
open Jbuu.Library
open Jbuu.Library.Program (exec_of_wp)

section Ledger

variable (sha : Bytes → Digest) (book : BookFile)

/-- The segments an event may burn without delivering them. -/
def waste (s : System) : Event sha → Nat
  | .open _ => 0
  | .call call fates =>
      match s.core with
      | none => 0
      | some core =>
          if core.halted then 0
          else
            match (call.on sha core).exec (media sha book) fates s.disk with
            | (.returned (.ok _, _), _) => 0
            | (.returned (.error .invalidRange, _), _) => 0
            | (.returned (.error (.exhausted _), _), _) => 0
            | _ => call.width.toNat
  | .lose _ => 0

/-- What the events of a run waste. -/
def wasted : List (Event sha) → System → Nat
  | [], _ => 0
  | event :: rest, s => waste sha book s event + wasted rest (step sha book event s)

end Ledger

section Accounting

variable {sha : Bytes → Digest} {book : BookFile}

/-- The record points no further than `limit`. -/
def Upto (limit : Nat) (_ : AnchorCopy) (r : AnchorRecord) : Prop := r.next.get.toNat ≤ limit

theorem Upto.repairs (limit : Nat) : Repairs (Upto limit) := fun _ _ _ _ new _ => new

theorem upto_of_le {limit limit' : Nat} {d : Disk} (within : Within sha (Upto limit) d)
    (le : limit ≤ limit') : Within sha (Upto limit') d :=
  fun copy r holds => (within copy r holds).trans le

/-- All that a run used up, and wasted `w` of: nothing points or lies beyond it. -/
structure Accounted (sha : Bytes → Digest) (w : Nat) (s : System) : Prop where
  disk : Within sha (Upto (s.delivered.length + w)) s.disk
  core : ∀ core, s.core = some core → core.current.next.get.toNat ≤ s.delivered.length + w
  delivered : ∀ d ∈ s.delivered, d.index < s.delivered.length + w

theorem Accounted.mono {w w' : Nat} {s : System} (accounted : Accounted sha w s) (le : w ≤ w') :
    Accounted sha w' s where
  disk := upto_of_le accounted.disk (Nat.add_le_add_left le _)
  core core opened := (accounted.core core opened).trans (Nat.add_le_add_left le _)
  delivered d mem := (accounted.delivered d mem).trans_le (Nat.add_le_add_left le _)

theorem accounted_initial : Accounted sha 0 (initial sha book) where
  disk copy r holds := by
    rw [(written_initial.holds_iff (canonical_init _)).mp ⟨copy, holds⟩]
    exact Nat.zero_le _
  core := nofun
  delivered := nofun

theorem length_deliver (base n : Nat) : (book.deliver base n).length = n := by
  simp [BookFile.deliver]

/-- A call that was delivered: the pointer went up by as much as the deliveries. -/
theorem Accounted.deliver {w : Nat} {s : System} {core : TransactionCore} {call : Call} {d : Disk}
    (accounted : Accounted sha w s) (opened : s.core = some core)
    (res : Reservation book core call.width) (written : Written sha (res.commit sha) d)
    (canonical : (res.commit sha).Canonical) :
    Accounted sha w
      { s with
        disk := d
        core := some { core with current := res.commit sha }
        delivered := s.delivered ++ book.deliver core.current.next.get.toNat call.width.toNat } := by
  have start := accounted.core core opened
  have length : (s.delivered ++ book.deliver core.current.next.get.toNat call.width.toNat).length =
      s.delivered.length + call.width.toNat := by
    rw [List.length_append, length_deliver]
  have next : (res.commit sha).next.get.toNat ≤ s.delivered.length + call.width.toNat + w := by
    show res.newNext.toNat ≤ _
    rw [res.sum]
    omega
  refine ⟨fun copy r holds => ?_, ?_, ?_⟩
  · rw [((written copy).holds canonical).mp holds, Upto, length]
    exact next
  · rintro _ ⟨⟩
    rw [length]
    exact next
  · intro e mem
    rw [length]
    rcases List.mem_append.mp mem with old | new
    · have := accounted.delivered e old
      omega
    · obtain ⟨j, below, rfl⟩ := List.mem_map.mp new
      have := List.mem_range.mp below
      simp only
      omega

/-- A call that delivered nothing and wrote no further than the end of its range. -/
theorem Accounted.charge {w n : Nat} {s : System} (accounted : Accounted sha w s) {d : Disk}
    {core' : Option TransactionCore} {panicked : Bool}
    (within : Within sha (Upto (s.delivered.length + w + n)) d)
    (below : ∀ core, core' = some core → core.current.next.get.toNat ≤ s.delivered.length + w + n) :
    Accounted sha (w + n) { s with disk := d, core := core', panicked := panicked } where
  disk := by
    rw [← Nat.add_assoc]
    exact within
  core core at_ := by
    rw [← Nat.add_assoc]
    exact below core at_
  delivered e mem := by
    rw [← Nat.add_assoc]
    exact (accounted.delivered e mem).trans_le (Nat.le_add_right _ _)

theorem call_accounted {w : Nat} {s : System} {core : TransactionCore} (steady : Steady sha book s)
    (accounted : Accounted sha w s) (opened : s.core = some core) (call : Call)
    (fates : List (Fate sha)) :
    Accounted sha (w + waste sha book s (.call call fates))
      (step sha book (.call call fates) s) := by
  have current := steady.current core opened
  have start := accounted.core core opened
  have unchanged : ({ s with disk := s.disk, core := some core } : System) = s := by rw [← opened]
  cases halted : core.halted with
  | true =>
      rw [step, opened]
      dsimp only
      rw [halted_refuses halted, Program.exec_pure]
      dsimp only
      rw [unchanged]
      exact accounted.mono (Nat.le_add_right _ _)
  | false =>
      let limit := s.delivered.length + w + call.width.toNat
      -- Both records of the call point at the end of its range.
      have new (res : Reservation book core call.width) : res.newNext.toNat ≤ limit := by
        rw [res.sum]
        exact Nat.add_le_add_right start _
      have sound : Sound sha (Upto limit) s.disk := steady.sound.mono fun copy r holds _ =>
        (accounted.disk copy r holds).trans (Nat.le_add_right _ _)
      have ends := exec_of_wp (wp_on current.on call sound (fun res _ _ => ⟨new res, new res⟩)
        fun live copy older holds => current.newest live older ⟨copy, holds⟩) fates
      simp only [step, waste, opened, halted, Bool.false_eq_true]
      revert ends
      rcases (call.on sha core).exec (media sha book) fates s.disk with ⟨⟨r, core'⟩ | _ | _, d⟩
      · rintro (⟨refused⟩ | ⟨live, res, written⟩ | ⟨live, res, written⟩ | ⟨live, res, sound'⟩)
        · dsimp only
          rw [unchanged]
          exact accounted.mono (Nat.le_add_right _ _)
        · exact accounted.deliver opened res written (res.genuine_commit current.on).canonical
        · have genuine : Genuine sha book res.intent := res.genuine_intent current.on
          refine accounted.charge ?_ ?_
          · exact (written.sound genuine.canonical fun _ => new res).within
          · rintro _ ⟨⟩
            exact new res
        · refine accounted.charge sound'.within ?_
          rintro _ ⟨⟩
          exact new res
      · intro sound'
        exact accounted.charge sound'.within (by simp)
      · exact False.elim

theorem open_accounted {w : Nat} {s : System} (steady : Steady sha book s)
    (accounted : Accounted sha w s) (fates : List (Fate sha)) :
    Accounted sha w (step sha book (.open fates) s) := by
  obtain ⟨-, within, leaves⟩ := step_open steady fates accounted.disk (Upto.repairs _)
  have same : (step sha book (.open fates) s).delivered = s.delivered := by
    simp only [step]
    split <;> rfl
  refine ⟨?_, ?_, ?_⟩
  · rw [same]
    exact within
  · intro core opened
    rw [same]
    cases leaves with
    | refused none_ _ => rw [none_] at opened; cases opened
    | adopted core' opened' _ _ reads _ =>
        obtain rfl := Option.some.inj (opened'.symm.trans opened)
        exact within .a core'.current (CopyState.holds_cached (reads .a))
  · rw [same]
    exact accounted.delivered

theorem step_accounted (event : Event sha) {w : Nat} {s : System} (steady : Steady sha book s)
    (accounted : Accounted sha w s) :
    Accounted sha (w + waste sha book s event) (step sha book event s) := by
  cases event with
  | «open» fates => exact open_accounted steady accounted fates
  | call call fates =>
      cases opened : s.core with
      | none => simpa only [step, waste, opened, Nat.add_zero] using accounted
      | some core => exact call_accounted steady accounted opened call fates
  | lose loss =>
      exact ⟨(step_lose steady loss accounted.disk).2, by simp [step], accounted.delivered⟩

theorem run_accounted (events : List (Event sha)) {w : Nat} {s : System} (steady : Steady sha book s)
    (accounted : Accounted sha w s) :
    Accounted sha (w + wasted sha book events s) (run (step sha book) events s) := by
  induction events generalizing w s with
  | nil => exact accounted
  | cons event rest ih =>
      rw [wasted, ← Nat.add_assoc]
      exact ih (step_steady event s steady) (step_accounted event steady accounted)

/-! ## Reading the ledger -/

/-- Increasing numbers below a bound are some of those below it. -/
theorem subperm_range_of_increasing {l : List Nat} {bound : Nat} (increasing : l.Pairwise (· < ·))
    (below : ∀ i ∈ l, i < bound) : l.Subperm (List.range bound) := by
  have sub : l ⊆ List.range bound := fun i mem => List.mem_range.mpr (below i mem)
  have distinct : l.Nodup := increasing.imp fun lt => Nat.ne_of_lt lt
  exact List.subperm_of_subset distinct sub

/-- With no room for a gap they are all of them. -/
theorem eq_range_of_increasing {l : List Nat} (increasing : l.Pairwise (· < ·))
    (below : ∀ i ∈ l, i < l.length) : l = List.range l.length := by
  have perm : l.Perm (List.range l.length) :=
    (subperm_range_of_increasing increasing below).perm_of_length_le (List.length_range ..).le
  exact perm.eq_of_pairwise' (increasing.imp fun lt => Nat.le_of_lt lt)
    (List.pairwise_lt_range.imp fun lt => Nat.le_of_lt lt)

theorem Delivered.increasing {delivered : List Delivery} (ok : Delivered book delivered) :
    (delivered.map Delivery.index).Pairwise (· < ·) :=
  List.pairwise_map.mpr ok.ordered

/-- A pointer past all that was delivered counts it. -/
theorem Past.length_le {delivered : List Delivery} {r : AnchorRecord} (past : Past delivered r)
    (ok : Delivered book delivered) : delivered.length ≤ r.next.get.toNat := by
  have below : ∀ i ∈ delivered.map Delivery.index, i < r.next.get.toNat := by
    intro i mem
    obtain ⟨d, here, rfl⟩ := List.mem_map.mp mem
    exact past d here
  simpa using (subperm_range_of_increasing ok.increasing below).length_le

theorem Accounted.dense {s : System} (accounted : Accounted sha 0 s) (steady : Steady sha book s) :
    s.delivered.map Delivery.index = List.range s.delivered.length := by
  have whole := eq_range_of_increasing steady.delivered.increasing fun i mem => by
    obtain ⟨d, here, rfl⟩ := List.mem_map.mp mem
    simpa using accounted.delivered d here
  simpa using whole

/-- A call is refused as exhausted only where its range does not fit. -/
theorem exhausted_beyond {s : System} {core core' : TransactionCore} {call : Call}
    {fates : List (Fate sha)} {next : SegmentIndex} {after : Disk} (steady : Steady sha book s)
    (opened : s.core = some core)
    (ends : (call.on sha core).exec (media sha book) fates s.disk =
      (.returned (.error (.exhausted next), core'), after)) :
    book.segmentCount.toNat < core.current.next.get.toNat + call.width.toNat := by
  have on := (steady.current core opened).on
  rcases call_reports on ends with ⟨e, refused, same, -⟩ | ⟨-, report⟩
  · cases same
    cases refused with
    | exhausted _ full => rwa [on.segmentCount] at full
  · cases report

end Accounting

/-- **Every segment of the book is accounted for.** In every run from a valid INIT pair,
whatever fails, tears or crashes, with `w` the widths of the calls that started and did
not succeed: every pointer either copy may hold, and the open core's, counts at least
what was delivered and at most `w` more, and no segment at or past that was delivered; a
run that wastes nothing delivers the first segments of the book without a gap; a call is
refused as exhausted only where the book has no room for its width and all that was
delivered and wasted; and where it has room, a live core's call succeeds once nothing
fails in it. -/
theorem segments_are_accounted (sha : Bytes → Digest) (book : BookFile) (events : List (Event sha)) :
    let s := run (step sha book) events (initial sha book)
    let w := wasted sha book events (initial sha book)
    let used := s.delivered.length + w
    (∀ r, s.disk.Holds sha r ∨ (∃ core, s.core = some core ∧ core.current = r) →
      s.delivered.length ≤ r.next.get.toNat ∧ r.next.get.toNat ≤ used) ∧
      (∀ d ∈ s.delivered, d.index < used) ∧
      (w = 0 → s.delivered.map Delivery.index = List.range s.delivered.length) ∧
      ∀ core, s.core = some core → ∀ call : Call,
        (∀ fates next core' after,
          (call.on sha core).exec (media sha book) fates s.disk =
            (.returned (.error (.exhausted next), core'), after) →
          book.segmentCount.toNat < used + call.width.toNat) ∧
        (core.halted = false → 0 < call.width.toNat →
          used + call.width.toNat ≤ book.segmentCount.toNat →
          ∃ core' after, (call.on sha core).exec (media sha book) [] s.disk =
            (.returned (.ok (book.deliver core.current.next.get.toNat call.width.toNat), core'),
              after)) := by
  intro s w used
  have steady : Steady sha book s := run_steady events
  have accounted : Accounted sha w s := by
    have start : Accounted sha 0 (initial sha book) := accounted_initial
    have total := run_accounted events steady_initial start
    rwa [Nat.zero_add] at total
  refine ⟨?_, accounted.delivered, ?_, fun core opened call => ⟨?_, ?_⟩⟩
  · rintro r (⟨copy, holds⟩ | ⟨core, opened, rfl⟩)
    · exact ⟨(steady.sound.within copy r holds).2.length_le steady.delivered,
        accounted.disk copy r holds⟩
    · exact ⟨(steady.current core opened).past.length_le steady.delivered,
        accounted.core core opened⟩
  · intro none_
    have nothing : Accounted sha 0 s := none_ ▸ accounted
    exact nothing.dense steady
  · intro fates next core' after ends
    exact (exhausted_beyond steady opened ends).trans_le
      (Nat.add_le_add_right (accounted.core core opened) _)
  · intro live some_ fits
    refine call_succeeds (steady.current core opened).on live some_ ?_ s.disk
    exact (Nat.add_le_add_right (accounted.core core opened) _).trans fits

/-- The `issue` whose first sync fails is charged its segment, the start-ups nothing. -/
example : wasted checksum smallBook unsyncedStartUp (initial checksum smallBook) = 1 := by
  decide +kernel

end Jbuu.Allocator
