/-
# Allocator.Failures — which failure a call reports, and what it does without one

The trace of a call against its result, on a device of which nothing is known: a
persist that failed gives `PersistenceUncertain` and a halted core, a segment that
could not be read gives `Io` and a core that goes on, and a refusal asks nothing
(`call_reports`). With nothing failing, a call that is not refused delivers its range
(`call_succeeds`).
-/
import Jbuu.Allocator.Recovery

namespace Jbuu.Allocator

set_option autoImplicit false

open Jbuu.Library.BigEndian (Bytes)
open Jbuu.Library
open Jbuu.Library.Program (calm traced wp_mono wp_bind wp_map wp_except_bind wp_failWith
  returns_of_wp trace_of_wp)

/-- A request and its reply. -/
abbrev Answered := Σ op, MediaReply op

namespace Answered

def failed : Answered → Bool
  | ⟨.read _, r⟩ => !r.isOk
  | ⟨.write _ _, r⟩ => !r.isOk
  | ⟨.sync _, r⟩ => !r.isOk
  | ⟨.boundary _, r⟩ => !r.isOk
  | ⟨.segment _, r⟩ => !r.isOk

/-- Requests of the reading step between INTENT and COMMIT; all others persist. -/
def ofRead : Answered → Bool
  | ⟨.boundary point, _⟩ => point = .segmentPread
  | ⟨.segment _, _⟩ => true
  | _ => false

end Answered

section Traces

variable {sha : Bytes → Digest} {φ σ : Type} {D : Device MediaOp MediaReply φ σ}

/-- From `seen` to `after`, requests of one kind were answered, and `ok` says whether
none of them failed. -/
def Tallied (reading : Bool) (seen : List Answered) (ok : Bool) (after : List Answered) : Prop :=
  ∃ new, after = seen ++ new ∧ (∀ entry ∈ new, entry.ofRead = reading) ∧
    (ok = true ↔ ∀ entry ∈ new, entry.failed = false)

theorem Tallied.nil (reading : Bool) (seen : List Answered) : Tallied reading seen true seen :=
  ⟨[], by simp, by simp, by simp⟩

theorem Tallied.one {reading : Bool} (seen : List Answered) {entry : Answered}
    (kind : entry.ofRead = reading) :
    Tallied reading seen (!entry.failed) (seen ++ [entry]) :=
  ⟨[entry], rfl, by simpa using kind, by simp⟩

theorem Tallied.append {reading ok : Bool} {first second third : List Answered}
    (fine : Tallied reading first true second) (last : Tallied reading second ok third) :
    Tallied reading first ok third := by
  obtain ⟨new, rfl, kind, none_⟩ := fine
  obtain ⟨newer, rfl, kind', tally⟩ := last
  refine ⟨new ++ newer, List.append_assoc .., ?_, ?_⟩
  · intro entry mem
    exact (List.mem_append.mp mem).elim (kind entry) (kind' entry)
  · rw [tally]
    constructor
    · intro fine entry mem
      exact (List.mem_append.mp mem).elim (none_.mp rfl entry) (fine entry)
    · exact fun fine entry mem => fine entry (List.mem_append_right _ mem)

theorem wp_traced {op : MediaOp} {post : MediaReply op → σ × List Answered → Prop} {s : σ}
    {seen : List Answered} (answered : ∀ reply s', post reply (s', seen ++ [⟨op, reply⟩])) :
    (ask op).wp (traced D) post (fun _ => True) (s, seen) := by
  intro fate
  simp only [traced]
  rcases D op fate s with ⟨_ | reply, s'⟩
  · trivial
  · exact answered reply s'

theorem wp_traced_boundary {point : Boundary} {s : σ} {seen : List Answered} {reading : Bool}
    (kind : Decidable.decide (point = .segmentPread) = reading) :
    (boundary point).run.wp (traced D) (fun r after => Tallied reading seen r.isOk after.2)
      (fun _ => True) (s, seen) := by
  refine wp_traced fun reply s' => ?_
  have kind : Answered.ofRead ⟨.boundary point, reply⟩ = reading := kind
  simpa [Answered.failed] using Tallied.one seen kind

theorem wp_traced_write {copy : AnchorCopy} {bytes : Bytes} {s : σ} {seen : List Answered} :
    (write copy bytes).run.wp (traced D) (fun r after => Tallied false seen r.isOk after.2)
      (fun _ => True) (s, seen) := by
  refine wp_traced fun reply s' => ?_
  have kind : Answered.ofRead ⟨.write copy bytes, reply⟩ = false := rfl
  simpa [Answered.failed] using Tallied.one seen kind

theorem wp_traced_sync {copy : AnchorCopy} {s : σ} {seen : List Answered} :
    (sync copy).run.wp (traced D) (fun r after => Tallied false seen r.isOk after.2)
      (fun _ => True) (s, seen) := by
  refine wp_traced fun reply s' => ?_
  have kind : Answered.ofRead ⟨.sync copy, reply⟩ = false := rfl
  simpa [Answered.failed] using Tallied.one seen kind

theorem wp_traced_segment {index : SegmentIndex} {s : σ} {seen : List Answered} :
    (segment index).run.wp (traced D) (fun r after => Tallied true seen r.isOk after.2)
      (fun _ => True) (s, seen) := by
  refine wp_traced fun reply s' => ?_
  have kind : Answered.ofRead ⟨.segment index, reply⟩ = true := rfl
  simpa [Answered.failed] using Tallied.one seen kind

/-- Steps of one kind, one after the other, up to the first that fails. -/
theorem wp_tallied_bind {ε α β : Type} {p : ExceptT ε Transaction α}
    {f : α → ExceptT ε Transaction β} {reading : Bool} {s : σ} {seen : List Answered}
    (first : p.run.wp (traced D) (fun r after => Tallied reading seen r.isOk after.2)
      (fun _ => True) (s, seen))
    (next : ∀ a s' seen', (f a).run.wp (traced D)
      (fun r after => Tallied reading seen' r.isOk after.2) (fun _ => True) (s', seen')) :
    (p >>= f).run.wp (traced D) (fun r after => Tallied reading seen r.isOk after.2)
      (fun _ => True) (s, seen) := by
  rw [wp_except_bind]
  refine wp_mono first ?_ fun _ crashed => crashed
  rintro (e | a) ⟨s', seen'⟩ tally
  · exact tally
  · exact wp_mono (next a s' seen') (fun _ _ last => tally.append last) fun _ crashed => crashed

theorem wp_traced_persistPair {record : AnchorRecord} {intent : Bool} {s : σ}
    {seen : List Answered} :
    (persistPair sha record intent).run.wp (traced D)
      (fun r after => Tallied false seen r.isOk after.2) (fun _ => True) (s, seen) := by
  have turn (copy : AnchorCopy) (s : σ) (seen : List Answered) :
      (persistCopy sha record (points intent copy) copy).run.wp (traced D)
        (fun r after => Tallied false seen r.isOk after.2) (fun _ => True) (s, seen) := by
    unfold persistCopy
    refine wp_tallied_bind (wp_traced_boundary ?_) fun _ _ _ => ?_
    · cases intent <;> cases copy <;> rfl
    refine wp_tallied_bind wp_traced_write fun _ _ _ => ?_
    refine wp_tallied_bind (wp_traced_boundary ?_) fun _ _ _ => ?_
    · cases intent <;> cases copy <;> rfl
    refine wp_tallied_bind (wp_traced_boundary ?_) fun _ _ _ => ?_
    · cases intent <;> cases copy <;> rfl
    refine wp_tallied_bind wp_traced_sync fun _ _ _ => ?_
    refine wp_traced_boundary ?_
    cases intent <;> cases copy <;> rfl
  unfold persistPair
  exact wp_tallied_bind (turn .a s seen) fun _ s' seen' => turn .b s' seen'

theorem wp_traced_readBodies {base : SegmentIndex} {remaining : Nat} {i : UInt64} {bytes : Bytes}
    {s : σ} {seen : List Answered} :
    (TransactionCore.readBodies base remaining i bytes).run.wp (traced D)
      (fun r after => Tallied true seen r.isOk after.2 ∧ ∀ e, r = .error e → e = .io)
      (fun _ => True) (s, seen) := by
  induction remaining generalizing i bytes s seen with
  | zero => exact ⟨.nil true seen, nofun⟩
  | succ remaining ih =>
      rw [TransactionCore.readBodies, wp_except_bind, wp_failWith]
      refine wp_mono wp_traced_segment ?_ fun _ crashed => crashed
      rintro (e | body) ⟨s', seen'⟩ tally
      · exact ⟨tally, by rintro _ ⟨⟩; rfl⟩
      · refine wp_mono ih ?_ fun _ crashed => crashed
        rintro r after ⟨last, error⟩
        exact ⟨tally.append last, error⟩

/-- No request failed. -/
def Fine (seen : List Answered) : Prop := ∀ entry ∈ seen, entry.failed = false

theorem Tallied.fine {reading : Bool} {seen after : List Answered} (fine : Fine seen)
    (tally : Tallied reading seen true after) : Fine after := by
  obtain ⟨new, rfl, _, ok⟩ := tally
  intro entry mem
  exact (List.mem_append.mp mem).elim (fine entry) (ok.mp rfl entry)

/-- The failures of a trace are there, and all of one kind. -/
def Failing (reading : Bool) (seen : List Answered) : Prop :=
  (∃ entry ∈ seen, entry.failed = true) ∧
    ∀ entry ∈ seen, entry.failed = true → entry.ofRead = reading

theorem Tallied.failing {reading : Bool} {seen after : List Answered} (fine : Fine seen)
    (tally : Tallied reading seen false after) : Failing reading after := by
  obtain ⟨new, rfl, kind, ok⟩ := tally
  refine ⟨?_, fun entry mem failed => ?_⟩
  · by_contra none_
    refine absurd (ok.mpr fun entry mem => ?_) (by decide)
    by_contra failed
    exact none_ ⟨entry, List.mem_append_right _ mem, by simpa using failed⟩
  · rcases List.mem_append.mp mem with old | new
    · rw [fine entry old] at failed
      cases failed
    · exact kind entry new

/-- What the trace of a transaction says about its result. -/
inductive Reported {α : Type} :
    Except IssueError α × TransactionCore → List Answered → Prop
  | ok {a : α} {core : TransactionCore} {seen : List Answered} (fine : Fine seen) :
      Reported (.ok a, core) seen
  | uncertain {core : TransactionCore} {seen : List Answered} (failing : Failing false seen)
      (halted : core.halted = true) : Reported (.error .persistenceUncertain, core) seen
  | unread {core : TransactionCore} {seen : List Answered} (failing : Failing true seen) :
      Reported (.error .io, core) seen

theorem wp_traced_transact {base : SegmentIndex} {n newNext generation : UInt64}
    {core : TransactionCore} {s : σ} :
    (TransactionCore.transact sha base n newNext generation core).wp (traced D)
      (fun r after => Reported r after.2) (fun _ => True) (s, []) := by
  have start : Fine [] := nofun
  unfold TransactionCore.transact
  rw [wp_bind]
  refine wp_mono wp_traced_persistPair ?_ fun _ crashed => crashed
  rintro (e | ⟨⟩) ⟨s, seen⟩ tally
  · exact .uncertain (tally.failing start) rfl
  have fine := tally.fine start
  rw [wp_bind]
  have reading : Decidable.decide (Boundary.segmentPread = .segmentPread) = true := by decide
  refine wp_mono (wp_traced_boundary reading) ?_ fun _ crashed => crashed
  rintro (e | ⟨⟩) ⟨s, seen⟩ tally
  · exact .unread (tally.failing fine)
  have fine := tally.fine fine
  rw [wp_bind]
  refine wp_mono wp_traced_readBodies ?_ fun _ crashed => crashed
  rintro (e | bytes) ⟨s, seen⟩ ⟨tally, error⟩
  · rw [error e rfl]
    exact .unread (tally.failing fine)
  have fine := tally.fine fine
  rw [wp_bind]
  refine wp_mono wp_traced_persistPair ?_ fun _ crashed => crashed
  rintro (e | ⟨⟩) ⟨s, seen⟩ tally
  · exact .uncertain (tally.failing fine) rfl
  · exact .ok (tally.fine fine)

/-- **The report of a call.** It is a refusal that asked nothing and changed nothing, or it
reports what failed. -/
theorem call_reports [Inhabited φ] {book : BookFile} {core core' : TransactionCore} {call : Call}
    {fates : List φ} {s s' : σ} {r : Except IssueError (List Delivery)} (on : core.On sha book)
    (run : (call.on sha core).exec D fates s = (.returned (r, core'), s')) :
    (∃ e, Refused core call.width e ∧ r = .error e ∧ core' = core ∧ s' = s ∧
        (call.on sha core).trace D fates s = []) ∨
      core.halted = false ∧ Reported (r, core') ((call.on sha core).trace D fates s) := by
  rcases call_cases on call with ⟨e, refused, same⟩ | ⟨live, res, same⟩
  · rw [same] at run ⊢
    cases run
    exact .inl ⟨e, refused, rfl, rfl, rfl, rfl⟩
  · have reports : (call.on sha core).wp (traced D) (fun r after => Reported r after.2)
        (fun _ => True) (s, []) := by
      rw [same, wp_map]
      refine wp_mono wp_traced_transact ?_ fun _ crashed => crashed
      rintro _ _ (fine | ⟨failing, halted⟩ | failing)
      · exact .ok fine
      · exact .uncertain failing halted
      · exact .unread failing
    have report := trace_of_wp reports run
    exact .inr ⟨live, report⟩

end Traces

/-! ## With nothing failing -/

section Calm

variable {sha : Bytes → Digest} {book : BookFile} {core : TransactionCore}

variable (sha) in
theorem calm_transact {n : UInt64} (res : Reservation book core n) (d : Disk) :
    (TransactionCore.transact sha core.current.next n res.newNext res.generation
      { core with current := res.intent }).wp (calm (media sha book))
      (fun r _ => r = (.ok { base := core.current.next, bytes := flatBodies book core.current.next n.toNat 0 },
        { core with current := res.commit sha }))
      (fun _ => False) d := by
  have inside : core.current.next.get.toNat + (0 : UInt64).toNat + n.toNat ≤
      book.segmentCount.toNat := by
    have := res.sum
    have := res.fits
    simp only [UInt64.reduceToNat]
    omega
  unfold TransactionCore.transact
  rw [wp_bind]
  refine wp_mono calm_persistPair ?_ fun _ crashed => crashed
  rintro _ d rfl
  rw [wp_bind]
  refine calm_boundary ?_
  rw [wp_bind]
  refine wp_mono (calm_readBodies inside) ?_ fun _ crashed => crashed
  rintro _ d rfl
  rw [wp_bind]
  refine wp_mono calm_persistPair ?_ fun _ crashed => crashed
  rintro _ d rfl
  show (Except.ok _, _) = _
  simp only [List.nil_append, drop_flatBodies book _ res.nonempty, res.last_eq]
  rfl

/-- With nothing failing, `issue` on a live core commits the next segment and returns its body. -/
theorem issue_succeeds (on : core.On sha book) (live : core.halted = false)
    (left : core.current.next.get.toNat < book.segmentCount.toNat) (d : Disk) :
    ∃ (res : Reservation book core 1) (d' : Disk), (core.issue sha).exec (media sha book) [] d =
      (.returned (.ok (book.body core.current.next), { core with current := res.commit sha }), d') := by
  have there : core.current.next.get.toNat < core.segmentCount.toNat := by rwa [on.segmentCount]
  have one := TransactionCore.reserveRange_one sha live there
  have begins : Begins sha book core 1 (TransactionCore.reserveRange sha 1 core) :=
    reserveRange_begins on.segmentCount 1
  rcases begins.genuine on with ⟨e, refused, -⟩ | ⟨-, res, same⟩
  · exfalso
    cases refused with
    | halted halted => simp [live] at halted
    | invalidRange _ invalid =>
        have := book.segmentCount.toNat_lt
        simp only [UInt64.reduceToNat] at invalid
        rcases invalid with zero | overflow
        · exact absurd zero (by decide)
        · omega
    | exhausted _ full =>
        simp only [UInt64.reduceToNat] at full
        omega
  · have commits := calm_transact sha res d
    rw [← same, one, wp_map] at commits
    obtain ⟨⟨r, core'⟩, d', ends, given⟩ := returns_of_wp commits
    obtain ⟨body, rfl⟩ := Prod.mk.inj given
    refine ⟨res, d', ?_⟩
    rw [ends]
    cases r with
    | error e => cases body
    | ok segment =>
        have first : core.current.next.get + (0 : UInt64) = core.current.next.get := by simp
        have bytes : segment = book.body core.current.next := by
          apply Subtype.ext
          simpa [Except.map, TransactionCore.ofBody, flatBodies, first] using body
        rw [bytes]

/-- A call that fits is not refused, and with nothing failing it delivers its range. -/
theorem call_succeeds (on : core.On sha book) (live : core.halted = false) {call : Call}
    (some_ : 0 < call.width.toNat)
    (fits : core.current.next.get.toNat + call.width.toNat ≤ book.segmentCount.toNat) (d : Disk) :
    ∃ core' d', (call.on sha core).exec (media sha book) [] d =
      (.returned (.ok (book.deliver core.current.next.get.toNat call.width.toNat), core'), d') := by
  rcases call_cases on call with ⟨e, refused, same⟩ | ⟨_, res, same⟩
  · exfalso
    cases refused with
    | halted halted => simp [live] at halted
    | invalidRange _ invalid =>
        have := book.segmentCount.toNat_lt
        rcases invalid with zero | overflow
        · simp [zero] at some_
        · omega
    | exhausted _ full =>
        rw [on.segmentCount] at full
        omega
  · have delivers : (call.on sha core).wp (calm (media sha book))
        (fun r _ => r.1 = .ok (book.deliver core.current.next.get.toNat call.width.toNat))
        (fun _ => False) d := by
      rw [same, wp_map]
      refine wp_mono (calm_transact sha res d) ?_ fun _ crashed => crashed
      rintro _ _ rfl
      exact congrArg Except.ok (deliveries_flatBodies core.current.next call.width.toNat)
    obtain ⟨⟨r, core'⟩, d', ends, rfl⟩ := returns_of_wp delivers
    exact ⟨core', d', ends⟩

end Calm

end Jbuu.Allocator
