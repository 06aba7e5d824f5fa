/-
# Allocator.Disk — the two anchor copies on a medium that fails, tears and crashes

The device the transaction core runs on. A copy holds the bytes it had at its last
sync and every write since; a read sees the newest write (the page cache), a sync
makes it durable. The adversary's choice for one request is a `Fate`:

* `ok`;
* `fail error effect`: the request returns the error, having done nothing, half of it
  (a torn write, which no longer verifies) or all of it;
* `crash effect loss`: the request has that effect and the process is gone. With
  `Loss.kill` the page cache outlives it; with `Loss.power` each copy keeps its bytes
  if they were synced and otherwise comes back as the bytes of its last sync, one of
  the writes since, or a torn record.

`records` are the records a copy may turn out to hold. `Within` (a predicate on them)
and `Newest` (a copy reads as the newest of them) are the two shapes of statement the
device is known to keep: `media_within`, `media_newest`.
-/
import Jbuu.Allocator.Transaction

namespace Jbuu.Allocator

set_option autoImplicit false

open Jbuu.Library.BigEndian (Bytes)
open Jbuu.Library

/-- The book file: what the segment reader reads. -/
structure BookFile where
  bookId : BookId
  segmentCount : UInt64
  body : SegmentIndex → Segment

structure CopyState where
  /-- The bytes of the last sync. -/
  durable : Bytes
  /-- The writes since, newest first. -/
  unsynced : List Bytes
  deriving DecidableEq, Repr

namespace CopyState

/-- What a read returns. -/
def cached (c : CopyState) : Bytes := c.unsynced.headD c.durable

def write (c : CopyState) (bytes : Bytes) : CopyState :=
  { c with unsynced := bytes :: c.unsynced }

def sync (c : CopyState) : CopyState := { durable := c.cached, unsynced := [] }

/-- Everything the copy may turn out to hold. -/
def contents (c : CopyState) : List Bytes := c.unsynced ++ [c.durable]

@[simp] theorem cached_write (c : CopyState) (bytes : Bytes) : (c.write bytes).cached = bytes := rfl

@[simp] theorem cached_sync (c : CopyState) : c.sync.cached = c.cached := rfl

@[simp] theorem contents_write (c : CopyState) (bytes : Bytes) :
    (c.write bytes).contents = bytes :: c.contents := rfl

@[simp] theorem contents_sync (c : CopyState) : c.sync.contents = [c.cached] := rfl

theorem cached_mem_contents (c : CopyState) : c.cached ∈ c.contents := by
  obtain ⟨durable, _ | ⟨newest, rest⟩⟩ := c <;> simp [cached, contents]

/-- A copy with nothing unsynced can only hold what it reads as. -/
theorem contents_of_synced {c : CopyState} (synced : c.unsynced = []) : c.contents = [c.cached] := by
  simp [contents, cached, synced]

end CopyState

structure Disk where
  a : CopyState
  b : CopyState
  deriving DecidableEq, Repr

namespace Disk

def get (d : Disk) : AnchorCopy → CopyState
  | .a => d.a
  | .b => d.b

def set (d : Disk) (copy : AnchorCopy) (c : CopyState) : Disk :=
  match copy with
  | .a => { d with a := c }
  | .b => { d with b := c }

@[simp] theorem get_set_same (d : Disk) (copy : AnchorCopy) (c : CopyState) :
    (d.set copy c).get copy = c := by
  cases copy <;> rfl

theorem get_set_ne (d : Disk) {copy copy' : AnchorCopy} (c : CopyState) (ne : copy' ≠ copy) :
    (d.set copy c).get copy' = d.get copy' := by
  cases copy <;> cases copy' <;> first | rfl | exact absurd rfl ne

end Disk

section Adversary

variable (sha : Bytes → Digest)

/-- Bytes that do not verify as an anchor record. -/
structure Torn where
  bytes : Bytes
  torn : ∀ record, decodeAndVerify sha bytes ≠ .ok record

/-- How much of a failing or interrupted request was done. -/
inductive Effect where
  | nothing
  | half (torn : Torn sha)
  | whole

/-- What a copy with unsynced writes comes back as. -/
inductive Survivor where
  | old
  | written (i : Nat)
  | torn (torn : Torn sha)

inductive Loss where
  | kill
  | power (a b : Survivor sha)

inductive Fate where
  | ok
  | fail (error : MediaError) (effect : Effect sha)
  | crash (effect : Effect sha) (loss : Loss sha)

instance : Inhabited (Fate sha) := ⟨.ok⟩

variable {sha}

def CopyState.survive (c : CopyState) : Survivor sha → CopyState
  | .old => { durable := c.durable, unsynced := [] }
  | .written i => { durable := c.unsynced.getD i c.durable, unsynced := [] }
  | .torn t => if c.unsynced = [] then c else { durable := t.bytes, unsynced := [] }

def Disk.lose (d : Disk) : Loss sha → Disk
  | .kill => d
  | .power a b => { a := d.a.survive a, b := d.b.survive b }

/-- The part of a request that was done before it failed. -/
def Disk.partly (d : Disk) : MediaOp → Effect sha → Disk
  | .write _ _, .nothing => d
  | .write copy _, .half t => d.set copy ((d.get copy).write t.bytes)
  | .write copy bytes, .whole => d.set copy ((d.get copy).write bytes)
  | .sync copy, .whole => d.set copy (d.get copy).sync
  | _, _ => d

/-- The reply of a request that succeeded. -/
def reply (book : BookFile) (d : Disk) : (op : MediaOp) → MediaReply op
  | .read copy => .ok (d.get copy).cached
  | .write _ _ => .ok ()
  | .sync _ => .ok ()
  | .boundary _ => .ok ()
  | .segment index => if index.get < book.segmentCount then .ok (book.body index) else .error .io

def failure (error : MediaError) : (op : MediaOp) → MediaReply op
  | .read _ => .error error
  | .write _ _ => .error error
  | .sync _ => .error error
  | .boundary _ => .error error
  | .segment _ => .error error

variable (sha)

def media (book : BookFile) : Device MediaOp MediaReply (Fate sha) Disk :=
  fun op fate d =>
    match fate with
    | .ok => (some (reply book d op), d.partly op (.whole : Effect sha))
    | .fail error effect => (some (failure error op), d.partly op effect)
    | .crash effect loss => (none, (d.partly op effect).lose loss)

end Adversary

/-! ## What the device keeps -/

section Kept

variable (sha : Bytes → Digest)

/-- The records a copy may turn out to hold. -/
def CopyState.Holds (c : CopyState) (r : AnchorRecord) : Prop :=
  ∃ bytes ∈ c.contents, decodeAndVerify sha bytes = .ok r

/-- Every record either copy may turn out to hold is one `p` allows there. -/
def Within (p : AnchorCopy → AnchorRecord → Prop) (d : Disk) : Prop :=
  ∀ copy r, (d.get copy).Holds sha r → p copy r

/-- A copy that reads as a record reads as the newest it may hold. -/
def Newest (d : Disk) : Prop :=
  ∀ copy r, decodeAndVerify sha (d.get copy).cached = .ok r →
    ∀ older, (d.get copy).Holds sha older → older.LeadsTo r

variable {sha} {p : AnchorCopy → AnchorRecord → Prop}

theorem CopyState.holds_cached {c : CopyState} {r : AnchorRecord}
    (reads : decodeAndVerify sha c.cached = .ok r) : c.Holds sha r :=
  ⟨c.cached, c.cached_mem_contents, reads⟩

theorem CopyState.holds_write {c : CopyState} {bytes : Bytes} {r : AnchorRecord} :
    (c.write bytes).Holds sha r ↔ decodeAndVerify sha bytes = .ok r ∨ c.Holds sha r := by
  simp [Holds]

theorem CopyState.holds_sync {c : CopyState} {r : AnchorRecord} :
    c.sync.Holds sha r ↔ decodeAndVerify sha c.cached = .ok r := by
  simp [Holds]

/-- Power loss adds no record to a copy, and leaves it reading as all it may hold. -/
theorem CopyState.survive_spec (c : CopyState) (survivor : Survivor sha) :
    (∀ r, (c.survive survivor).Holds sha r → c.Holds sha r) ∧ (c.survive survivor).unsynced = [] := by
  cases survivor with
  | old =>
      refine ⟨fun r holds => ?_, rfl⟩
      obtain ⟨bytes, mem, reads⟩ := holds
      obtain rfl : bytes = c.durable := by simpa [survive, contents] using mem
      exact ⟨c.durable, by simp [contents], reads⟩
  | written i =>
      refine ⟨fun r holds => ?_, rfl⟩
      obtain ⟨bytes, mem, reads⟩ := holds
      obtain rfl : bytes = c.unsynced.getD i c.durable := by simpa [survive, contents] using mem
      refine ⟨_, ?_, reads⟩
      rw [List.getD_eq_getElem?_getD]
      cases found : c.unsynced[i]? with
      | none => simp [contents]
      | some bytes =>
          have := List.mem_of_getElem? found
          simp [contents, this]
  | torn t =>
      by_cases synced : c.unsynced = []
      · rw [survive, if_pos synced]
        exact ⟨fun r holds => holds, synced⟩
      · rw [survive, if_neg synced]
        refine ⟨fun r holds => ?_, rfl⟩
        obtain ⟨bytes, mem, reads⟩ := holds
        obtain rfl : bytes = t.bytes := by simpa [contents] using mem
        exact absurd reads (t.torn r)

/-- All a request can do to a copy. -/
theorem get_partly (d : Disk) (op : MediaOp) (effect : Effect sha) (copy : AnchorCopy) :
    (d.partly op effect).get copy = d.get copy ∨
      (∃ t : Torn sha, (d.partly op effect).get copy = (d.get copy).write t.bytes) ∨
      (∃ bytes, op = .write copy bytes ∧
        (d.partly op effect).get copy = (d.get copy).write bytes) ∨
      (d.partly op effect).get copy = (d.get copy).sync := by
  unfold Disk.partly
  split
  · exact .inl rfl
  · rename_i written _ torn
    by_cases same : copy = written
    · subst same
      exact .inr (.inl ⟨torn, Disk.get_set_same ..⟩)
    · exact .inl (Disk.get_set_ne _ _ same)
  · rename_i written bytes
    by_cases same : copy = written
    · subst same
      exact .inr (.inr (.inl ⟨bytes, rfl, Disk.get_set_same ..⟩))
    · exact .inl (Disk.get_set_ne _ _ same)
  · rename_i synced
    by_cases same : copy = synced
    · subst same
      exact .inr (.inr (.inr (Disk.get_set_same ..)))
    · exact .inl (Disk.get_set_ne _ _ same)
  · exact .inl rfl

/-- All a loss can do to a copy. -/
theorem get_lose (d : Disk) (loss : Loss sha) (copy : AnchorCopy) :
    (d.lose loss).get copy = d.get copy ∨
      ∃ survivor : Survivor sha, (d.lose loss).get copy = (d.get copy).survive survivor := by
  cases loss with
  | kill => exact .inl rfl
  | power a b => cases copy <;> exact .inr ⟨_, rfl⟩

/-- `p` allows what the request writes. -/
def Allows (sha : Bytes → Digest) (p : AnchorCopy → AnchorRecord → Prop) (op : MediaOp) : Prop :=
  ∀ copy bytes r, op = .write copy bytes → decodeAndVerify sha bytes = .ok r → p copy r

/-- What the request writes is newer than all the copy may hold. -/
def Advances (sha : Bytes → Digest) (d : Disk) (op : MediaOp) : Prop :=
  ∀ copy bytes r, op = .write copy bytes → decodeAndVerify sha bytes = .ok r →
    ∀ older, (d.get copy).Holds sha older → older.LeadsTo r

theorem partly_within {d : Disk} {op : MediaOp} {effect : Effect sha} (within : Within sha p d)
    (allows : Allows sha p op) : Within sha p (d.partly op effect) := by
  intro copy r holds
  rcases get_partly d op effect copy with same | ⟨t, torn⟩ | ⟨bytes, writes, written⟩ | synced
  · exact within copy r (same ▸ holds)
  · rw [torn, CopyState.holds_write] at holds
    exact within copy r (holds.resolve_left (t.torn r))
  · rw [written, CopyState.holds_write] at holds
    exact holds.elim (allows copy bytes r writes) (within copy r)
  · rw [synced, CopyState.holds_sync] at holds
    exact within copy r (CopyState.holds_cached holds)

theorem partly_newest {d : Disk} {op : MediaOp} {effect : Effect sha} (newest : Newest sha d)
    (advances : Advances sha d op) : Newest sha (d.partly op effect) := by
  intro copy r reads older holds
  rcases get_partly d op effect copy with same | ⟨t, torn⟩ | ⟨bytes, writes, written⟩ | synced
  · rw [same] at reads holds
    exact newest copy r reads older holds
  · rw [torn] at reads
    exact absurd reads (t.torn r)
  · rw [written] at reads holds
    rcases CopyState.holds_write.mp holds with readsOlder | holds
    · rw [CopyState.cached_write, readsOlder] at reads
      cases reads
      exact .refl r
    · exact advances copy bytes r writes reads older holds
  · rw [synced] at reads holds
    rw [CopyState.holds_sync] at holds
    rw [CopyState.cached_sync, holds] at reads
    cases reads
    exact .refl r

theorem lose_within {d : Disk} {loss : Loss sha} (within : Within sha p d) :
    Within sha p (d.lose loss) := by
  intro copy r holds
  rcases get_lose d loss copy with same | ⟨survivor, same⟩ <;> rw [same] at holds
  · exact within copy r holds
  · exact within copy r (((d.get copy).survive_spec survivor).1 r holds)

theorem lose_newest {d : Disk} {loss : Loss sha} (newest : Newest sha d) :
    Newest sha (d.lose loss) := by
  intro copy r reads older holds
  rcases get_lose d loss copy with same | ⟨survivor, same⟩ <;> rw [same] at reads holds
  · exact newest copy r reads older holds
  · have alone := CopyState.contents_of_synced ((d.get copy).survive_spec survivor).2
    obtain ⟨bytes, mem, readsOlder⟩ := holds
    rw [alone, List.mem_singleton] at mem
    rw [mem, reads] at readsOlder
    cases readsOlder
    exact .refl r

end Kept

end Jbuu.Allocator
