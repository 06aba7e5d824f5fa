/-
# Anchor.Record — anchor records, their 104 bytes, and the two-copy decision

`otp-anchor-spec`. A record is the durable pointer `next` of a book at a
`generation`, in one of three phases; `encodeRecord` / `decodeAndVerify` are its
canonical bytes and `decide` is what a start-up makes of the two copies it reads.
The hash is a parameter: nothing here depends on more than its 32-byte width.

`decodeAndVerify_encodeRecord` is the round trip on canonical records, and
`stateCmp_*` read the frozen order (generation, then INIT < INTENT < COMMIT) as
arithmetic. `LeadsTo` is the relation between an older and a newer record of one
pointer; `decide_leadsTo` and `decide_adopts` say that `decide` adopts exactly the
newer of two records that are so related.
-/
import Jbuu.Types

namespace Jbuu

set_option autoImplicit false

open Jbuu.Library.BigEndian (Bytes Exactly)

/-- `ANCHOR_RECORD_LEN`. -/
def anchorRecordLen : Nat := 104

/-- `PREFIX_LEN`: what the integrity field covers. -/
def prefixLen : Nat := 72

/-- `MAGIC`, the ASCII of `OTPA`. -/
def magic : Bytes := [0x4f, 0x54, 0x50, 0x41]

/-- `VERSION`. -/
def version : UInt16 := 2

inductive AnchorPayload where
  | init
  | intent (reserved : SegmentIndex)
  | commit (previousSegmentHash : Digest)
  deriving DecidableEq, Repr

def AnchorPayload.tag : AnchorPayload → UInt8
  | .init => 0
  | .intent _ => 1
  | .commit _ => 2

structure AnchorRecord where
  bookId : BookId
  next : SegmentIndex
  generation : Generation
  payload : AnchorPayload
  deriving DecidableEq, Repr

namespace AnchorRecord

def init (bookId : BookId) : AnchorRecord :=
  { bookId, next := .zero, generation := ⟨0⟩, payload := .init }

/-- `none` where `reserved.next()` panics. -/
def intent (bookId : BookId) (generation : Generation) (reserved : SegmentIndex) :
    Option AnchorRecord :=
  reserved.next.map fun next => { bookId, next, generation, payload := .intent reserved }

def commit (bookId : BookId) (generation : Generation) (next : SegmentIndex)
    (previousSegmentHash : Digest) : AnchorRecord :=
  { bookId, next, generation, payload := .commit previousSegmentHash }

/-- Frozen order: generation first, then INIT < INTENT < COMMIT. -/
def stateCmp (self other : AnchorRecord) : Ordering :=
  (compare self.generation.get other.generation.get).then
    (compare self.payload.tag other.payload.tag)

end AnchorRecord

inductive AnchorCopy where
  | a
  | b
  deriving DecidableEq, Repr

def AnchorCopy.other : AnchorCopy → AnchorCopy
  | .a => .b
  | .b => .a

inductive ReadFailure where
  | corrupt
  | unreadable
  deriving DecidableEq, Repr

inductive AnchorSpecError where
  | decodeFailed (reason : String)
  | integrityCheckFailed
  deriving DecidableEq, Repr

inductive RecoveryDecision where
  | consistent (record : AnchorRecord)
  | adoptHigher (adopted : AnchorRecord) (stale : AnchorCopy)
  | quarantineCorrupt (copy : AnchorCopy) (reason : String)
  | cannotProveSafe (reason : String)
  | bothUnreadable
  deriving DecidableEq, Repr

/-! ## The 104 bytes -/

/-- The 32-byte payload field. -/
def AnchorPayload.bytes : AnchorPayload → Bytes
  | .init => List.replicate 32 0
  | .intent reserved => u64Bytes reserved.get ++ List.replicate 24 0
  | .commit hash => hash.val

@[simp] theorem AnchorPayload.length_bytes (p : AnchorPayload) : p.bytes.length = 32 := by
  cases p <;> simp [bytes]

/-- The record without its integrity field: `bytes[..PREFIX_LEN]`. -/
def recordPrefix (record : AnchorRecord) : Bytes :=
  magic ++ (u16Bytes version ++ (record.payload.tag :: 0 :: (record.bookId.asBytes.val ++
    (u64Bytes record.generation.get ++ (u64Bytes record.next.get ++ record.payload.bytes)))))

@[simp] theorem length_recordPrefix (record : AnchorRecord) :
    (recordPrefix record).length = 72 := by
  simp [recordPrefix, magic]

def encodeRecord (sha : Bytes → Digest) (record : AnchorRecord) : Bytes :=
  recordPrefix record ++ (sha (recordPrefix record)).val

@[simp] theorem length_encodeRecord (sha : Bytes → Digest) (record : AnchorRecord) :
    (encodeRecord sha record).length = 104 := by
  simp [encodeRecord]

/-- The payload of a record whose prefix has been verified. -/
def decodePayload (buf : Bytes) (generation next : UInt64) : Except AnchorSpecError AnchorPayload :=
  if byteAt buf 6 = 0 then
    if generation ≠ 0 ∨ next ≠ 0 ∨ (slice buf 40 72).any (· ≠ 0) then
      .error (.decodeFailed "non-canonical-init")
    else .ok .init
  else if byteAt buf 6 = 1 then
    if next = 0 ∨ (slice buf 48 72).any (· ≠ 0) then
      .error (.decodeFailed "non-canonical-intent")
    else if checkedAdd (u64Of (slice buf 40 48)) 1 ≠ some next then
      .error (.decodeFailed "intent-index")
    else .ok (.intent ⟨u64Of (slice buf 40 48)⟩)
  else if byteAt buf 6 = 2 then
    if next = 0 then .error (.decodeFailed "non-canonical-commit")
    else .ok (.commit (sliceExactly 32 buf 40))
  else .error (.decodeFailed "record-type")

def decodeAndVerify (sha : Bytes → Digest) (buf : Bytes) : Except AnchorSpecError AnchorRecord :=
  if buf.length ≠ anchorRecordLen then .error (.decodeFailed "length")
  else if slice buf 0 4 ≠ magic then .error (.decodeFailed "magic")
  else if u16Of (slice buf 4 6) ≠ version then .error (.decodeFailed "version")
  else if byteAt buf 7 ≠ 0 then .error (.decodeFailed "flags")
  else if (sha (slice buf 0 prefixLen)).val ≠ slice buf prefixLen anchorRecordLen then
    .error .integrityCheckFailed
  else
    let generation := u64Of (slice buf 24 32)
    let next := u64Of (slice buf 32 40)
    match decodePayload buf generation next with
    | .error e => .error e
    | .ok payload =>
        .ok { bookId := ⟨sliceExactly 16 buf 8⟩, next := ⟨next⟩, generation := ⟨generation⟩, payload }

/-- The records the format has a place for (spec table 2.2). -/
def AnchorRecord.Canonical (r : AnchorRecord) : Prop :=
  match r.payload with
  | .init => r.generation.get = 0 ∧ r.next.get = 0
  | .intent reserved => reserved.next = some r.next
  | .commit _ => r.next.get ≠ 0

/-! ### Reading back the fields of an encoded record -/

section Fields

variable (sha : Bytes → Digest) (r : AnchorRecord)

theorem slice_prefix : slice (encodeRecord sha r) 0 72 = recordPrefix r := by
  simp [slice, encodeRecord]

theorem slice_integrity : slice (encodeRecord sha r) 72 104 = (sha (recordPrefix r)).val := by
  simp [slice, encodeRecord, List.take_of_length_le]

/-- A field that lies inside the prefix is read from the prefix. -/
theorem slice_encodeRecord {start stop : Nat} (inside : stop ≤ 72) :
    slice (encodeRecord sha r) start stop = slice (recordPrefix r) start stop := by
  apply slice_append
  simpa using inside

theorem byteAt_encodeRecord {i : Nat} (inside : i < 72) :
    byteAt (encodeRecord sha r) i = byteAt (recordPrefix r) i := by
  apply byteAt_append
  simpa using inside

theorem slice_payload : slice (recordPrefix r) 40 72 = r.payload.bytes := by
  simp [slice, recordPrefix, magic, List.drop_append, List.take_of_length_le,
    List.drop_of_length_le]

theorem decodePayload_encodeRecord (canonical : r.Canonical) :
    decodePayload (encodeRecord sha r) r.generation.get r.next.get = .ok r.payload := by
  have kind : byteAt (encodeRecord sha r) 6 = r.payload.tag := by
    rw [byteAt_encodeRecord sha r (by decide)]
    simp [byteAt, recordPrefix, magic, u16Bytes, version, Library.BigEndian.encode]
  have body : slice (encodeRecord sha r) 40 72 = r.payload.bytes := by
    rw [slice_encodeRecord sha r le_rfl, slice_payload]
  have split (n : Nat) (small : n ≤ 32) :
      slice (encodeRecord sha r) 40 (40 + n) = r.payload.bytes.take n ∧
        slice (encodeRecord sha r) (40 + n) 72 = r.payload.bytes.drop n := by
    rw [← body]
    simp only [slice, List.take_take, List.drop_take, List.drop_drop]
    constructor <;> congr 1 <;> omega
  obtain ⟨bookId, next, generation, payload⟩ := r
  cases payload with
  | init =>
      obtain ⟨rfl, rfl⟩ : generation = ⟨0⟩ ∧ next = ⟨0⟩ := by
        obtain ⟨g, n⟩ := canonical
        exact ⟨congrArg Generation.mk g, congrArg SegmentIndex.mk n⟩
      simp only [decodePayload, kind, body]
      simp [AnchorPayload.tag, AnchorPayload.bytes]
  | intent reserved =>
      have successor : checkedAdd reserved.get 1 = some next.get := by
        simp only [AnchorRecord.Canonical, SegmentIndex.next, Option.map_eq_some_iff] at canonical
        obtain ⟨value, sum, rfl⟩ := canonical
        exact sum
      have positive : next.get ≠ 0 := by
        intro zero
        have := (checkedAdd_eq_some.mp successor).2
        simp [zero] at this
      obtain ⟨low, high⟩ := split 8 (by decide)
      simp only [decodePayload, kind, high, low]
      simp [AnchorPayload.tag, AnchorPayload.bytes, successor, positive]
  | commit hash =>
      have positive : next.get ≠ 0 := canonical
      have exact_ : sliceExactly 32 (encodeRecord sha ⟨bookId, next, generation, .commit hash⟩) 40
          = hash := sliceExactly_eq hash body
      simp only [decodePayload, kind, exact_]
      simp [AnchorPayload.tag, positive]

/-- **The codec reads back every canonical record.** -/
theorem decodeAndVerify_encodeRecord (canonical : r.Canonical) :
    decodeAndVerify sha (encodeRecord sha r) = .ok r := by
  have magic_ : slice (encodeRecord sha r) 0 4 = magic := by
    rw [slice_encodeRecord sha r (by decide)]
    simp [slice, recordPrefix, magic]
  have version_ : slice (encodeRecord sha r) 4 6 = u16Bytes version := by
    rw [slice_encodeRecord sha r (by decide)]
    simp [slice, recordPrefix, magic]
  have flags : byteAt (encodeRecord sha r) 7 = 0 := by
    rw [byteAt_encodeRecord sha r (by decide)]
    simp [byteAt, recordPrefix, magic, u16Bytes, version, Library.BigEndian.encode]
  have id : slice (encodeRecord sha r) 8 24 = r.bookId.asBytes.val := by
    rw [slice_encodeRecord sha r (by decide)]
    simp [slice, recordPrefix, magic, List.drop_append, List.drop_of_length_le]
  have generation : slice (encodeRecord sha r) 24 32 = u64Bytes r.generation.get := by
    rw [slice_encodeRecord sha r (by decide)]
    simp [slice, recordPrefix, magic, List.drop_append, List.drop_of_length_le]
  have next : slice (encodeRecord sha r) 32 40 = u64Bytes r.next.get := by
    rw [slice_encodeRecord sha r (by decide)]
    simp [slice, recordPrefix, magic, List.drop_append, List.drop_of_length_le]
  have idExactly : sliceExactly 16 (encodeRecord sha r) 8 = r.bookId.asBytes :=
    sliceExactly_eq _ id
  simp only [decodeAndVerify, anchorRecordLen, prefixLen, length_encodeRecord, magic_, version_,
    flags, slice_prefix, slice_integrity, generation, next, u64Of_u64Bytes, u16Of_u16Bytes,
    decodePayload_encodeRecord sha r canonical, idExactly, ne_eq, not_true_eq_false, if_false]

end Fields

theorem decodePayload_canonical {buf : Bytes} {bookId : BookId} {generation next : UInt64}
    {payload : AnchorPayload} (reads : decodePayload buf generation next = .ok payload) :
    AnchorRecord.Canonical ⟨bookId, ⟨next⟩, ⟨generation⟩, payload⟩ := by
  unfold decodePayload at reads
  by_cases init : byteAt buf 6 = 0
  · rw [if_pos init] at reads
    split at reads
    · cases reads
    · rename_i clean
      obtain rfl := Except.ok.inj reads
      obtain ⟨noGeneration, noNext, -⟩ := by simpa only [not_or, not_not] using clean
      exact ⟨noGeneration, noNext⟩
  rw [if_neg init] at reads
  by_cases intent : byteAt buf 6 = 1
  · rw [if_pos intent] at reads
    split at reads
    · cases reads
    · split at reads
      · cases reads
      · rename_i successor
        obtain rfl := Except.ok.inj reads
        show SegmentIndex.next _ = _
        simp [SegmentIndex.next, not_not.mp successor]
  rw [if_neg intent] at reads
  split at reads
  · split at reads
    · cases reads
    · rename_i positive
      obtain rfl := Except.ok.inj reads
      exact positive
  · cases reads

/-- Only canonical records are read back. -/
theorem decodeAndVerify_canonical {sha : Bytes → Digest} {buf : Bytes} {r : AnchorRecord}
    (reads : decodeAndVerify sha buf = .ok r) : r.Canonical := by
  simp only [decodeAndVerify] at reads
  -- length, magic, version, flags and integrity
  iterate 5
    split at reads
    · cases reads
  split at reads
  · cases reads
  · rename_i payload
    obtain rfl := Except.ok.inj reads
    exact decodePayload_canonical payload

/-! ## The frozen order -/

theorem compare_u64 (x y : UInt64) : compare x y = compare x.toNat y.toNat := by
  simp only [compare, compareOfLessAndEq, UInt64.lt_iff_toNat_lt, ← UInt64.toNat_inj]

theorem compare_u8 (x y : UInt8) : compare x y = compare x.toNat y.toNat := by
  simp only [compare, compareOfLessAndEq, UInt8.lt_iff_toNat_lt, ← UInt8.toNat_inj]

namespace AnchorRecord

/-- `a` comes before `b` in the frozen order. -/
def Before (a b : AnchorRecord) : Prop :=
  a.generation.get.toNat < b.generation.get.toNat ∨
    a.generation = b.generation ∧ a.payload.tag.toNat < b.payload.tag.toNat

instance (a b : AnchorRecord) : Decidable (a.Before b) := by unfold Before; infer_instance

/-- `a` and `b` are level in the frozen order. -/
def Level (a b : AnchorRecord) : Prop :=
  a.generation = b.generation ∧ a.payload.tag = b.payload.tag

theorem generation_eq_iff {a b : AnchorRecord} :
    a.generation = b.generation ↔ a.generation.get.toNat = b.generation.get.toNat := by
  obtain ⟨_, _, ⟨x⟩, _⟩ := a
  obtain ⟨_, _, ⟨y⟩, _⟩ := b
  simp [UInt64.toNat_inj]

theorem stateCmp_eq_lt {a b : AnchorRecord} : a.stateCmp b = .lt ↔ a.Before b := by
  simp only [stateCmp, Before, compare_u64, compare_u8, generation_eq_iff, Ordering.then_eq_lt,
    Nat.compare_eq_lt, Nat.compare_eq_eq]

theorem stateCmp_eq_eq {a b : AnchorRecord} : a.stateCmp b = .eq ↔ a.Level b := by
  simp only [stateCmp, Level, compare_u64, compare_u8, generation_eq_iff, Ordering.then_eq_eq,
    Nat.compare_eq_eq, UInt8.toNat_inj]

theorem stateCmp_eq_gt {a b : AnchorRecord} : a.stateCmp b = .gt ↔ b.Before a := by
  simp only [stateCmp, Before, compare_u64, compare_u8, generation_eq_iff, Ordering.then_eq_gt,
    Nat.compare_eq_gt, Nat.compare_eq_eq]
  rw [eq_comm]

theorem Before.asymm {a b : AnchorRecord} (before : a.Before b) : ¬b.Before a := by
  simp only [Before, generation_eq_iff] at before ⊢
  omega

theorem Before.trans {a b c : AnchorRecord} (ab : a.Before b) (bc : b.Before c) : a.Before c := by
  simp only [Before, generation_eq_iff] at ab bc ⊢
  omega

theorem Before.generation_le {a b : AnchorRecord} (before : a.Before b) :
    a.generation.get.toNat ≤ b.generation.get.toNat := by
  simp only [Before, generation_eq_iff] at before
  omega

/-- `b` is `a` or a later record of the same pointer: it comes after `a` in the frozen
order and its pointer is no lower. -/
def LeadsTo (a b : AnchorRecord) : Prop :=
  a = b ∨ a.Before b ∧ a.next.get.toNat ≤ b.next.get.toNat

theorem LeadsTo.refl (a : AnchorRecord) : a.LeadsTo a := .inl rfl

theorem LeadsTo.trans {a b c : AnchorRecord} (ab : a.LeadsTo b) (bc : b.LeadsTo c) :
    a.LeadsTo c := by
  rcases ab with rfl | ⟨ab, low⟩
  · exact bc
  · rcases bc with rfl | ⟨bc, high⟩
    · exact .inr ⟨ab, low⟩
    · exact .inr ⟨ab.trans bc, low.trans high⟩

theorem LeadsTo.next_le {a b : AnchorRecord} (leads : a.LeadsTo b) :
    a.next.get.toNat ≤ b.next.get.toNat := by
  rcases leads with rfl | ⟨_, le⟩
  · exact le_rfl
  · exact le

theorem LeadsTo.generation_le {a b : AnchorRecord} (leads : a.LeadsTo b) :
    a.generation.get.toNat ≤ b.generation.get.toNat := by
  rcases leads with rfl | ⟨before, _⟩
  · exact le_rfl
  · exact before.generation_le

theorem LeadsTo.antisymm {a b : AnchorRecord} (ab : a.LeadsTo b) (ba : b.LeadsTo a) : a = b := by
  rcases ab with same | ⟨before, _⟩
  · exact same
  · rcases ba with same | ⟨after, _⟩
    · exact same.symm
    · exact absurd after before.asymm

end AnchorRecord

/-! ## The two-copy decision -/

/-- `decide` on two copies of one book that were read and verified. -/
def decideReadable (a b : AnchorRecord) : RecoveryDecision :=
  if a.bookId ≠ b.bookId then .cannotProveSafe "book-id-mismatch"
  else
    match a.stateCmp b with
    | .eq => if a = b then .consistent a else .cannotProveSafe "same-order-different-bytes"
    | .gt =>
        if b.next.get ≤ a.next.get then .adoptHigher a .b else .cannotProveSafe "order-contradiction"
    | .lt =>
        if a.next.get ≤ b.next.get then .adoptHigher b .a else .cannotProveSafe "order-contradiction"

def decide (a b : Except ReadFailure AnchorRecord) : RecoveryDecision :=
  match a, b with
  | .error .unreadable, .error .unreadable => .bothUnreadable
  | .error _, .ok _ => .quarantineCorrupt .a "anchor-a-invalid"
  | .ok _, .error _ => .quarantineCorrupt .b "anchor-b-invalid"
  | .error _, .error _ => .cannotProveSafe "both-anchors-invalid"
  | .ok a, .ok b => decideReadable a b

/-- The stale copy of a pair, from which of the two is the newer one. -/
theorem decide_leadsTo {a b : AnchorRecord} (book : a.bookId = b.bookId) (leads : a.LeadsTo b) :
    decide (.ok a) (.ok b) = (if a = b then .consistent b else .adoptHigher b .a) ∧
      decide (.ok b) (.ok a) = (if a = b then .consistent b else .adoptHigher b .b) := by
  rcases leads with rfl | ⟨before, le⟩
  · have level : a.stateCmp a = .eq := AnchorRecord.stateCmp_eq_eq.mpr ⟨rfl, rfl⟩
    simp [decide, decideReadable, level]
  · have lt : a.stateCmp b = .lt := AnchorRecord.stateCmp_eq_lt.mpr before
    have gt : b.stateCmp a = .gt := AnchorRecord.stateCmp_eq_gt.mpr before
    have differ : a ≠ b := by
      rintro rfl
      exact before.asymm before
    have le' : a.next.get ≤ b.next.get := UInt64.le_iff_toNat_le.mpr le
    simp [decide, decideReadable, book, lt, gt, differ, le']

/-- **What is adopted is the newer of the two copies**, and the other one, where they
differ, is the stale one. -/
theorem decide_adopts (a b : AnchorRecord) :
    match decide (.ok a) (.ok b) with
    | .consistent r => a = r ∧ b = r
    | .adoptHigher r .a => b = r ∧ a.LeadsTo r
    | .adoptHigher r .b => a = r ∧ b.LeadsTo r
    | _ => True := by
  simp only [decide, decideReadable]
  by_cases book : a.bookId = b.bookId
  · rw [if_neg (not_not.mpr book)]
    cases order : a.stateCmp b with
    | eq =>
        by_cases same : a = b <;> simp [same]
    | gt =>
        have before := AnchorRecord.stateCmp_eq_gt.mp order
        by_cases le : b.next.get ≤ a.next.get
        · simp only [if_pos le]
          exact ⟨trivial, .inr ⟨before, UInt64.le_iff_toNat_le.mp le⟩⟩
        · simp [le]
    | lt =>
        have before := AnchorRecord.stateCmp_eq_lt.mp order
        by_cases le : a.next.get ≤ b.next.get
        · simp only [if_pos le]
          exact ⟨trivial, .inr ⟨before, UInt64.le_iff_toNat_le.mp le⟩⟩
        · simp [le]
  · rw [if_pos book]
    trivial

/-- What a decision adopts and the copy it finds stale, `none` where it refuses. -/
def RecoveryDecision.settled : RecoveryDecision → Option (AnchorRecord × Option AnchorCopy)
  | .consistent record => some (record, none)
  | .adoptHigher record stale => some (record, some stale)
  | _ => none

/-- The newer of two records of one book, and the copy that holds the other one. -/
inductive Settles (a b : AnchorRecord) : AnchorRecord → Option AnchorCopy → Prop
  | level (same : a = b) : Settles a b b none
  | behind (before : a.Before b) (le : a.next.get ≤ b.next.get) : Settles a b b (some .a)
  | ahead (before : b.Before a) (le : b.next.get ≤ a.next.get) : Settles a b a (some .b)

theorem settled_decideReadable {a b r : AnchorRecord} {stale : Option AnchorCopy} :
    (decideReadable a b).settled = some (r, stale) ↔ a.bookId = b.bookId ∧ Settles a b r stale := by
  unfold decideReadable
  by_cases book : a.bookId = b.bookId
  · rw [if_neg (not_not.mpr book)]
    constructor
    · intro settled
      refine ⟨book, ?_⟩
      cases order : a.stateCmp b with
      | eq =>
          by_cases same : a = b
          · simp only [order, if_pos same, RecoveryDecision.settled, Option.some.injEq,
              Prod.mk.injEq] at settled
            obtain ⟨rfl, rfl⟩ := settled
            exact same ▸ .level rfl
          · simp [order, if_neg same, RecoveryDecision.settled] at settled
      | gt =>
          by_cases le : b.next.get ≤ a.next.get
          · simp only [order, if_pos le, RecoveryDecision.settled, Option.some.injEq,
              Prod.mk.injEq] at settled
            obtain ⟨rfl, rfl⟩ := settled
            exact .ahead (AnchorRecord.stateCmp_eq_gt.mp order) le
          · simp [order, if_neg le, RecoveryDecision.settled] at settled
      | lt =>
          by_cases le : a.next.get ≤ b.next.get
          · simp only [order, if_pos le, RecoveryDecision.settled, Option.some.injEq,
              Prod.mk.injEq] at settled
            obtain ⟨rfl, rfl⟩ := settled
            exact .behind (AnchorRecord.stateCmp_eq_lt.mp order) le
          · simp [order, if_neg le, RecoveryDecision.settled] at settled
    · rintro ⟨-, settles⟩
      cases settles with
      | level same =>
          subst same
          have level : a.stateCmp a = .eq := AnchorRecord.stateCmp_eq_eq.mpr ⟨rfl, rfl⟩
          simp [level, RecoveryDecision.settled]
      | behind before le =>
          simp [AnchorRecord.stateCmp_eq_lt.mpr before, le, RecoveryDecision.settled]
      | ahead before le =>
          simp [AnchorRecord.stateCmp_eq_gt.mpr before, le, RecoveryDecision.settled]
  · rw [if_pos book]
    simp [book, RecoveryDecision.settled]

/-- **`decide` settles on the newer copy**, of two copies of one book, and on nothing else. -/
theorem settled_decide_iff {x y : Except ReadFailure AnchorRecord} {r : AnchorRecord}
    {stale : Option AnchorCopy} : (decide x y).settled = some (r, stale) ↔
      ∃ a b, x = .ok a ∧ y = .ok b ∧ a.bookId = b.bookId ∧ Settles a b r stale := by
  rcases x with e | a
  · rcases y with e' | b
    · rcases e with _ | _ <;> rcases e' with _ | _ <;> simp [decide, RecoveryDecision.settled]
    · simp [decide, RecoveryDecision.settled]
  · rcases y with e' | b
    · simp [decide, RecoveryDecision.settled]
    · simp [decide, settled_decideReadable]

end Jbuu
