/-
# Book.Inspect — one pass over a whole book

`inspect_book` of `otp-book/src/inspect.rs` reads every segment once, with a table of the first
index of every hash, two capped lists of findings and counters of 64 bits. Floating point is a
parameter: the quotient, the band it is checked against and its six digits.

`Tally.Of` says what the pass has gathered of the segments read so far; `Tally.Of.scan` is the
step, `scanSegments_eq_ok` the run. Where the hash tells the segments of the book apart the report
is the classification of the segments themselves (`inspection_classifies`).
-/
import Jbuu.Book.File
import Jbuu.Library.Repeats

namespace Jbuu.Book

set_option autoImplicit false

open Jbuu.Library.BigEndian (Bytes Exactly)
open Jbuu.Library

/-- `MAX_LISTED`. -/
def maxListed : Nat := 16

structure DuplicatePair where
  first : UInt64
  other : UInt64
  deriving DecidableEq, Repr

/-- The `f64` of a report. -/
structure Floats (F : Type) where
  zero : F
  /-- the quotient of two counts -/
  ratio : UInt64 → UInt64 → F
  /-- whether a ratio lies in `0.5 ± ONES_RATIO_BAND` -/
  inBand : F → Bool
  /-- the format `{:.6}` -/
  fixed : F → String

structure InspectReport (F : Type) where
  header : BookHeader
  fileSize : UInt64
  duplicateCount : UInt64
  duplicates : List DuplicatePair
  zeroSegmentCount : UInt64
  zeroSegments : List UInt64
  /-- the 256 buckets -/
  byteFreq : UInt8 → UInt64
  onesRatio : F
  warnings : List String
  ok : Bool

/-- What the pass keeps. -/
structure Tally where
  firstSeen : Digest → Option UInt64
  duplicates : List DuplicatePair
  duplicateCount : UInt64
  zeroSegments : List UInt64
  zeroSegmentCount : UInt64
  byteFreq : UInt8 → UInt64
  ones : UInt64

namespace Tally

def empty : Tally :=
  { firstSeen := fun _ => none, duplicates := [], duplicateCount := 0, zeroSegments := [], zeroSegmentCount := 0,
    byteFreq := fun _ => 0, ones := 0 }

/-- `u8::count_ones`. -/
def countOnes (b : UInt8) : Nat := (List.range 8).countP b.toNat.testBit

def countByte (t : Tally) (b : UInt8) : Tally :=
  { t with
    byteFreq := Function.update t.byteFreq b (t.byteFreq b + 1)
    ones := t.ones + UInt64.ofNat (countOnes b) }

def noteZero (t : Tally) (i : UInt64) : Tally :=
  { t with
    zeroSegmentCount := t.zeroSegmentCount + 1
    zeroSegments := if t.zeroSegments.length < maxListed then t.zeroSegments ++ [i] else t.zeroSegments }

def noteHash (t : Tally) (i : UInt64) (hash : Digest) : Tally :=
  match t.firstSeen hash with
  | some first =>
      { t with
        duplicateCount := t.duplicateCount + 1
        duplicates := if t.duplicates.length < maxListed then t.duplicates ++ [⟨first, i⟩] else t.duplicates }
  | none => { t with firstSeen := Function.update t.firstSeen hash (some i) }

/-- One turn of the loop. -/
def scan (sha : Bytes → Digest) (t : Tally) (i : UInt64) (segment : Bytes) : Tally :=
  let counted := segment.foldl countByte t
  let checked := if segment.all (· = 0) then counted.noteZero i else counted
  checked.noteHash i (sha segment)

end Tally

/-- The turns from index `i` on, on what follows in the file; `fails` are the reads that fail. -/
def scanSegments (sha : Bytes → Digest) (fails : Nat → Bool) : (remaining i : Nat) → Bytes → Tally → Except BookError Tally
  | 0, _, _, t => .ok t
  | remaining + 1, i, rest, t =>
      if fails i || rest.length < segmentLen then .error .io
      else scanSegments sha fails remaining (i + 1) (rest.drop segmentLen)
        (t.scan sha (UInt64.ofNat i) (rest.take segmentLen))

/-- What the system answers to `inspect_book`. -/
structure InspectAnswers where
  opening : OpenAnswers
  clone : Bool
  /-- the read of the header fails -/
  head : Bool
  /-- the read of a segment fails -/
  segment : Nat → Bool

def duplicatesWarning : String := "duplicate-segments（内容重复段：健康检查失败项）"

def zeroesWarning : String := "all-zero-segments（全零段：健康检查失败项）"

def bandWarning : String :=
  "ones-ratio-out-of-band（bit=1 比例偏离 0.5±0.02：仅统计告警，不构成随机性证明）"

/-- `saturating_mul`. -/
def saturatingMul (a b : UInt64) : UInt64 := UInt64.ofNat (min (a.toNat * b.toNat) (2 ^ 64 - 1))

/-- The end of `inspect_book`. -/
def reportOf {F : Type} (floats : Floats F) (header : BookHeader) (t : Tally) : InspectReport F :=
  let totalBits := header.segmentCount * 64 * 8
  let onesRatio := if totalBits = 0 then floats.zero else floats.ratio t.ones totalBits
  { header
    fileSize := saturatingAdd (UInt64.ofNat headerLen)
      (saturatingMul header.segmentCount (UInt64.ofNat segmentLen)).toNat
    duplicateCount := t.duplicateCount
    duplicates := t.duplicates
    zeroSegmentCount := t.zeroSegmentCount
    zeroSegments := t.zeroSegments
    byteFreq := t.byteFreq
    onesRatio
    warnings :=
      (if 0 < t.duplicateCount then [duplicatesWarning] else []) ++
        (if 0 < t.zeroSegmentCount then [zeroesWarning] else []) ++
        (if floats.inBand onesRatio then [] else [bandWarning])
    ok := t.duplicateCount == 0 && t.zeroSegmentCount == 0 }

def inspectBook {F : Type} (floats : Floats F) (sha : Bytes → Digest) (a : InspectAnswers) (file : Bytes) :
    Except BookError (InspectReport F) := do
  let header ← openValidated sha a.opening file
  if !a.clone || a.head || file.length < headerLen then throw .io
  let t ← scanSegments sha a.segment header.segmentCount.toNat 0 (file.drop headerLen) .empty
  return reportOf floats header t

/-! ## What the pass has gathered -/

/-- The body of segment `i`. -/
def body (file : Bytes) (i : Nat) : Bytes := slice file (headerLen + 64 * i) (headerLen + 64 * i + 64)

/-- The first `n` segments. -/
def segments (file : Bytes) (n : Nat) : List Bytes := (List.range n).map (body file)

def zeroes : Bytes := List.replicate 64 0

theorem segments_succ (file : Bytes) (n : Nat) : segments file (n + 1) = segments file n ++ [body file n] := by
  simp [segments, List.range_succ]

/-- A list that is capped gets one more element only while it is not full. -/
theorem take_concat {α : Type} (n : Nat) (xs : List α) (x : α) :
    (xs ++ [x]).take n = if (xs.take n).length < n then xs.take n ++ [x] else xs.take n := by
  rcases Nat.lt_or_ge xs.length n with room | full
  · have len : (xs.take n).length < n := by rw [List.length_take]; omega
    rw [if_pos len, List.take_of_length_le (by simp; omega), List.take_of_length_le room.le]
  · have len : ¬(xs.take n).length < n := by rw [List.length_take]; omega
    rw [if_neg len, List.take_append_of_le_length full]

theorem ofNat_succ (n : Nat) : UInt64.ofNat n + 1 = UInt64.ofNat (n + 1) := (UInt64.ofNat_add n 1).symm

/-- The report of a repeat. -/
def pairOf (r : Nat × Nat) : DuplicatePair := ⟨UInt64.ofNat r.1, UInt64.ofNat r.2⟩

namespace Tally

variable {sha : Bytes → Digest} {hashes : List Digest} {bodies : List Bytes} {t : Tally}

/-- What is known of the hashes. -/
structure Seen (hashes : List Digest) (t : Tally) : Prop where
  firstSeen : ∀ hash, t.firstSeen hash = (firstOf hashes hash).map UInt64.ofNat
  duplicates : t.duplicates = ((repeats hashes).take maxListed).map pairOf
  duplicateCount : t.duplicateCount = UInt64.ofNat (repeats hashes).length

/-- The tally of the segments `bodies`. -/
structure Of (sha : Bytes → Digest) (bodies : List Bytes) (t : Tally) : Prop where
  seen : t.Seen (bodies.map sha)
  zeroSegments : t.zeroSegments = ((places zeroes bodies).take maxListed).map UInt64.ofNat
  zeroSegmentCount : t.zeroSegmentCount = UInt64.ofNat (places zeroes bodies).length
  byteFreq : ∀ b, t.byteFreq b = UInt64.ofNat (bodies.flatten.count b)

theorem Of.empty : Of sha [] .empty := ⟨⟨fun _ => rfl, rfl, rfl⟩, rfl, rfl, fun _ => rfl⟩

/-- The byte loop touches the frequencies and the ones only. -/
theorem foldl_countByte (segment : Bytes) (t : Tally) :
    ∃ byteFreq ones, segment.foldl countByte t = { t with byteFreq, ones } ∧
      ∀ b, byteFreq b = t.byteFreq b + UInt64.ofNat (segment.count b) := by
  induction segment generalizing t with
  | nil => exact ⟨t.byteFreq, t.ones, rfl, fun b => (UInt64.add_zero _).symm⟩
  | cons x segment ih =>
      obtain ⟨byteFreq, ones, same, freq⟩ := ih (t.countByte x)
      refine ⟨byteFreq, ones, same, fun b => ?_⟩
      rw [freq b, List.count_cons]
      by_cases here : x = b
      · subst here
        simp only [countByte, Function.update_self, beq_self_eq_true, if_true]
        rw [← ofNat_succ, UInt64.add_assoc, UInt64.add_comm 1]
      · have other : (x == b) = false := by simpa using here
        simp only [countByte, Function.update_of_ne (Ne.symm here), other, Bool.false_eq_true, if_false, Nat.add_zero]

theorem all_zero_iff {segment : Bytes} (len : segment.length = 64) :
    segment.all (· = 0) = true ↔ segment = zeroes := by
  rw [List.all_eq_true, zeroes, List.eq_replicate_iff]
  simp [len]

section NoteHash

variable (t) (i : UInt64) (hash : Digest)

@[simp] theorem noteHash_zeroSegments : (t.noteHash i hash).zeroSegments = t.zeroSegments := by
  unfold noteHash
  split <;> rfl

@[simp] theorem noteHash_zeroSegmentCount : (t.noteHash i hash).zeroSegmentCount = t.zeroSegmentCount := by
  unfold noteHash
  split <;> rfl

@[simp] theorem noteHash_byteFreq : (t.noteHash i hash).byteFreq = t.byteFreq := by
  unfold noteHash
  split <;> rfl

end NoteHash

/-- One hash more: a repeat of one that is known, or a new entry of the table. -/
theorem Seen.noteHash (seen : t.Seen hashes) (hash : Digest) :
    (t.noteHash (UInt64.ofNat hashes.length) hash).Seen (hashes ++ [hash]) := by
  have listed : t.duplicates.length = ((repeats hashes).take maxListed).length := by
    rw [seen.duplicates, List.length_map]
  have found := seen.firstSeen hash
  have grown := repeats_concat hashes hash
  by_cases known : hash ∈ hashes
  · rw [firstOf_of_mem known, Option.map_some] at found
    rw [if_pos known] at grown
    refine ⟨fun other => ?_, ?_, ?_⟩
    · simp only [Tally.noteHash, found, seen.firstSeen other, firstOf_concat_of_mem known]
    · simp only [Tally.noteHash, found, listed, grown, take_concat]
      split <;> simp [seen.duplicates, pairOf]
    · simp only [Tally.noteHash, found, grown, List.length_append, List.length_singleton, seen.duplicateCount]
      exact ofNat_succ _
  · rw [firstOf_of_notMem known, Option.map_none] at found
    rw [if_neg known, List.append_nil] at grown
    refine ⟨fun other => ?_, ?_, ?_⟩
    · simp only [Tally.noteHash, found, firstOf_concat_of_notMem known]
      by_cases here : other = hash
      · rw [here, Function.update_self, if_pos rfl, Option.map_some]
      · rw [Function.update_of_ne here, if_neg here, seen.firstSeen other]
    · simp only [Tally.noteHash, found, grown, seen.duplicates]
    · simp only [Tally.noteHash, found, grown, seen.duplicateCount]

theorem Seen.noteZero {i : UInt64} (seen : t.Seen hashes) : (t.noteZero i).Seen hashes :=
  ⟨seen.firstSeen, seen.duplicates, seen.duplicateCount⟩

/-- **One turn.** -/
theorem Of.scan (gathered : t.Of sha bodies) {segment : Bytes} (len : segment.length = 64) :
    (t.scan sha (UInt64.ofNat bodies.length) segment).Of sha (bodies ++ [segment]) := by
  obtain ⟨byteFreq, ones, counted, freq⟩ := foldl_countByte segment t
  have total (b : UInt8) : byteFreq b = UInt64.ofNat ((bodies ++ [segment]).flatten.count b) := by
    rw [freq b, gathered.byteFreq b, ← UInt64.ofNat_add]
    simp [List.count_append]
  have grown := places_concat zeroes segment bodies
  have listed : t.zeroSegments.length = ((places zeroes bodies).take maxListed).length := by
    rw [gathered.zeroSegments, List.length_map]
  have seen : Seen (bodies.map sha) { t with byteFreq, ones } :=
    ⟨gathered.seen.firstSeen, gathered.seen.duplicates, gathered.seen.duplicateCount⟩
  unfold Tally.scan
  rw [counted]
  by_cases zero : segment = zeroes
  · simp only [(all_zero_iff len).mpr zero, if_true]
    rw [if_pos zero] at grown
    refine ⟨?_, ?_, ?_, fun b => ?_⟩
    · rw [List.map_append, List.map_singleton, ← List.length_map (f := sha)]
      exact seen.noteZero.noteHash _
    · simp only [noteHash_zeroSegments, noteZero, listed, grown, take_concat]
      split <;> simp [gathered.zeroSegments]
    · simp only [noteHash_zeroSegmentCount, noteZero, grown, List.length_append, List.length_singleton,
        gathered.zeroSegmentCount]
      exact ofNat_succ _
    · simp only [noteHash_byteFreq, noteZero, total b]
  · simp only [mt (all_zero_iff len).mp zero, Bool.false_eq_true, if_false]
    rw [if_neg zero, List.append_nil] at grown
    refine ⟨?_, ?_, ?_, fun b => ?_⟩
    · rw [List.map_append, List.map_singleton, ← List.length_map (f := sha)]
      exact seen.noteHash _
    · simp only [noteHash_zeroSegments, grown, gathered.zeroSegments]
    · simp only [noteHash_zeroSegmentCount, grown, gathered.zeroSegmentCount]
    · simp only [noteHash_byteFreq, total b]

end Tally

/-! ## The pass -/

section Pass

variable {sha : Bytes → Digest} {fails : Nat → Bool} {file : Bytes} {t : Tally}

theorem length_segments (file : Bytes) (n : Nat) : (segments file n).length = n := by simp [segments]

/-- A turn in the file is a turn on its next body. -/
theorem Tally.Of.next {i : Nat} (gathered : t.Of sha (segments file i))
    (inside : segmentLen ≤ (file.drop (headerLen + 64 * i)).length) :
    (t.scan sha (UInt64.ofNat i) ((file.drop (headerLen + 64 * i)).take segmentLen)).Of sha
      (segments file (i + 1)) := by
  have here : (file.drop (headerLen + 64 * i)).take segmentLen = body file i := by
    simp [body, slice, segmentLen]
  have len : (body file i).length = 64 := by
    rw [← here, List.length_take, Nat.min_eq_left inside]
    rfl
  have turn := gathered.scan len
  rwa [length_segments, ← segments_succ, ← here] at turn

/-- **The pass gathers the tally of all segments.** -/
theorem scanSegments_eq_ok {remaining i : Nat} {t' : Tally} (gathered : t.Of sha (segments file i))
    (ok : scanSegments sha fails remaining i (file.drop (headerLen + 64 * i)) t = .ok t') :
    t'.Of sha (segments file (i + remaining)) := by
  induction remaining generalizing i t with
  | zero =>
      cases ok
      exact gathered
  | succ remaining ih =>
      rw [scanSegments] at ok
      split at ok
      · nomatch ok
      · rename_i reads
        simp only [Bool.or_eq_true, decide_eq_true_eq, not_or, not_lt] at reads
        have next := gathered.next reads.2
        rw [List.drop_drop, show headerLen + 64 * i + segmentLen = headerLen + 64 * (i + 1) by
          rw [segmentLen]; omega] at ok
        rw [show i + (remaining + 1) = i + 1 + remaining by omega]
        exact ih next ok

/-- It comes to its end where the file is long enough and no read fails. -/
theorem scanSegments_reads (reads : ∀ i, fails i = false) {remaining i : Nat}
    (inside : headerLen + 64 * (i + remaining) ≤ file.length) (t : Tally) :
    ∃ t', scanSegments sha fails remaining i (file.drop (headerLen + 64 * i)) t = .ok t' := by
  induction remaining generalizing i t with
  | zero => exact ⟨t, rfl⟩
  | succ remaining ih =>
      have long : ¬(fails i || (file.drop (headerLen + 64 * i)).length < segmentLen) = true := by
        simp only [reads i, Bool.false_or, decide_eq_true_eq, List.length_drop, segmentLen]
        omega
      rw [scanSegments, if_neg long, List.drop_drop,
        show headerLen + 64 * i + segmentLen = headerLen + 64 * (i + 1) by rw [segmentLen]; omega]
      exact ih (by omega) _

end Pass

/-! ## The report -/

/-- The report is the classification of these segments. -/
structure Classified {F : Type} (bodies : List Bytes) (report : InspectReport F) : Prop where
  ok : report.ok = true ↔ bodies.Nodup ∧ ∀ body ∈ bodies, body ≠ zeroes
  duplicateCount : report.duplicateCount.toNat = bodies.length - bodies.toFinset.card
  duplicates : report.duplicates.map (fun pair => (pair.first.toNat, pair.other.toNat)) =
    (repeats bodies).take (min 16 report.duplicateCount.toNat)
  zeroSegmentCount : report.zeroSegmentCount.toNat = bodies.countP (· = zeroes)
  zeroSegments : report.zeroSegments.map UInt64.toNat =
    (places zeroes bodies).take (min 16 report.zeroSegmentCount.toNat)
  byteFreq : ∀ b, (report.byteFreq b).toNat = bodies.flatten.count b
  total : ((List.range 256).map fun b => (report.byteFreq (UInt8.ofNat b)).toNat).sum = 64 * bodies.length

/-- Nothing is wrong but, perhaps, the file. -/
structure InspectAnswers.Healthy (a : InspectAnswers) : Prop where
  opening : a.opening.Healthy
  clone : a.clone = true
  head : a.head = false
  segment : ∀ i, a.segment i = false

section Report

variable {F : Type} {floats : Floats F} {sha : Bytes → Digest} {a : InspectAnswers} {file : Bytes}
  {header : BookHeader} {report : InspectReport F}

theorem length_flatten_segments {n : Nat} (inside : headerLen + 64 * n ≤ file.length) :
    (segments file n).flatten.length = 64 * n := by
  induction n with
  | zero => rfl
  | succ n ih =>
      rw [segments_succ, List.flatten_append, List.length_append, ih (by omega), List.flatten_singleton, body,
        length_slice (by omega)]
      omega

/-- What a report is made of. -/
theorem inspectBook_eq_ok (ok : inspectBook floats sha a file = .ok report) :
    ∃ (header : BookHeader) (t : Tally), openValidated sha a.opening file = .ok header ∧
      t.Of sha (segments file header.segmentCount.toNat) ∧ report = reportOf floats header t := by
  unfold inspectBook at ok
  cases opened : openValidated sha a.opening file with
  | error e => rw [opened] at ok; nomatch ok
  | ok header =>
      rw [opened] at ok
      simp only [bind, Except.bind] at ok
      split at ok
      · nomatch ok
      cases pass : scanSegments sha a.segment header.segmentCount.toNat 0 (file.drop headerLen) .empty with
      | error e => rw [pass] at ok; nomatch ok
      | ok t =>
          rw [pass] at ok
          cases ok
          have gathered := @scanSegments_eq_ok sha a.segment file .empty header.segmentCount.toNat 0 t .empty pass
          rw [Nat.zero_add] at gathered
          exact ⟨header, t, rfl, gathered, rfl⟩

/-- Values that the counters hold. -/
theorem toNat_ofNat {n : Nat} (small : n < 2 ^ 64) : (UInt64.ofNat n).toNat = n := by
  rw [UInt64.toNat_ofNat', Nat.mod_eq_of_lt small]

theorem ofNat_eq_zero {n : Nat} (small : n < 2 ^ 64) : UInt64.ofNat n = 0 ↔ n = 0 := by
  rw [← UInt64.toNat_inj, toNat_ofNat small, UInt64.toNat_zero]

theorem map_toNat {indices : List Nat} (small : ∀ i ∈ indices, i < 2 ^ 64) :
    (indices.map UInt64.ofNat).map UInt64.toNat = indices := by
  rw [List.map_map]
  calc indices.map (UInt64.toNat ∘ UInt64.ofNat)
      = indices.map id := List.map_congr_left fun i mem => toNat_ofNat (small i mem)
    _ = indices := List.map_id indices

theorem map_pairOf {pairs : List (Nat × Nat)} (small : ∀ r ∈ pairs, r.1 < 2 ^ 64 ∧ r.2 < 2 ^ 64) :
    (pairs.map pairOf).map (fun pair => (pair.first.toNat, pair.other.toNat)) = pairs := by
  rw [List.map_map]
  calc pairs.map _ = pairs.map id := List.map_congr_left fun r mem => by
        simp only [Function.comp, pairOf, toNat_ofNat (small r mem).1, toNat_ofNat (small r mem).2, id]
    _ = pairs := List.map_id pairs

theorem take_min_length {α : Type} (n : Nat) (xs : List α) : xs.take (min n xs.length) = xs.take n := by
  rw [List.take_eq_take_iff]
  omega

/-- The byte values, each once. -/
theorem byteValues : ((List.range 256).map UInt8.ofNat).Nodup ∧ ∀ b, b ∈ (List.range 256).map UInt8.ofNat := by
  refine ⟨List.Nodup.map_on (fun i hi j hj same => ?_) List.nodup_range, fun b => ?_⟩
  · have back := congrArg UInt8.toNat same
    rw [List.mem_range] at hi hj
    rwa [UInt8.toNat_ofNat', UInt8.toNat_ofNat', Nat.mod_eq_of_lt hi, Nat.mod_eq_of_lt hj] at back
  · exact List.mem_map.mpr ⟨b.toNat, List.mem_range.mpr b.toNat_lt, UInt8.ofNat_toNat⟩

/-- The tally of a book's segments is their classification. -/
theorem classified_of_tally {bodies : List Bytes} {t : Tally} (gathered : t.Of sha bodies)
    (small : bodies.length < 2 ^ 40) (whole : bodies.flatten.length = 64 * bodies.length)
    (collisionFree : ∀ x ∈ bodies, ∀ y ∈ bodies, sha x = sha y → x = y) :
    Classified bodies (reportOf floats header t) := by
  have same := repeats_map collisionFree
  have distinct := length_repeats bodies
  have zero := length_places zeroes bodies
  have zeroSmall : bodies.countP (· = zeroes) ≤ bodies.length := List.countP_le_length
  have duplicates : t.duplicateCount = UInt64.ofNat (repeats bodies).length := by
    rw [gathered.seen.duplicateCount, same]
  have exactly (b : UInt8) : (t.byteFreq b).toNat = bodies.flatten.count b := by
    have most : bodies.flatten.count b ≤ bodies.flatten.length := List.count_le_length
    rw [gathered.byteFreq b, toNat_ofNat (by omega)]
  refine ⟨?_, ?_, ?_, ?_, ?_, exactly, ?_⟩ <;> dsimp only [reportOf]
  · rw [duplicates, gathered.zeroSegmentCount, Bool.and_eq_true, beq_iff_eq, beq_iff_eq,
      ofNat_eq_zero (by omega), ofNat_eq_zero (by omega), List.length_eq_zero_iff, repeats_eq_nil, zero,
      List.countP_eq_zero]
    simp only [decide_eq_true_eq, ne_eq]
  · rw [duplicates, toNat_ofNat (by omega)]
    omega
  · rw [duplicates, toNat_ofNat (by omega), take_min_length, gathered.seen.duplicates, same]
    refine map_pairOf fun (first, other) mem => ?_
    obtain ⟨x, at_, -, before⟩ := mem_repeats.mp (List.mem_of_mem_take mem)
    have inside := (List.getElem?_eq_some_iff.mp at_).1
    exact ⟨by simp only; omega, by simp only; omega⟩
  · rw [gathered.zeroSegmentCount, toNat_ofNat (by omega), zero]
  · rw [gathered.zeroSegmentCount, toNat_ofNat (by omega), take_min_length, gathered.zeroSegments]
    refine map_toNat fun i mem => ?_
    have inside := lt_length_of_mem_places (List.mem_of_mem_take mem)
    omega
  · have all := @sum_count _ _ _ byteValues.1 bodies.flatten fun b _ => byteValues.2 b
    rw [List.map_map] at all
    simp only [exactly]
    exact all.trans whole

/-- **Inspecting a book classifies it.** Where no read fails there is a report; any report is the
classification of the book's segments. -/
theorem inspection_classifies {opening : OpenAnswers} (opens : openValidated sha opening file = .ok header)
    (collisionFree : ∀ x ∈ segments file header.segmentCount.toNat, ∀ y ∈ segments file header.segmentCount.toNat,
      sha x = sha y → x = y) :
    (∀ a report, inspectBook floats sha a file = .ok report →
      report.header = header ∧ report.fileSize.toNat = file.length ∧
        Classified (segments file header.segmentCount.toNat) report) ∧
    ∀ a : InspectAnswers, a.Healthy → ∃ report, inspectBook floats sha a file = .ok report := by
  have isBook := openValidated_eq_ok opens
  have bounded := isBook.valid.bounded
  have inside : headerLen + 64 * header.segmentCount.toNat = file.length := by rw [isBook.size, headerLen]
  constructor
  · intro a report ok
    obtain ⟨header', t, opens', gathered, rfl⟩ := inspectBook_eq_ok ok
    obtain rfl : header' = header := (openValidated_eq_ok opens').unique isBook
    refine ⟨rfl, ?_, classified_of_tally gathered ?_ ?_ collisionFree⟩
    · have len : (UInt64.ofNat segmentLen).toNat = 64 := by decide
      have front : (UInt64.ofNat headerLen).toNat = 128 := by decide
      have product : (saturatingMul header'.segmentCount (UInt64.ofNat segmentLen)).toNat =
          header'.segmentCount.toNat * 64 := by
        rw [saturatingMul, len, Nat.min_eq_left (by omega), toNat_ofNat (by omega)]
      rw [reportOf, saturatingAdd_toNat (by rw [front, product]; omega), front, product, isBook.size]
      omega
    · rwa [length_segments]
    · rw [length_segments, length_flatten_segments inside.le]
  · intro a healthy
    have opens' := openValidated_of_isBook isBook healthy.opening
    obtain ⟨t, pass⟩ := @scanSegments_reads sha a.segment file healthy.segment header.segmentCount.toNat 0
      (by rw [Nat.zero_add, inside]) .empty
    have long : ¬file.length < headerLen := by omega
    refine ⟨reportOf floats header t, ?_⟩
    unfold inspectBook
    rw [opens']
    simp only [bind, Except.bind, healthy.clone, healthy.head, long, Bool.not_true, Bool.or_self, decide_false,
      Bool.false_eq_true, if_false, pure, Except.pure]
    rw [show file.drop headerLen = file.drop (headerLen + 64 * 0) from rfl, pass]

end Report

/-- A book of three segments, the first and the last without a one. -/
theorem inspection_classifies_three :
    let sha : Bytes → Digest := fun bytes => sliceExactly 32 bytes 0
    let header : BookHeader := ⟨bookVersion, ⟨Exactly.replicate 16 7⟩, 64, 3⟩
    let file := header.encode sha ++ (zeroes ++ (List.replicate 64 1 ++ zeroes))
    let floats : Floats Unit := ⟨(), fun _ _ => (), fun _ => true, fun _ => "0.333333"⟩
    segments file 3 = [zeroes, List.replicate 64 1, zeroes] ∧
      (∀ a report, inspectBook floats sha a file = .ok report →
        report.header = header ∧ report.fileSize.toNat = file.length ∧ Classified (segments file 3) report) ∧
      ∀ a : InspectAnswers, a.Healthy → ∃ report, inspectBook floats sha a file = .ok report := by
  intro sha header file floats
  have bodies : segments file 3 = [zeroes, List.replicate 64 1, zeroes] := by decide +kernel
  have isBook : IsBook sha file header :=
    ⟨by decide +kernel, ⟨rfl, by decide, by decide, by decide⟩, by decide +kernel⟩
  have opens : openValidated sha ⟨.opened, true, true, []⟩ file = .ok header :=
    openValidated_of_isBook isBook ⟨rfl, rfl, rfl, nofun⟩
  refine ⟨bodies, @inspection_classifies Unit floats sha file header _ opens ?_⟩
  rw [show header.segmentCount.toNat = 3 from rfl, bodies]
  decide +kernel

end Jbuu.Book
