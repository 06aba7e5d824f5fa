/-
# Book.Generate — making a book

`generate_book` of `otp-book/src/generate.rs`: the file is created, never overwritten, and gets the
header and then the segments, 1024 of them at a time and the rest in one shorter chunk. What the
system answers is an argument: the random bytes too.

A book that is generated is whole (`generateBook_eq_ok`), wherever the last chunk ends. `header_and_addressing` has this together with the laws of the header and of the
offsets.
-/
import Jbuu.Book.File
import Jbuu.Platform.Write

namespace Jbuu.Book

set_option autoImplicit false

open Jbuu.Library.BigEndian (Bytes Exactly)

/-- `SEGMENTS_PER_CHUNK`. -/
def segmentsPerChunk : Nat := 1024

inductive GenerateError where
  | pathExists
  | badSegmentCount (n : UInt64)
  | csprng
  | io (error : PlatformError)
  deriving DecidableEq, Repr

/-- What the system answers to `generate_book`; an error is the one of the call that fails. -/
structure GenerateAnswers where
  create : Option PlatformError
  clone : Option PlatformError
  header : List WriteSome
  /-- the random bytes of a chunk, by its place and length -/
  fill : Nat → (len : Nat) → Option (Exactly len)
  /-- how the write of a chunk goes -/
  chunk : Nat → List WriteSome
  fsync : Option PlatformError
  /-- the open or the sync of the directory -/
  fsyncParentDir : Option PlatformError
  unlink : Bool

/-- The chunks from the `k`th on, and what of them is written. -/
def writeChunks (a : GenerateAnswers) (k remaining : Nat) : Except GenerateError Unit × Bytes :=
  if remaining = 0 then (.ok (), [])
  else
    match a.fill k (min remaining segmentsPerChunk * 64) with
    | none => (.error .csprng, [])
    | some chunk =>
        match writeFull (a.chunk k) chunk.val with
        | (.error e, written) => (.error (.io e), written)
        | (.ok (), written) =>
            ((writeChunks a (k + 1) (remaining - min remaining segmentsPerChunk)).1,
              written ++ (writeChunks a (k + 1) (remaining - min remaining segmentsPerChunk)).2)
termination_by remaining
decreasing_by
  all_goals
    have : 0 < segmentsPerChunk := by decide
    omega

/-- The header and the segments. `write_all` is the loop of `writeFull`. -/
def writeBookBody (sha : Bytes → Digest) (a : GenerateAnswers) (header : BookHeader) :
    Except GenerateError Unit × Bytes :=
  match a.clone with
  | some e => (.error (.io e), [])
  | none =>
      match writeFull a.header (header.encode sha) with
      | (.error e, written) => (.error (.io e), written)
      | (.ok (), written) =>
          ((writeChunks a 0 header.segmentCount.toNat).1, written ++ (writeChunks a 0 header.segmentCount.toNat).2)

/-- `cleanup_partial`: the result of the `unlink` is ignored. -/
def cleanupPartial (a : GenerateAnswers) (content : Bytes) : Option Bytes := if a.unlink then none else some content

/-- The outcome, and what the path names then. -/
def generateBook (sha : Bytes → Digest) (a : GenerateAnswers) (segmentCount : UInt64) (bookId : BookId)
    (before : Option Bytes) : Except GenerateError BookHeader × Option Bytes :=
  if segmentCount = 0 ∨ maxSegmentCount < segmentCount then (.error (.badSegmentCount segmentCount), before)
  else
    match BookHeader.new bookId segmentCount with
    | .error _ => (.error (.badSegmentCount segmentCount), before)
    | .ok header =>
        match a.create, before with
        | some e, _ => (.error (.io e), before)
        | none, some _ => (.error .pathExists, before)
        | none, none =>
            match writeBookBody sha a header with
            | (.error e, content) => (.error e, cleanupPartial a content)
            | (.ok (), content) =>
                match a.fsync, a.fsyncParentDir with
                | some e, _ => (.error (.io e), cleanupPartial a content)
                | none, some e => (.error (.io e), cleanupPartial a content)
                | none, none => (.ok header, some content)

section Generate

variable {sha : Bytes → Digest} {a : GenerateAnswers} {header : BookHeader}

/-- Chunks that are written make whole segments. -/
theorem length_writeChunks {k remaining : Nat} (ok : (writeChunks a k remaining).1 = .ok ()) :
    (writeChunks a k remaining).2.length = 64 * remaining := by
  fun_induction writeChunks a k remaining with
  | case1 => rfl
  | case2 => nomatch ok
  | case3 => nomatch ok
  | case4 k remaining more chunk _ written wrote ih =>
      have whole : written = chunk.val := by
        have full := @writeFull_of_ok (a.chunk k) chunk.val (by rw [wrote])
        rwa [wrote] at full
      rw [List.length_append, ih ok, whole, chunk.property]
      omega

/-- Where nothing fails, every count of segments is written. -/
theorem writeChunks_ok (fill : ∀ k len, a.fill k len ≠ none) (chunk : ∀ k data, (writeFull (a.chunk k) data).1 = .ok ())
    (k remaining : Nat) : (writeChunks a k remaining).1 = .ok () := by
  fun_induction writeChunks a k remaining with
  | case1 => rfl
  | case2 k remaining _ failed => exact absurd failed (fill k _)
  | case3 k remaining _ bytes _ e written failed => 
      have ok := chunk k bytes.val
      rw [failed] at ok
      nomatch ok
  | case4 k remaining _ _ _ _ _ ih => exact ih

theorem writeBookBody_eq_ok (ok : (writeBookBody sha a header).1 = .ok ()) :
    slice (writeBookBody sha a header).2 0 headerLen = header.encode sha ∧
      (writeBookBody sha a header).2.length = 128 + 64 * header.segmentCount.toNat := by
  unfold writeBookBody at ok ⊢
  split at ok
  · nomatch ok
  · split at ok
    · nomatch ok
    · rename_i written wrote
      have whole : written = header.encode sha := by
        have full := @writeFull_of_ok a.header (header.encode sha) (by rw [wrote])
        rwa [wrote] at full
      have len := length_writeChunks ok
      simp only [whole, List.length_append, len, BookHeader.length_encode, and_true]
      rw [slice_append (by simp [headerLen]), slice]
      exact List.take_of_length_le (by simp [headerLen])

/-- **A book that is generated is whole.** -/
theorem generateBook_eq_ok {segmentCount : UInt64} {bookId : BookId} {before : Option Bytes}
    (ok : (generateBook sha a segmentCount bookId before).1 = .ok header) :
    header.segmentCount = segmentCount ∧ header.bookId = bookId ∧ before = none ∧
      ∃ file, (generateBook sha a segmentCount bookId before).2 = some file ∧ IsBook sha file header := by
  generalize outcome : generateBook sha a segmentCount bookId before = result at ok ⊢
  unfold generateBook at outcome
  split at outcome
  · subst outcome; nomatch ok
  split at outcome
  · subst outcome; nomatch ok
  rename_i made
  obtain ⟨valid, id, count⟩ := BookHeader.new_eq_ok made
  split at outcome
  · subst outcome; nomatch ok
  · subst outcome; nomatch ok
  split at outcome
  · subst outcome; nomatch ok
  rename_i content body
  split at outcome
  · subst outcome; nomatch ok
  · subst outcome; nomatch ok
  subst outcome
  cases ok
  obtain ⟨front, size⟩ := @writeBookBody_eq_ok sha a header (by rw [body])
  rw [body] at front size
  exact ⟨count, id, rfl, content, rfl, front, valid, size⟩

/-- Where nothing fails, a book of any admissible count comes out. -/
theorem generateBook_of_healthy (create : a.create = none) (clone : a.clone = none)
    (writes : ∀ data, (writeFull a.header data).1 = .ok ()) (fill : ∀ k len, a.fill k len ≠ none)
    (chunk : ∀ k data, (writeFull (a.chunk k) data).1 = .ok ()) (fsync : a.fsync = none)
    (fsyncParentDir : a.fsyncParentDir = none) {segmentCount : UInt64} (positive : segmentCount ≠ 0)
    (bounded : segmentCount ≤ maxSegmentCount) (bookId : BookId) :
    ∃ header, (generateBook sha a segmentCount bookId none).1 = .ok header := by
  have range : ¬(segmentCount = 0 ∨ maxSegmentCount < segmentCount) := not_or.mpr ⟨positive, UInt64.not_lt.mpr bounded⟩
  have made : BookHeader.new bookId segmentCount =
      .ok ⟨bookVersion, bookId, UInt32.ofNat Jbuu.segmentLen, segmentCount⟩ := by
    rw [BookHeader.new, BookHeader.validate_eq_ok.mpr]
    · rfl
    · obtain ⟨low, high⟩ := BookHeader.count_in_range.mp range
      exact ⟨rfl, (by decide : (UInt32.ofNat Jbuu.segmentLen).toNat = 64), low, high⟩
  refine ⟨⟨bookVersion, bookId, UInt32.ofNat Jbuu.segmentLen, segmentCount⟩, ?_⟩
  have body (header : BookHeader) : (writeBookBody sha a header).1 = .ok () := by
    unfold writeBookBody
    rw [clone]
    dsimp only
    split
    · rename_i failed
      have ok := writes (header.encode sha)
      rw [failed] at ok
      cases ok
    · exact writeChunks_ok fill chunk 0 _
  unfold generateBook
  rw [if_neg range, made]
  simp only [create, fsync, fsyncParentDir]
  split
  · rename_i failed
    have ok := body ⟨bookVersion, bookId, UInt32.ofNat Jbuu.segmentLen, segmentCount⟩
    rw [failed] at ok
    cases ok
  · rfl

end Generate

/-! ## The law of a book -/

/-- What an index of a book stands for: 64 bytes at an offset that is computed without overflow, in
the file, behind the header and apart from the bytes of every other index; `read_segment` gives
these bytes and depends on no others. -/
structure Addressed {sha : Bytes → Digest} {file : Bytes} (book : Book sha file) (index : SegmentIndex)
    (offset : UInt64) : Prop where
  computed : book.segmentOffset index = .ok offset
  exact_ : offset.toNat = headerLen + 64 * index.get.toNat
  inside : offset.toNat + 64 ≤ file.length
  apart : ∀ other offset', book.segmentOffset other = .ok offset' → other ≠ index →
    offset.toNat + 64 ≤ offset'.toNat ∨ offset'.toNat + 64 ≤ offset.toNat
  only : ∀ answers now now', slice now offset.toNat (offset.toNat + 64) = slice now' offset.toNat (offset.toNat + 64) →
    book.readSegment answers now index = book.readSegment answers now' index
  gives : ∀ answers now segment, book.readSegment answers now index = .ok segment →
    segment = slice now offset.toNat (offset.toNat + 64) ∧ segment.length = 64

theorem addressed {sha : Bytes → Digest} {file : Bytes} (book : Book sha file) {index : SegmentIndex}
    (low : index.get < book.header.segmentCount) : ∃ offset, Addressed book index offset := by
  obtain ⟨offset, computed, exact_, inside⟩ := book.segmentOffset_of_lt low
  refine ⟨offset, computed, exact_, inside, ?_, ?_, ?_⟩
  · intro other offset' computed' ne
    have low' : other.get < book.header.segmentCount := by
      by_contra high
      rw [book.segmentOffset_of_le (UInt64.not_lt.mp high)] at computed'
      nomatch computed'
    obtain ⟨again, same, exact', -⟩ := book.segmentOffset_of_lt low'
    rw [computed'] at same
    cases same
    have apart : other.get.toNat ≠ index.get.toNat := fun same =>
      ne (congrArg SegmentIndex.mk (UInt64.toNat_inj.mp same))
    omega
  · intro answers now now' same
    rw [exact_] at same
    exact book.readSegment_congr low same answers
  · intro answers now segment reads
    rw [exact_]
    exact book.readSegment_eq_ok low reads

theorem open_of_isBook {sha : Bytes → Digest} {a : OpenAnswers} {file : Bytes} {header : BookHeader}
    (isBook : IsBook sha file header) (healthy : a.Healthy) : Book.open sha a file = .ok ⟨header, isBook⟩ := by
  unfold Book.open
  split
  · rename_i refused
    rw [openValidated_of_isBook isBook healthy] at refused
    nomatch refused
  · rename_i accepted
    cases (openValidated_of_isBook isBook healthy).symm.trans accepted
    rfl

/-- **The header and the addressing are sound.** The codec is the identity both ways on what it
accepts; every index below the count of a book that opens is addressed and every other one
refused; and a generated book has the length its count says and opens with its header. -/
theorem header_and_addressing (sha : Bytes → Digest) :
    (∀ bytes h, BookHeader.decode sha bytes = .ok h → h.encode sha = bytes) ∧
    (∀ h : BookHeader, h.validate = .ok () → BookHeader.decode sha (h.encode sha) = .ok h) ∧
    (∀ a file (book : Book sha file), Book.open sha a file = .ok book →
      (∀ index, index.get < book.header.segmentCount → ∃ offset, Addressed book index offset) ∧
      ∀ index, book.header.segmentCount ≤ index.get → ∀ answers now, book.readSegment answers now index =
        .error (.segmentOutOfRange index book.header.segmentCount)) ∧
    ∀ a segmentCount bookId before header, (generateBook sha a segmentCount bookId before).1 = .ok header →
      ∃ file, (generateBook sha a segmentCount bookId before).2 = some file ∧
        file.length = 128 + 64 * segmentCount.toNat ∧
        ∀ opening : OpenAnswers, opening.Healthy → ∃ book, Book.open sha opening file = .ok book ∧
          book.header = header := by
  refine ⟨fun _ _ => BookHeader.encode_of_decode,
    fun h valid => BookHeader.decode_encode sha h (BookHeader.validate_eq_ok.mp valid), ?_, ?_⟩
  · intro _ file book _
    refine ⟨fun _ low => addressed book low, fun index high answers now => ?_⟩
    rw [Book.readSegment, book.segmentOffset_of_le high]
    rfl
  · intro a segmentCount bookId before header ok
    obtain ⟨count, _, _, file, left, isBook⟩ := generateBook_eq_ok ok
    refine ⟨file, left, by rw [isBook.size, count], fun opening healthy => ?_⟩
    exact ⟨_, open_of_isBook isBook healthy, rfl⟩

end Jbuu.Book
