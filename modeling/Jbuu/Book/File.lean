/-
# Book.File — opening a book and reading its segments

`Book::open` and `read_segment` of `otp-book/src/lib.rs` on the bytes of a file, with what the
system answers as an argument: every read may be interrupted, come short or fail. A `Book` is
what `open` found: a header that is the file's front and gives the file's size.

Of a book's file `read_segment` depends on 64 bytes only, at `128 + 64 i`
(`readSegment_congr`), and these lie in the file (`segmentOffset_of_lt`).
-/
import Jbuu.Book.Header

namespace Jbuu

set_option autoImplicit false

open Jbuu.Library.BigEndian (Bytes Exactly)

namespace Book

/-- `u64::saturating_add`. -/
def saturatingAdd (a : UInt64) (n : Nat) : UInt64 := UInt64.ofNat (min (a.toNat + n) (2 ^ 64 - 1))

theorem saturatingAdd_toNat {a : UInt64} {n : Nat} (fits : a.toNat + n < 2 ^ 64) :
    (saturatingAdd a n).toNat = a.toNat + n := by
  rw [saturatingAdd, UInt64.toNat_ofNat', Nat.min_eq_left (by omega), Nat.mod_eq_of_lt fits]

/-! ## `pread_exact` -/

/-- What one `pread` comes back with. -/
inductive Pread where
  | gave (n : Nat)
  | interrupted
  | failed
  deriving DecidableEq, Repr

/-- The bytes a `pread` of `n` bytes can give: what the file has of them. -/
def pread (file : Bytes) (offset : UInt64) (n : Nat) : Bytes := slice file offset.toNat (offset.toNat + n)

/-- Reads until `want` bytes are there. Where the answers end, the rest comes in one read. -/
def preadExact (file : Bytes) : List Pread → (want : Nat) → (offset : UInt64) → Except BookError Bytes
  | _, 0, _ => .ok []
  | [], want, offset =>
      if (pread file offset want).length = want then .ok (pread file offset want) else .error .io
  | .interrupted :: answers, want, offset => preadExact file answers want offset
  | .failed :: _, _, _ => .error .io
  | .gave n :: answers, want, offset =>
      if pread file offset (min n want) = [] then .error .io
      else do
        let rest ← preadExact file answers (want - (pread file offset (min n want)).length)
          (saturatingAdd offset (pread file offset (min n want)).length)
        pure (pread file offset (min n want) ++ rest)

/-- Neither an error nor an early end of the file. -/
def Pread.Goes : Pread → Prop
  | .gave n => 0 < n
  | .interrupted => True
  | .failed => False

instance : DecidablePred Pread.Goes := fun read => by cases read <;> unfold Pread.Goes <;> infer_instance

section PreadExact

variable {file other : Bytes} {answers : List Pread} {want : Nat} {offset : UInt64} {bytes : Bytes}

theorem length_pread (file : Bytes) (offset : UInt64) (n : Nat) :
    (pread file offset n).length = min n (file.length - offset.toNat) := by
  simp [pread, slice]

/-- The rest of a range behind what one read gave of it. -/
theorem pread_behind {n : Nat} (fits : offset.toNat + want < 2 ^ 64) (low : n ≤ want) :
    pread file offset want = pread file offset n ++
      pread file (saturatingAdd offset (pread file offset n).length) (want - (pread file offset n).length) := by
  have short : (pread file offset n).length ≤ n := by
    rw [length_pread]
    exact Nat.min_le_left ..
  have moved := @saturatingAdd_toNat offset (pread file offset n).length (by omega)
  generalize saturatingAdd offset (pread file offset n).length = next at moved ⊢
  simp only [pread, slice, moved, Nat.add_sub_cancel_left, ← List.drop_drop, List.length_take]
  generalize file.drop offset.toNat = rest
  rcases le_or_gt n rest.length with within | beyond
  · rw [Nat.min_eq_left within, ← List.take_add, Nat.add_sub_cancel' low]
  · rw [Nat.min_eq_right beyond.le, List.drop_length, List.take_nil, List.append_nil,
      List.take_of_length_le beyond.le, List.take_of_length_le (beyond.le.trans low)]

theorem preadExact_eq_ok (fits : offset.toNat + want < 2 ^ 64)
    (ok : preadExact file answers want offset = .ok bytes) :
    bytes = pread file offset want ∧ bytes.length = want := by
  revert bytes fits
  fun_induction preadExact file answers want offset with
  | case1 =>
      rintro _ - ⟨⟩
      exact ⟨by simp [pread, slice], rfl⟩
  | case2 want offset _ full =>
      rintro _ - ⟨⟩
      exact ⟨rfl, full⟩
  | case3 => rintro _ - ⟨⟩
  | case4 answers want offset _ ih => exact ih
  | case5 => rintro _ - ⟨⟩
  | case6 => rintro _ - ⟨⟩
  | case7 n answers want offset _ some_ ih =>
      intro bytes fits ok
      have low := Nat.min_le_right n want
      have short := length_pread file offset (min n want)
      have behind := @pread_behind file want offset (min n want) fits low
      generalize pread file offset (min n want) = part at *
      have moved := @saturatingAdd_toNat offset part.length (by omega)
      obtain ⟨rest, reads, rfl⟩ : ∃ rest,
          preadExact file answers (want - part.length) (saturatingAdd offset part.length) = .ok rest ∧
            bytes = part ++ rest := by
        cases reads : preadExact file answers (want - part.length) (saturatingAdd offset part.length) with
        | error e => rw [reads] at ok; cases ok
        | ok rest => rw [reads] at ok; cases ok; exact ⟨rest, rfl, rfl⟩
      obtain ⟨same, len⟩ := ih (by omega) reads
      refine ⟨?_, by rw [List.length_append, len]; omega⟩
      rw [same, behind]

/-- A range of the file is read where no read fails. -/
theorem preadExact_reads (inside : offset.toNat + want ≤ file.length) (fits : offset.toNat + want < 2 ^ 64)
    (goes : ∀ answer ∈ answers, answer.Goes) :
    preadExact file answers want offset = .ok (pread file offset want) := by
  fun_induction preadExact file answers want offset with
  | case1 => simp [pread, slice]
  | case2 => rfl
  | case3 want offset _ short =>
      rw [length_pread] at short
      omega
  | case4 answers want offset _ ih => exact ih inside fits fun answer mem => goes answer (.tail _ mem)
  | case5 => exact absurd (goes .failed (.head _)) id
  | case6 n answers want offset more empty =>
      have one : 0 < n := goes (.gave n) (.head _)
      have wanted : want ≠ 0 := more
      have len := length_pread file offset (min n want)
      rw [empty, List.length_nil] at len
      omega
  | case7 n answers want offset _ some_ ih =>
      have low := Nat.min_le_right n want
      have short := length_pread file offset (min n want)
      have moved := @saturatingAdd_toNat offset (pread file offset (min n want)).length (by omega)
      rw [ih (by omega) (by omega) fun answer mem => goes answer (.tail _ mem)]
      exact congrArg Except.ok (pread_behind fits low).symm

/-- A read within a range depends on the range only. -/
theorem pread_congr {n : Nat} (low : n ≤ want) (same : pread file offset want = pread other offset want) :
    pread file offset n = pread other offset n := by
  have cut (file : Bytes) : pread file offset n = (pread file offset want).take n := by
    simp [pread, slice, List.take_take, Nat.min_eq_left low]
  rw [cut file, cut other, same]

/-- **The outcome depends on the range only.** -/
theorem preadExact_congr (fits : offset.toNat + want < 2 ^ 64)
    (same : pread file offset want = pread other offset want) :
    preadExact file answers want offset = preadExact other answers want offset := by
  induction answers generalizing want offset with
  | nil => cases want <;> simp only [preadExact, same]
  | cons answer answers ih =>
      cases want with
      | zero => rw [preadExact, preadExact]
      | succ want =>
          cases answer with
          | interrupted => exact ih fits same
          | failed => rfl
          | gave n =>
              have low := Nat.min_le_right n (want + 1)
              have part := pread_congr low same
              have behind := @pread_behind file _ offset _ fits low
              have behind' := @pread_behind other _ offset _ fits low
              have short := length_pread file offset (min n (want + 1))
              have moved := @saturatingAdd_toNat offset (pread file offset (min n (want + 1))).length (by omega)
              rw [same, behind', ← part] at behind
              simp only [preadExact]
              rw [← part, ih (by omega) (List.append_cancel_left behind).symm]

end PreadExact

/-! ## Opening a book -/

inductive OpenAnswer where
  | opened
  | notFound
  | failed
  deriving DecidableEq, Repr

/-- What the system answers to `open_validated`. -/
structure OpenAnswers where
  opened : OpenAnswer
  stat : Bool
  regularFile : Bool
  reads : List Pread
  deriving DecidableEq, Repr

variable (sha : Bytes → Digest)

def openValidated (a : OpenAnswers) (file : Bytes) : Except BookError BookHeader :=
  match a.opened with
  | .notFound => .error .notFound
  | .failed => .error .io
  | .opened =>
      if !a.stat then .error .io
      else if !a.regularFile then .error (.invalidHeader "not-a-regular-file")
      else if file.length < headerLen then .error (.invalidHeader "header-length")
      else do
        let head ← preadExact file a.reads headerLen 0
        match BookHeader.decode sha head with
        | .error reason => .error (.invalidHeader reason)
        | .ok header =>
            match header.expectedFileSize with
            | some expected =>
                if file.length = expected.toNat then .ok header else .error (.invalidHeader "file-size-mismatch")
            | none => .error (.invalidHeader "file-size-mismatch")

/-- The file of a book with this header. -/
structure IsBook (file : Bytes) (header : BookHeader) : Prop where
  front : slice file 0 headerLen = header.encode sha
  valid : header.Valid
  size : file.length = 128 + 64 * header.segmentCount.toNat

/-- Nothing is wrong but, perhaps, the file. -/
structure OpenAnswers.Healthy (a : OpenAnswers) : Prop where
  opened : a.opened = .opened
  stat : a.stat = true
  regularFile : a.regularFile = true
  reads : ∀ answer ∈ a.reads, answer.Goes

variable {sha} {a : OpenAnswers} {file : Bytes} {header : BookHeader}

theorem openValidated_eq_ok (accepted : openValidated sha a file = .ok header) : IsBook sha file header := by
  unfold openValidated at accepted
  split at accepted
  · nomatch accepted
  · nomatch accepted
  split at accepted
  · nomatch accepted
  split at accepted
  · nomatch accepted
  split at accepted
  · nomatch accepted
  cases reads : preadExact file a.reads headerLen 0 with
  | error e => rw [reads] at accepted; nomatch accepted
  | ok head =>
      rw [reads] at accepted
      simp only [bind, Except.bind] at accepted
      split at accepted
      · nomatch accepted
      · rename_i header' decoded
        split at accepted
        · rename_i expected size
          split at accepted
          · rename_i len
            cases accepted
            obtain ⟨valid, encoded⟩ := BookHeader.decode_eq_ok decoded
            obtain ⟨size', same, exact_⟩ := BookHeader.expectedFileSize_of_valid valid
            obtain ⟨front, -⟩ := preadExact_eq_ok (by decide) reads
            rw [same] at size
            cases size
            exact ⟨by rw [encoded, front]; rfl, valid, len.trans exact_⟩
          · nomatch accepted
        · nomatch accepted

/-- A file is the file of one header. -/
theorem IsBook.unique {other : BookHeader} (book : IsBook sha file header) (same : IsBook sha file other) :
    header = other := by
  have encoded := book.front.symm.trans same.front
  have decoded := BookHeader.decode_encode sha header book.valid
  rw [encoded, BookHeader.decode_encode sha other same.valid] at decoded
  exact (Except.ok.inj decoded).symm

/-- The file of a book opens where the system lets it. -/
theorem openValidated_of_isBook (book : IsBook sha file header) (healthy : a.Healthy) :
    openValidated sha a file = .ok header := by
  obtain ⟨size, same, exact_⟩ := BookHeader.expectedFileSize_of_valid book.valid
  have full : file.length = size.toNat := book.size.trans exact_.symm
  have long : ¬size.toNat < headerLen := by rw [exact_, headerLen]; omega
  have reads := @preadExact_reads file a.reads headerLen 0 (by simpa [full] using long) (by decide) healthy.reads
  have front : pread file 0 headerLen = header.encode sha := book.front
  simp only [openValidated, healthy.opened, healthy.stat, healthy.regularFile, Bool.not_true, Bool.false_eq_true,
    if_false, long, reads, front, bind, Except.bind, BookHeader.decode_encode sha header book.valid, same,
    full, if_true]

end Book

/-- What `Book::open` found. -/
structure Book (sha : Bytes → Digest) (file : Bytes) where
  header : Book.BookHeader
  isBook : Book.IsBook sha file header

namespace Book

variable {sha : Bytes → Digest} {file : Bytes}

/-- `Book::open`. -/
def «open» (sha : Bytes → Digest) (a : OpenAnswers) (file : Bytes) : Except BookError (Book sha file) :=
  match accepted : openValidated sha a file with
  | .error e => .error e
  | .ok header => .ok ⟨header, openValidated_eq_ok accepted⟩

/-! ## Reading a segment -/

variable (book : Book sha file)

/-- The offset that `read_segment` reads at. -/
def segmentOffset (index : SegmentIndex) : Except BookError UInt64 :=
  if book.header.segmentCount ≤ index.get then .error (.segmentOutOfRange index book.header.segmentCount)
  else match checkedMul index.get (UInt64.ofNat segmentLen) with
    | none => .error (.segmentOutOfRange index book.header.segmentCount)
    | some bodyOff =>
        match checkedAdd segmentAreaOffset bodyOff with
        | none => .error (.segmentOutOfRange index book.header.segmentCount)
        | some offset => .ok offset

/-- `read_segment`, on what the file holds by now. -/
def readSegment (answers : List Pread) (now : Bytes) (index : SegmentIndex) : Except BookError Bytes := do
  let offset ← book.segmentOffset index
  preadExact now answers segmentLen offset

/-- The 64 bytes of an index, in the file and without overflow. -/
theorem segmentOffset_of_lt {index : SegmentIndex} (low : index.get < book.header.segmentCount) :
    ∃ offset, book.segmentOffset index = .ok offset ∧ offset.toNat = 128 + 64 * index.get.toNat ∧
      offset.toNat + 64 ≤ file.length := by
  have bounded := book.isBook.valid.bounded
  have size := book.isBook.size
  rw [UInt64.lt_iff_toNat_lt] at low
  have width : (UInt64.ofNat segmentLen).toNat = 64 := by decide
  have area : segmentAreaOffset.toNat = 128 := by decide
  have product : index.get.toNat * (UInt64.ofNat segmentLen).toNat < 2 ^ 64 := by rw [width]; omega
  have body : (index.get * UInt64.ofNat segmentLen).toNat = index.get.toNat * 64 := by
    rw [UInt64.toNat_mul, Nat.mod_eq_of_lt product, width]
  have sum : segmentAreaOffset.toNat + (index.get * UInt64.ofNat segmentLen).toNat < 2 ^ 64 := by
    rw [area, body]
    omega
  have offset : (segmentAreaOffset + index.get * UInt64.ofNat segmentLen).toNat = 128 + 64 * index.get.toNat := by
    rw [UInt64.toNat_add, Nat.mod_eq_of_lt sum, area, body]
    omega
  refine ⟨segmentAreaOffset + index.get * UInt64.ofNat segmentLen, ?_, offset, by omega⟩
  have inside : ¬book.header.segmentCount ≤ index.get := by
    rw [UInt64.le_iff_toNat_le]
    omega
  simp only [segmentOffset, inside, if_false, checkedMul, product, if_true, checkedAdd, sum]

theorem segmentOffset_of_le {index : SegmentIndex} (high : book.header.segmentCount ≤ index.get) :
    book.segmentOffset index = .error (.segmentOutOfRange index book.header.segmentCount) := by
  rw [segmentOffset, if_pos high]

/-- What `read_segment` does for an index is a matter of its 64 bytes. -/
theorem readSegment_congr {index : SegmentIndex} (low : index.get < book.header.segmentCount) {now other : Bytes}
    (same : slice now (128 + 64 * index.get.toNat) (128 + 64 * index.get.toNat + 64) =
      slice other (128 + 64 * index.get.toNat) (128 + 64 * index.get.toNat + 64)) (answers : List Pread) :
    book.readSegment answers now index = book.readSegment answers other index := by
  obtain ⟨offset, at_, exact_, -⟩ := book.segmentOffset_of_lt low
  rw [UInt64.lt_iff_toNat_lt] at low
  have bounded := book.isBook.valid.bounded
  rw [readSegment, readSegment, at_]
  exact preadExact_congr (by rw [exact_, segmentLen]; omega) (by rw [pread, pread, exact_]; exact same)

/-- A segment that is read is the 64 bytes. -/
theorem readSegment_eq_ok {index : SegmentIndex} (low : index.get < book.header.segmentCount) {now segment : Bytes}
    {answers : List Pread} (reads : book.readSegment answers now index = .ok segment) :
    segment = slice now (128 + 64 * index.get.toNat) (128 + 64 * index.get.toNat + 64) ∧ segment.length = 64 := by
  obtain ⟨offset, at_, exact_, -⟩ := book.segmentOffset_of_lt low
  rw [UInt64.lt_iff_toNat_lt] at low
  have bounded := book.isBook.valid.bounded
  rw [readSegment, at_] at reads
  obtain ⟨same, len⟩ := preadExact_eq_ok (by rw [exact_, segmentLen]; omega) reads
  exact ⟨by rw [same, pread, exact_]; rfl, len⟩

/-- It is read where no read fails. -/
theorem readSegment_reads {index : SegmentIndex} (low : index.get < book.header.segmentCount) {answers : List Pread}
    (goes : ∀ answer ∈ answers, answer.Goes) :
    book.readSegment answers file index =
      .ok (slice file (128 + 64 * index.get.toNat) (128 + 64 * index.get.toNat + 64)) := by
  obtain ⟨offset, at_, exact_, inside⟩ := book.segmentOffset_of_lt low
  rw [UInt64.lt_iff_toNat_lt] at low
  have bounded := book.isBook.valid.bounded
  rw [readSegment, at_, ← exact_]
  exact preadExact_reads inside (by rw [exact_, segmentLen]; omega) goes

end Book

end Jbuu
