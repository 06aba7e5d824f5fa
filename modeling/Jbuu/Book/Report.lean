/-
# Book.Report — the report on a book as text

`InspectReport::to_json` of `otp-book/src/inspect.rs`, line by line. The line of the book id ends
without a comma, so that no report is JSON (`toJson_is_no_document`).
-/
import Jbuu.Book.Inspect
import Jbuu.Library.JsonTree
import Jbuu.Platform.AuditLog

namespace Jbuu.Book

set_option autoImplicit false

open Jbuu.Library.BigEndian (Bytes)
open Jbuu.Library.Json (Text)
open Jbuu.Library.JsonTree
open Jbuu.AuditLog (hex2)

/-- `join`. -/
def join (separator : Text) (items : List Text) : Text := List.intercalate separator items

/-- The `Display` of a `u64`. -/
def digits (n : UInt64) : Text := Nat.toDigits 10 n.toNat

/-- Bytes in hexadecimal. -/
def hex (bytes : Bytes) : Text := bytes.flatMap hex2

namespace DuplicatePair

def json (d : DuplicatePair) : Text :=
  "\x7b\"first\": ".toList ++ (digits d.first ++ (", \"other\": ".toList ++ (digits d.other ++ "\x7d".toList)))

end DuplicatePair

namespace InspectReport

variable {F : Type} (floats : Floats F) (r : InspectReport F)

/-- What `to_json` writes behind the line of the book id. -/
def jsonTail : Text :=
  "  \"version\": ".toList ++ (Nat.toDigits 10 r.header.version.toNat ++
  (",\n  \"segment_len\": ".toList ++ (Nat.toDigits 10 r.header.segmentLen.toNat ++
  (",\n  \"segment_count\": ".toList ++ (digits r.header.segmentCount ++
  (",\n  \"file_size\": ".toList ++ (digits r.fileSize ++
  (",\n  \"ones_ratio\": ".toList ++ ((floats.fixed r.onesRatio).toList ++
  (",\n  \"duplicate_count\": ".toList ++ (digits r.duplicateCount ++
  (",\n  \"duplicates\": [".toList ++ (join ", ".toList (r.duplicates.map DuplicatePair.json) ++
  ("],\n  \"zero_segment_count\": ".toList ++ (digits r.zeroSegmentCount ++
  (",\n  \"zero_segments\": [".toList ++ (join ", ".toList (r.zeroSegments.map digits) ++
  ("],\n  \"byte_freq\": [".toList ++ (join ",".toList ((List.range 256).map fun b => digits (r.byteFreq (UInt8.ofNat b))) ++
  ("],\n  \"warnings\": [".toList ++ (join ", ".toList (r.warnings.map fun w => '"' :: (w.toList ++ ['"'])) ++
  ("],\n  \"ok\": ".toList ++ ((if r.ok then "true" else "false").toList ++
  "\n\x7d".toList)))))))))))))))))))))))

def toJson : Text :=
  "\x7b\n  \"book_id\": \"".toList ++ (hex r.header.bookId.asBytes.val ++ ("\"\n".toList ++ r.jsonTail floats))

end InspectReport

theorem plain_hex (bytes : Bytes) : Plain (hex bytes) := by
  have all : ∀ n < 16, n.digitChar ≠ '"' ∧ n.digitChar ≠ '\\' ∧ ¬n.digitChar < ' ' := by decide
  intro c mem
  obtain ⟨b, -, here⟩ := List.mem_flatMap.mp mem
  have small := b.toNat_lt
  rcases List.mem_cons.mp here with rfl | here
  · exact all _ (by omega)
  · rw [List.mem_singleton.mp here]
    exact all _ (by omega)

/-- **No report is JSON.** A member follows the book id, and no comma stands between them. -/
theorem toJson_is_no_document {F : Type} (floats : Floats F) (r : InspectReport F) :
    readDocument (r.toJson floats) = none := by
  have version : "  \"version\": ".toList = ' ' :: ' ' :: '"' :: "version\": ".toList := by decide +kernel
  have front : "\x7b\n  \"book_id\": \"".toList =
      '\x7b' :: '\n' :: ' ' :: ' ' :: '"' :: ("book_id".toList ++ ['"', ':', ' ', '"']) := by decide +kernel
  have back : "\"\n".toList = ['"', '\n'] := by decide +kernel
  obtain ⟨tail, next⟩ : ∃ tail, r.jsonTail floats = ' ' :: ' ' :: '"' :: tail := by
    unfold InspectReport.jsonTail
    exact ⟨_, congrArg (· ++ _) version⟩
  have text : r.toJson floats = '\x7b' :: '\n' :: ' ' :: ' ' :: '"' :: ("book_id".toList ++ '"' :: ':' ::
      ' ' :: '"' :: (hex r.header.bookId.asBytes.val ++ '"' :: '\n' :: ' ' :: ' ' :: '"' :: tail)) := by
    have whole : r.toJson floats = _ ++ (_ ++ (_ ++ _)) :=
      congrArg₂ (· ++ ·) front (congrArg (hex r.header.bookId.asBytes.val ++ ·) (congrArg₂ (· ++ ·) back next))
    rw [whole]
    simp only [List.cons_append, List.append_assoc, List.nil_append]
  obtain ⟨n, len⟩ : ∃ n, (r.toJson floats).length = n + 1 := by
    rw [text, List.length_cons]
    exact ⟨_, rfl⟩
  have id : readValue (n + 1) (' ' :: '"' :: (hex r.header.bookId.asBytes.val ++ '"' :: '\n' :: ' ' :: ' ' :: '"' :: tail)) =
      some (.string (hex r.header.bookId.asBytes.val), '\n' :: ' ' :: ' ' :: '"' :: tail) := by
    rw [readValue_blank rfl, readValue_string, readText_plain (plain_hex _), Option.map_some]
  have member : readMember (readValue (n + 1)) ('\n' :: ' ' :: ' ' :: '"' :: ("book_id".toList ++ '"' :: ':' ::
      ' ' :: '"' :: (hex r.header.bookId.asBytes.val ++ '"' :: '\n' :: ' ' :: ' ' :: '"' :: tail))) =
      some (("book_id".toList, .string (hex r.header.bookId.asBytes.val)), '\n' :: ' ' :: ' ' :: '"' :: tail) := by
    rw [readMember_blank rfl, readMember_blank rfl, readMember_blank rfl, readMember_key _ (by decide +kernel), id, Option.map_some]
  have items (k : Nat) : readItems (readMember (readValue (n + 1))) '\x7d' k ('\n' :: ' ' :: ' ' :: '"' ::
      ("book_id".toList ++ '"' :: ':' ::
        ' ' :: '"' :: (hex r.header.bookId.asBytes.val ++ '"' :: '\n' :: ' ' :: ' ' :: '"' :: tail))) = none := by
    cases k with
    | zero => rfl
    | succ k =>
        rw [readItems, member]
        simp only [bind, Option.bind_some]
        rw [skip_blank rfl, skip_blank rfl, skip_blank rfl, skip_cons rfl]
        rfl
  have refused : readValue (n + 2) (r.toJson floats) = none := by
    rw [text, readValue_object, readBlock, expect_blank rfl, expect_blank rfl, expect_blank rfl,
      expect_other rfl (by decide)]
    simp only [items, Option.map_none]
  rw [readDocument, len, refused]
  rfl

end Jbuu.Book
