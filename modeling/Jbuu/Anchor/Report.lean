/-
# Anchor.Report — the report on the anchors as text

`AnchorInspectReport::to_json` of `otp-cli/src/anchorio.rs`. The paths go into the text as they are
displayed. A report is one JSON object with the report's values exactly where no path on it has a
quote, a backslash or a control character (`reports_are_json_iff`).
-/
import Jbuu.Anchor.Record
import Jbuu.Book.Report

namespace Jbuu.AnchorReport

set_option autoImplicit false

open Jbuu.Library.BigEndian (Bytes Exactly)
open Jbuu.Library.Json (Text)
open Jbuu.Library.JsonTree
open Jbuu.Book (hex digits plain_hex)

/-- What the inspection of one file gives. -/
structure AnchorStatus where
  record : Option AnchorRecord
  failure : Option ReadFailure
  deriving DecidableEq, Repr

structure AnchorInspectReport where
  a : AnchorStatus
  b : AnchorStatus
  deriving DecidableEq, Repr

/-- `bytes` is what the file gives, where it can be read. -/
def inspectAnchor (sha : Bytes → Digest) (bytes : Option Bytes) : AnchorStatus :=
  match bytes with
  | none => { record := none, failure := some .unreadable }
  | some bytes =>
      match decodeAndVerify sha bytes with
      | .ok record => { record := some record, failure := none }
      | .error _ => { record := none, failure := some .corrupt }

def failureName : Option ReadFailure → Text
  | some .unreadable => "unreadable".toList
  | some .corrupt => "corrupt".toList
  | none => "unknown".toList

def relation (a b : AnchorStatus) : Option Text :=
  match a.record, b.record with
  | some ra, some rb =>
      match decide (.ok ra) (.ok rb) with
      | .consistent _ => some "consistent".toList
      | .adoptHigher _ _ => some "adopt-higher (stale copy repairable)".toList
      | .quarantineCorrupt _ _ => some "quarantine".toList
      | .bothUnreadable => some "both-unreadable".toList
      | .cannotProveSafe _ => some "cannot-prove-safe".toList
  | _, _ => none

def payloadName (record : AnchorRecord) : Text :=
  match record.payload with
  | .init => "init".toList
  | .intent reserved => "intent(reserved=".toList ++ (digits reserved.get ++ [')'])
  | .commit previousSegmentHash => "commit(prev_hash=".toList ++ (hex previousSegmentHash.val ++ [')'])

/-- `"name":`. -/
def keyed (name : String) : Text := '"' :: (name.toList ++ ['"', ':'])

/-- A string between quotes, as it is. -/
def quoted (s : Text) : Text := '"' :: (s ++ ['"'])

def anchorJson (key : String) (path : Text) (st : AnchorStatus) : Text :=
  keyed key ++ '\x7b' :: (keyed "path" ++ (quoted path ++
    match st.record with
    | some record =>
        ',' :: (keyed "book_id" ++ (quoted (hex record.bookId.asBytes.val) ++
          ',' :: (keyed "next" ++ (digits record.next.get ++
            ',' :: (keyed "generation" ++ (digits record.generation.get ++
              ',' :: (keyed "payload" ++ (quoted (payloadName record) ++ ['\x7d']))))))))
    | none => ',' :: (keyed "error" ++ (quoted (failureName st.failure) ++ ['\x7d']))))

/-- The paths are as `display` gives them. -/
def AnchorInspectReport.toJson (r : AnchorInspectReport) (pathA : Text) (pathB : Option Text) : Text :=
  '\x7b' :: (anchorJson "a" pathA r.a ++
    ((match pathB with
      | some pathB => ',' :: (anchorJson "b" pathB r.b ++
          ',' :: (keyed "relation" ++ quoted ((relation r.a r.b).getD "unreadable-or-corrupt".toList)))
      | none => []) ++ ['\x7d']))

/-! ## The values -/

namespace AnchorStatus

variable (path : Text) (st : AnchorStatus)

def pathField : Field := ⟨"path".toList, .string path, quoted path⟩

/-- The members of a status behind the path. -/
def fields : List Field × Field :=
  match st.record with
  | some record =>
      ([⟨"book_id".toList, .string (hex record.bookId.asBytes.val), quoted (hex record.bookId.asBytes.val)⟩,
        ⟨"next".toList, .number record.next.get.toNat, digits record.next.get⟩,
        ⟨"generation".toList, .number record.generation.get.toNat, digits record.generation.get⟩],
        ⟨"payload".toList, .string (payloadName record), quoted (payloadName record)⟩)
  | none => ([], ⟨"error".toList, .string (failureName st.failure), quoted (failureName st.failure)⟩)

/-- What the object of a status says. -/
def value : Value := .object (((pathField path :: st.fields.1) ++ [st.fields.2]).map Field.member)

def field (key : String) : Field := ⟨key.toList, st.value path, objectText (pathField path :: st.fields.1) st.fields.2⟩

end AnchorStatus

/-- What the object of a report says. -/
def AnchorInspectReport.value (r : AnchorInspectReport) (pathA : Text) (pathB : Option Text) : Value :=
  .object (("a".toList, r.a.value pathA) ::
    match pathB with
    | some pathB => [("b".toList, r.b.value pathB),
        ("relation".toList, .string ((relation r.a r.b).getD "unreadable-or-corrupt".toList))]
    | none => [])

/-! ## Reading them -/

variable {path pathA : Text} {pathB : Option Text} {st : AnchorStatus} {r : AnchorInspectReport}

theorem anchorJson_eq (key : String) (path : Text) (st : AnchorStatus) :
    anchorJson key path st = (st.field path key).written := by
  cases record : st.record <;>
    simp [anchorJson, record, keyed, quoted, AnchorStatus.field, AnchorStatus.fields, AnchorStatus.pathField,
      objectText, Field.front, Field.written]

/-- The texts a report has of its own. -/
theorem plain_own : ∀ own ∈ ["path", "error", "book_id", "next", "generation", "payload", "a", "b", "relation",
    "unreadable", "corrupt", "unknown", "init", "intent(reserved=", "commit(prev_hash=", "consistent",
    "adopt-higher (stale copy repairable)", "quarantine", "both-unreadable", "cannot-prove-safe",
    "unreadable-or-corrupt"], Plain own.toList := by
  decide +kernel

theorem plain_append {front back : Text} (plain : Plain front) (plain' : Plain back) : Plain (front ++ back) :=
  fun c mem => (List.mem_append.mp mem).elim (plain c) (plain' c)

theorem plain_digits (n : UInt64) : Plain (digits n) := by
  intro c mem
  have digit : c.isDigit = true := Nat.isDigit_of_mem_toDigits (by omega) (by omega) mem
  refine ⟨?_, ?_, ?_⟩
  · rintro rfl
    exact absurd digit (by decide)
  · rintro rfl
    exact absurd digit (by decide)
  · have low : 48 ≤ c.toNat := (Char.isDigit_iff_toNat.mp digit).1
    rw [Char.lt_def, UInt32.lt_iff_toNat_lt]
    exact Nat.not_lt.mpr (Nat.le_trans (by decide) low)

theorem plain_failureName (failure : Option ReadFailure) : Plain (failureName failure) := by
  cases failure with
  | none => exact plain_own "unknown" (by simp)
  | some failure =>
      cases failure with
      | unreadable => exact plain_own "unreadable" (by simp)
      | corrupt => exact plain_own "corrupt" (by simp)

theorem plain_payloadName (record : AnchorRecord) : Plain (payloadName record) := by
  unfold payloadName
  cases record.payload with
  | init => exact plain_own "init" (by simp)
  | intent reserved =>
      exact plain_append (plain_own "intent(reserved=" (by simp)) (plain_append (plain_digits _) (by decide))
  | commit hash =>
      exact plain_append (plain_own "commit(prev_hash=" (by simp)) (plain_append (plain_hex _) (by decide))

theorem plain_relation (a b : AnchorStatus) : Plain ((relation a b).getD "unreadable-or-corrupt".toList) := by
  unfold relation
  split
  · split <;> exact plain_own _ (by simp)
  · exact plain_own "unreadable-or-corrupt" (by simp)

theorem reads_fields (path : Text) (plain : Plain path) (st : AnchorStatus) :
    ∀ f ∈ (AnchorStatus.pathField path :: st.fields.1) ++ [st.fields.2], Plain f.key ∧ Reads f.value f.text := by
  have key : Plain "path".toList := plain_own "path" (by simp)
  have first : Plain (AnchorStatus.pathField path).key ∧
      Reads (AnchorStatus.pathField path).value (AnchorStatus.pathField path).text := ⟨key, .string plain⟩
  rw [List.cons_append]
  refine List.forall_mem_cons.mpr ⟨first, ?_⟩
  unfold AnchorStatus.fields
  cases st.record with
  | none =>
      have error : Plain "error".toList := plain_own "error" (by simp)
      exact List.forall_mem_singleton.mpr ⟨error, .string (plain_failureName _)⟩
  | some record =>
      have bookId : Plain "book_id".toList := plain_own "book_id" (by simp)
      have next : Plain "next".toList := plain_own "next" (by simp)
      have generation : Plain "generation".toList := plain_own "generation" (by simp)
      have payload : Plain "payload".toList := plain_own "payload" (by simp)
      simp only [List.cons_append, List.nil_append, List.forall_mem_cons]
      exact ⟨⟨bookId, .string (plain_hex _)⟩, ⟨next, .number _⟩, ⟨generation, .number _⟩,
        ⟨payload, .string (plain_payloadName _)⟩, nofun⟩

/-- The object of a status with a plain path is read back. -/
theorem reads_field (plain : Plain path) (key : String) :
    Reads (st.field path key).value (st.field path key).text :=
  Reads.object (reads_fields path plain st)

/-- Behind the path stands a comma and the quote of the next key. -/
theorem text_field (path : Text) (st : AnchorStatus) (key : String) (after : Text) : ∃ tail,
    (st.field path key).text ++ after = '\x7b' :: (Field.front [] ++ '"' :: ("path".toList ++ '"' :: ':' ::
      '"' :: (path ++ '"' :: ',' :: '"' :: tail))) := by
  have quote : ∃ tail, Field.front st.fields.1 ++ st.fields.2.written = '"' :: tail := by
    cases st.fields.1 with
    | nil => exact ⟨_, rfl⟩
    | cons f fields => exact ⟨_, rfl⟩
  obtain ⟨tail, same⟩ := quote
  refine ⟨tail ++ '\x7d' :: after, ?_⟩
  have whole : (st.field path key).text ++ after = '\x7b' :: ('"' :: ("path".toList ++ '"' :: ':' ::
      '"' :: (path ++ '"' :: ',' :: (Field.front st.fields.1 ++ st.fields.2.written ++ '\x7d' :: after)))) := by
    simp [AnchorStatus.field, objectText, AnchorStatus.pathField, Field.front, Field.written, quoted]
  rw [whole, same]
  rfl

/-- It is read back only with one. -/
theorem plain_of_field {n : Nat} {key : String} {after rest : Text} (enough : 3 ≤ n)
    (read : readValue n ((st.field path key).text ++ after) = some (st.value path, rest)) : Plain path := by
  obtain ⟨n, rfl⟩ : ∃ m, n = m + 2 := ⟨n - 2, by omega⟩
  have name : Plain "path".toList := plain_own "path" (by simp)
  obtain ⟨tail, text⟩ := text_field path st key after
  rw [text] at read
  obtain ⟨v, rest', more, same, inner⟩ := readValue_object_behind name (by simp) (Nat.succ_pos n) read
  obtain rfl : v = .string path := by
    have members := (Value.object.inj same)
    rw [List.cons_append, List.map_cons] at members
    exact (congrArg Prod.snd (List.cons.inj members).1).symm
  rw [readValue_string] at inner
  obtain ⟨⟨s, rest''⟩, string, same⟩ := Option.map_eq_some_iff.mp inner
  cases same
  exact plain_of_readText string

/-! ## The report -/

theorem toJson_none (r : AnchorInspectReport) (pathA : Text) :
    r.toJson pathA none = objectText [] (r.a.field pathA "a") := by
  rw [AnchorInspectReport.toJson, anchorJson_eq]
  rfl

theorem toJson_some (r : AnchorInspectReport) (pathA pathB : Text) :
    r.toJson pathA (some pathB) = objectText [r.a.field pathA "a", r.b.field pathB "b"]
      ⟨"relation".toList, .string ((relation r.a r.b).getD "unreadable-or-corrupt".toList),
        quoted ((relation r.a r.b).getD "unreadable-or-corrupt".toList)⟩ := by
  rw [AnchorInspectReport.toJson, anchorJson_eq, anchorJson_eq]
  simp [objectText, Field.front, Field.written, keyed]

/-- A text that reads as a value is a document. -/
theorem readDocument_of_reads {v : Value} {text : Text} (reads : Reads v text) : readDocument text = some v := by
  have read := reads (text.length + 1) [] (Nat.le_succ _) nofun
  rw [List.append_nil] at read
  rw [readDocument, read]
  rfl

/-- **A report with plain paths is read back.** -/
theorem readDocument_toJson (plainA : Plain pathA) (plainB : ∀ p ∈ pathB, Plain p) :
    readDocument (r.toJson pathA pathB) = some (r.value pathA pathB) := by
  have a : Plain "a".toList := plain_own "a" (by simp)
  have b : Plain "b".toList := plain_own "b" (by simp)
  have rel : Plain "relation".toList := plain_own "relation" (by simp)
  cases pathB with
  | none =>
      rw [toJson_none]
      exact readDocument_of_reads (Reads.object (List.forall_mem_singleton.mpr ⟨a, reads_field plainA "a"⟩))
  | some pathB =>
      rw [toJson_some]
      refine readDocument_of_reads (Reads.object ?_)
      simp only [List.cons_append, List.nil_append, List.forall_mem_cons]
      exact ⟨⟨a, reads_field plainA "a"⟩, ⟨b, reads_field (plainB pathB rfl) "b"⟩,
        ⟨rel, .string (plain_relation _ _)⟩, nofun⟩

/-- The member of a copy, behind members that are read back, is read back only with a plain path. -/
theorem plain_of_member {n : Nat} {key : String} {fields : List Field} {more : List (Text × Value)}
    {after rest : Text} (plain : Plain key.toList) (ok : ∀ f ∈ fields, f.Ok n) (few : fields.length < n) (enough : 3 ≤ n)
    (read : readValue (n + 1) ('\x7b' :: (Field.front fields ++ ((st.field path key).written ++ after))) =
      some (.object (fields.map Field.member ++ (key.toList, st.value path) :: more), rest)) : Plain path := by
  have written : (st.field path key).written ++ after =
      '"' :: (key.toList ++ '"' :: ':' :: ((st.field path key).text ++ after)) := by
    simp [Field.written, AnchorStatus.field]
  rw [written] at read
  obtain ⟨v, rest', more', same, inner⟩ := readValue_object_behind plain ok few read
  have members := List.append_cancel_left (Value.object.inj same)
  obtain rfl : st.value path = v := congrArg Prod.snd (List.cons.inj members).1
  exact plain_of_field enough inner

/-- **A report that is read back has plain paths.** -/
theorem plain_of_readDocument (read : readDocument (r.toJson pathA pathB) = some (r.value pathA pathB)) :
    Plain pathA ∧ ∀ p ∈ pathB, Plain p := by
  have a : Plain "a".toList := plain_own "a" (by simp)
  have b : Plain "b".toList := plain_own "b" (by simp)
  obtain ⟨rest, value⟩ : ∃ rest,
      readValue ((r.toJson pathA pathB).length + 1) (r.toJson pathA pathB) = some (r.value pathA pathB, rest) := by
    obtain ⟨⟨v, rest⟩, value, end_⟩ := Option.bind_eq_some_iff.mp read
    refine ⟨rest, ?_⟩
    dsimp only at end_
    split at end_
    · cases end_
      exact value
    · cases end_
  cases pathB with
  | none =>
      rw [toJson_none] at value
      have long_ : 3 ≤ (objectText [] (r.a.field pathA "a")).length := by
        simp [objectText, Field.written]
        omega
      have plainA := @plain_of_member pathA r.a _ "a" [] [] ['\x7d'] rest a (by simp) (Nat.lt_of_lt_of_le (Nat.succ_pos 2) long_)
        long_ value
      exact ⟨plainA, by rintro _ ⟨⟩⟩
  | some pathB =>
      rw [toJson_some] at value
      let relationField : Field := ⟨"relation".toList, .string ((relation r.a r.b).getD "unreadable-or-corrupt".toList),
        quoted ((relation r.a r.b).getD "unreadable-or-corrupt".toList)⟩
      have textA : objectText [r.a.field pathA "a", r.b.field pathB "b"] relationField =
          '\x7b' :: (Field.front [] ++ ((r.a.field pathA "a").written ++ ',' :: ((r.b.field pathB "b").written ++
            ',' :: (relationField.written ++ ['\x7d'])))) := by
        simp [objectText, Field.front]
      have textB : objectText [r.a.field pathA "a", r.b.field pathB "b"] relationField =
          '\x7b' :: (Field.front [r.a.field pathA "a"] ++ ((r.b.field pathB "b").written ++
            ',' :: (relationField.written ++ ['\x7d']))) := by
        simp [objectText, Field.front]
      have enough : (r.a.field pathA "a").text.length + 4 ≤
          (objectText [r.a.field pathA "a", r.b.field pathB "b"] relationField).length := by
        rw [textB]
        simp only [Field.front, Field.written, List.flatMap_cons, List.length_cons, List.length_append]
        omega
      generalize (objectText [r.a.field pathA "a", r.b.field pathB "b"] relationField).length = n at enough value
      have plainA : Plain pathA := by
        rw [textA] at value
        exact plain_of_member a (by simp) (by simp; omega) (by omega) value
      refine ⟨plainA, fun p same => ?_⟩
      cases same
      rw [textB] at value
      exact plain_of_member b (List.forall_mem_singleton.mpr ⟨a, reads_field plainA "a", by omega⟩)
        (by simp; omega) (by omega) value

/-- **Which reports are JSON.** No report on a book is; a report on the anchors is one object that
gives back its values exactly where no path has a character that a string must escape. -/
theorem reports_are_json_iff {F : Type} (floats : Book.Floats F) (book : Book.InspectReport F)
    (anchors : AnchorInspectReport) (pathA : Text) (pathB : Option Text) :
    readDocument (book.toJson floats) = none ∧
      (readDocument (anchors.toJson pathA pathB) = some (anchors.value pathA pathB) ↔
        Plain pathA ∧ ∀ p ∈ pathB, Plain p) :=
  ⟨Book.toJson_is_no_document floats book,
    plain_of_readDocument, fun ⟨plainA, plainB⟩ => readDocument_toJson plainA plainB⟩

/-- The report on a book of one segment, and the one on an unreadable anchor at `a"b`: neither text
is JSON. -/
theorem texts_are_not_json :
    let floats : Book.Floats Unit := ⟨(), fun _ _ => (), fun _ => true, fun _ => "0.500000"⟩
    let book : Book.InspectReport Unit :=
      Book.reportOf floats ⟨Book.bookVersion, ⟨Exactly.replicate 16 7⟩, 64, 1⟩ { Book.Tally.empty with ones := 256 }
    let anchors : AnchorInspectReport := ⟨⟨none, some .unreadable⟩, ⟨none, some .unreadable⟩⟩
    readDocument (book.toJson floats) = none ∧ (readDocument (anchors.toJson "a\"b".toList none)).isNone := by
  intro floats book anchors
  exact ⟨Book.toJson_is_no_document floats book, by decide +kernel⟩

end Jbuu.AnchorReport
