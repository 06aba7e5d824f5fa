/-
# Platform.AuditLog — one line of JSON per audit entry

`audit_entry_to_json` and `JsonlAuditSink::write_entry` of `otp-platform`. A line is appended with
`write_full` and synced; where that fails the caller goes on, and the next line is appended behind
whatever the file took of this one.

The JSON of an entry has no end of line in it, and only its first character opens an object. So a
part of a line that another line follows makes no entry, and the log is its entries, line by line,
exactly where no line that was cut is followed by one that was not (`entries_are_whole_iff`).
-/
import Jbuu.Library.Json
import Jbuu.Library.Lines
import Jbuu.Library.Runs
import Jbuu.Platform.Write

namespace Jbuu.AuditLog

set_option autoImplicit false

open Jbuu.Library.BigEndian (Bytes)
open Jbuu.Library
open Jbuu.Library.Json (Text)

/-! ## The entries -/

inductive Outcome where
  | issued
  | wasted
  | rejected
  | recovered
  | quarantined
  deriving DecidableEq, Repr

structure AuditEntry where
  bookId : BookId
  segment : SegmentIndex
  generation : Generation
  outcome : Outcome
  errorCategory : Option ErrorCategory
  deriving DecidableEq, Repr

def outcomeStr : Outcome → Text
  | .issued => "issued".toList
  | .wasted => "wasted".toList
  | .rejected => "rejected".toList
  | .recovered => "recovered".toList
  | .quarantined => "quarantined".toList

def categoryStr : ErrorCategory → Text
  | .book => "book".toList
  | .codec => "codec".toList
  | .anchor => "anchor".toList
  | .allocation => "allocation".toList
  | .recovery => "recovery".toList
  | .handshake => "handshake".toList
  | .session => "session".toList
  | .transport => "transport".toList
  | .terminal => "terminal".toList
  | .platform => "platform".toList
  | .internal => "internal".toList

/-- `format!("{b:02x}")`. -/
def hex2 (b : UInt8) : Text := [(b.toNat / 16).digitChar, (b.toNat % 16).digitChar]

/-- What `audit_entry_to_json` pushes behind the opening brace. -/
def auditBody (e : AuditEntry) : Text :=
  "\"book_id\":\"".toList ++ (e.bookId.asBytes.val.flatMap hex2 ++ ("\",\"segment\":".toList ++
    (Nat.toDigits 10 e.segment.get.toNat ++ (",\"generation\":".toList ++
      (Nat.toDigits 10 e.generation.get.toNat ++ (",\"outcome\":\"".toList ++ (outcomeStr e.outcome ++
        ("\",\"error_category\":".toList ++ ((match e.errorCategory with
          | some category => '"' :: (categoryStr category ++ ['"'])
          | none => "null".toList) ++ ['\x7d'])))))))))

def auditEntryToJson (e : AuditEntry) : Text := '\x7b' :: auditBody e

/-- The bytes of the JSON. -/
def json (e : AuditEntry) : Bytes := (auditEntryToJson e).flatMap String.utf8EncodeChar

/-- The end of line. -/
def newline : UInt8 := 10

/-- What is handed to `write_full`. -/
def line (e : AuditEntry) : Bytes := json e ++ [newline]

/-! ### One brace, no end of line -/

/-- What stands within the JSON behind its first character. -/
def Inner (c : Char) : Prop := 0x20 ≤ c.toNat ∧ c.toNat < 0x80 ∧ c ≠ '\x7b'

instance : DecidablePred Inner := fun c => inferInstanceAs (Decidable (0x20 ≤ c.toNat ∧ c.toNat < 0x80 ∧ c ≠ '\x7b'))

/-- Every character of a text is one. -/
def Inside (text : Text) : Prop := ∀ c ∈ text, Inner c

namespace Inside

variable {front back : Text}

theorem of_all (all : front.all (fun c => Decidable.decide (Inner c)) = true) : Inside front :=
  fun c mem => of_decide_eq_true (List.all_eq_true.mp all c mem)

theorem append (inside : Inside front) (inside' : Inside back) : Inside (front ++ back) := by
  intro c mem
  exact (List.mem_append.mp mem).elim (inside c) (inside' c)

theorem digits (n : Nat) : Inside (Nat.toDigits 10 n) := by
  intro c mem
  have digit := Char.isDigit_iff_toNat.mp (Nat.isDigit_of_mem_toDigits (by omega) (by omega) mem)
  have low : 48 ≤ c.toNat := digit.1
  have high : c.toNat ≤ 57 := digit.2
  refine ⟨by omega, by omega, ?_⟩
  rintro rfl
  exact absurd high (by decide)

theorem hex2 (b : UInt8) : Inside (hex2 b) := by
  have all : ∀ n < 16, Inner n.digitChar := by decide
  have small := b.toNat_lt
  intro c mem
  rcases List.mem_cons.mp mem with rfl | mem
  · exact all _ (by omega)
  · rw [List.mem_singleton.mp mem]
    exact all _ (by omega)

theorem auditBody (e : AuditEntry) : Inside (auditBody e) := by
  have id : Inside (e.bookId.asBytes.val.flatMap AuditLog.hex2) := by
    intro c mem
    obtain ⟨b, -, here⟩ := List.mem_flatMap.mp mem
    exact hex2 b c here
  have outcome : Inside (outcomeStr e.outcome) := by cases e.outcome <;> exact of_all (by decide)
  have category : Inside (match e.errorCategory with
      | some category => '"' :: (categoryStr category ++ ['"'])
      | none => "null".toList) := by
    cases e.errorCategory with
    | none => exact of_all (by decide)
    | some category => cases category <;> exact of_all (by decide)
  unfold AuditLog.auditBody
  refine append (of_all (by decide)) (append id (append (of_all (by decide)) (append (digits _) ?_)))
  refine append (of_all (by decide)) (append (digits _) (append (of_all (by decide)) (append outcome ?_)))
  exact append (of_all (by decide)) (append category (of_all (by decide)))

end Inside

/-- The opening brace as a byte. -/
def brace : UInt8 := 0x7b

/-- A character of the JSON is one byte, its code. -/
theorem utf8_inner {c : Char} (inner : Inner c) : String.utf8EncodeChar c = [UInt8.ofNat c.toNat] := by
  have ascii : c.val.toNat ≤ 0x7f := by
    have := inner.2.1
    show c.toNat ≤ 0x7f
    omega
  unfold String.utf8EncodeChar
  dsimp only
  rw [if_pos ascii]
  rfl

/-- The JSON is a brace, and bytes that are neither a brace nor an end of line. -/
theorem json_eq (e : AuditEntry) : ∃ body, json e = brace :: body ∧ brace ∉ body ∧ newline ∉ body := by
  refine ⟨(auditBody e).flatMap String.utf8EncodeChar, rfl, ?_, ?_⟩
  all_goals
    intro mem
    obtain ⟨c, here, byte⟩ := List.mem_flatMap.mp mem
    have inner := Inside.auditBody e c here
    obtain ⟨low, high, other⟩ := inner
    rw [utf8_inner ⟨low, high, other⟩] at byte
    have same := congrArg UInt8.toNat (List.mem_singleton.mp byte)
    rw [UInt8.toNat_ofNat', Nat.mod_eq_of_lt (by omega)] at same
  · exact other (Char.ext (UInt32.toNat_inj.mp same.symm))
  · have ten : newline.toNat = 10 := rfl
    omega

/-! ## The log -/

/-- A call of `write_entry`, and what the file answers. -/
structure Attempt where
  entry : AuditEntry
  writes : List WriteSome
  sync : Bool
  deriving DecidableEq, Repr

namespace Attempt

/-- What the file takes of the line. -/
def piece (a : Attempt) : Bytes := (writeFull a.writes (line a.entry)).2

/-- `write_entry`. -/
def writeEntry (a : Attempt) (log : Bytes) : Except PlatformError Unit × Bytes :=
  match (writeFull a.writes (line a.entry)).1 with
  | .error e => (.error e, log ++ a.piece)
  | .ok () => (if a.sync then .ok () else .error .fsyncUncertain, log ++ a.piece)

/-- The call returns `Ok`. -/
def Ok (a : Attempt) : Prop := (a.writeEntry []).1 = .ok ()

/-- The line is written to its end. -/
def Ends (a : Attempt) : Prop := a.piece = line a.entry

/-- A part of the line is written, but not to its end. -/
def Cut (a : Attempt) : Prop := a.piece ≠ [] ∧ ¬a.Ends

instance : DecidablePred Ok := fun _ => inferInstanceAs (Decidable (_ = _))

instance : DecidablePred Ends := fun _ => inferInstanceAs (Decidable (_ = _))

end Attempt

/-- The log after the calls: the caller goes on whatever they return. -/
def logOf (attempts : List Attempt) : Bytes := run (fun a log => (a.writeEntry log).2) attempts []

/-- The lines of the log are the entries of calls, those that returned `Ok` among them, in the
order of the calls. -/
structure Whole (attempts : List Attempt) : Prop where
  lines : ∀ l ∈ completeLines newline (logOf attempts), ∃ a ∈ attempts, l = json a.entry
  calls : ∃ written, written.Sublist attempts ∧ (attempts.filter (·.Ok)).Sublist written ∧
    completeLines newline (logOf attempts) = written.map fun a => json a.entry

namespace Attempt

variable {a : Attempt}

theorem ends_of_ok (ok : a.Ok) : a.Ends := by
  unfold Ok writeEntry at ok
  split at ok
  · nomatch ok
  · rename_i whole
    exact writeFull_of_ok whole

/-- What is cut has no end of line, and begins with the brace. -/
theorem piece_of_not_ends (open_ : ¬a.Ends) : newline ∉ a.piece := by
  obtain ⟨body, json_, -, clean⟩ := json_eq a.entry
  have clean : newline ∉ json a.entry := by
    rw [json_, List.mem_cons, not_or]
    exact ⟨by decide, clean⟩
  intro mem
  rcases List.prefix_concat_iff.mp (writeFull_front a.writes (line a.entry)) with all | part
  · exact open_ all
  · exact clean (part.subset mem)

end Attempt

theorem logOf_eq (attempts : List Attempt) : logOf attempts = attempts.flatMap Attempt.piece := by
  have each : ∀ (attempts : List Attempt) (log : Bytes),
      run (fun a log => (a.writeEntry log).2) attempts log = log ++ attempts.flatMap Attempt.piece := by
    intro attempts
    induction attempts with
    | nil => exact fun log => (List.append_nil log).symm
    | cons a rest ih =>
        intro log
        have one : (a.writeEntry log).2 = log ++ a.piece := by
          unfold Attempt.writeEntry
          split <;> rfl
        rw [run, ih, one, List.flatMap_cons, List.append_assoc]
  exact each attempts []

theorem lines_nil : completeLines newline (logOf []) = [] := rfl

theorem lines_ended {a : Attempt} (ends : a.Ends) (rest : List Attempt) :
    completeLines newline (logOf (a :: rest)) = json a.entry :: completeLines newline (logOf rest) := by
  have clean : newline ∉ json a.entry := by
    obtain ⟨body, json_, -, clean⟩ := json_eq a.entry
    rw [json_, List.mem_cons, not_or]
    exact ⟨by decide, clean⟩
  rw [logOf_eq, List.flatMap_cons, ends, line, List.append_assoc, logOf_eq]
  exact completeLines_line clean _

theorem lines_open {a : Attempt} (open_ : ¬a.Ends) (rest : List Attempt) :
    completeLines newline (logOf (a :: rest)) =
      (completeLines newline (logOf rest)).modifyHead (a.piece ++ ·) := by
  rw [logOf_eq, List.flatMap_cons, logOf_eq]
  exact completeLines_append (Attempt.piece_of_not_ends open_) _

/-- Where no line is ended the log has none. -/
theorem lines_of_open {attempts : List Attempt} (open_ : ∀ a ∈ attempts, ¬a.Ends) :
    completeLines newline (logOf attempts) = [] := by
  induction attempts with
  | nil => exact lines_nil
  | cons a rest ih =>
      rw [lines_open (open_ a (List.mem_cons_self ..)), ih fun b mem => open_ b (List.mem_cons_of_mem _ mem)]
      rfl

/-- The first line that is ended has a brace. -/
theorem brace_of_first {attempts : List Attempt} {l : Bytes} {lines : List Bytes}
    (first : completeLines newline (logOf attempts) = l :: lines) : brace ∈ l := by
  induction attempts generalizing l lines with
  | nil => nomatch lines_nil.symm.trans first
  | cons a rest ih =>
      by_cases ends : a.Ends
      · rw [lines_ended ends] at first
        obtain ⟨body, json_, -⟩ := json_eq a.entry
        rw [← (List.cons.inj first).1, json_]
        exact List.mem_cons_self ..
      · rw [lines_open ends] at first
        cases later : completeLines newline (logOf rest) with
        | nil => rw [later] at first; nomatch first
        | cons l' lines' =>
            rw [later, List.modifyHead_cons] at first
            rw [← (List.cons.inj first).1]
            exact List.mem_append_right _ (ih later)

/-- An entry does not begin with a part of a line that an entry follows. -/
theorem not_entry {a : Attempt} (some_ : a.piece ≠ []) {l : Bytes} (mem : brace ∈ l) (e : AuditEntry) :
    a.piece ++ l ≠ json e := by
  intro same
  obtain ⟨body, json_, once, -⟩ := json_eq e
  cases piece : a.piece with
  | nil => exact some_ piece
  | cons b rest =>
      rw [piece, json_, List.cons_append] at same
      rw [← (List.cons.inj same).2] at once
      exact once (List.mem_append_right _ mem)

/-- Lines that are entries come from a log in which no line that was cut is followed by one that
was ended. -/
theorem uncut_of_lines {attempts : List Attempt}
    (entries : ∀ l ∈ completeLines newline (logOf attempts), ∃ e, l = json e) :
    attempts.Pairwise fun a b => a.Cut → ¬b.Ends := by
  induction attempts with
  | nil => exact .nil
  | cons a rest ih =>
      by_cases ends : a.Ends
      · rw [lines_ended ends] at entries
        exact .cons (fun b _ cut => absurd ends cut.2) (ih fun l mem => entries l (List.mem_cons_of_mem _ mem))
      · rw [lines_open ends] at entries
        cases later : completeLines newline (logOf rest) with
        | nil =>
            refine .cons (fun b mem _ endsB => ?_) (ih fun l mem => ?_)
            · have some_ : newline ∈ logOf rest := by
                rw [logOf_eq]
                refine List.mem_flatMap.mpr ⟨b, mem, ?_⟩
                rw [endsB]
                exact List.mem_append_right _ (List.mem_singleton_self _)
              exact completeLines_ne_nil some_ later
            · rw [later] at mem
              nomatch mem
        | cons l lines =>
            rw [later, List.modifyHead_cons] at entries
            by_cases none_ : a.piece = []
            · rw [none_, List.nil_append, ← later] at entries
              exact .cons (fun b _ cut => absurd none_ cut.1) (ih entries)
            · obtain ⟨e, same⟩ := entries _ (List.mem_cons_self ..)
              exact absurd same (not_entry none_ (brace_of_first later) e)

theorem calls_of_uncut {attempts : List Attempt} (uncut : attempts.Pairwise fun a b => a.Cut → ¬b.Ends) :
    ∃ written, written.Sublist attempts ∧ (attempts.filter (·.Ok)).Sublist written ∧
      completeLines newline (logOf attempts) = written.map fun a => json a.entry := by
  induction uncut with
  | nil => exact ⟨[], .slnil, .slnil, lines_nil⟩
  | @cons a rest later _ ih =>
      obtain ⟨written, taken, ok, lines⟩ := ih
      by_cases ends : a.Ends
      · refine ⟨a :: written, taken.cons_cons a, ?_, ?_⟩
        · rw [List.filter_cons]
          split
          · exact ok.cons_cons a
          · exact ok.cons a
        · rw [lines_ended ends, lines]
          rfl
      · have notOk : ¬a.Ok := fun ok => ends (Attempt.ends_of_ok ok)
        have filter_ : (a :: rest).filter (·.Ok) = rest.filter (·.Ok) := by
          rw [List.filter_cons, if_neg (by simpa using notOk)]
        by_cases none_ : a.piece = []
        · refine ⟨written, taken.cons a, by rw [filter_]; exact ok, ?_⟩
          rw [← lines, logOf_eq, List.flatMap_cons, none_, List.nil_append, logOf_eq]
        · have open_ : ∀ b ∈ a :: rest, ¬b.Ends := by
            intro b mem
            rcases List.mem_cons.mp mem with rfl | mem
            · exact ends
            · exact later b mem ⟨none_, ends⟩
          refine ⟨[], List.nil_sublist _, ?_, lines_of_open open_⟩
          rw [List.sublist_nil, List.filter_eq_nil_iff]
          intro b mem okB
          exact open_ b mem (Attempt.ends_of_ok (of_decide_eq_true okB))

/-- **The log is its entries, line by line**, exactly where no call that wrote a part of its line
is followed by one that wrote its line to the end. -/
theorem entries_are_whole_iff (attempts : List Attempt) :
    Whole attempts ↔ attempts.Pairwise fun a b => a.Cut → ¬b.Ends := by
  constructor
  · intro whole
    refine uncut_of_lines fun l mem => ?_
    obtain ⟨a, -, same⟩ := whole.lines l mem
    exact ⟨a.entry, same⟩
  · intro uncut
    have calls := calls_of_uncut uncut
    refine ⟨fun l mem => ?_, calls⟩
    obtain ⟨written, taken, -, lines⟩ := calls
    rw [lines] at mem
    obtain ⟨a, here, same⟩ := List.mem_map.mp mem
    exact ⟨a, taken.subset here, same.symm⟩

/-- The medium is full in the middle of a rejection; there is room again for what is issued next. -/
def cutOff : List Attempt :=
  let rejected : AuditEntry := ⟨⟨.replicate 16 7⟩, ⟨3⟩, ⟨5⟩, .rejected, some .handshake⟩
  [⟨rejected, [.wrote 20, .failed .noSpace], true⟩, ⟨{ rejected with outcome := .issued, errorCategory := none }, [], true⟩]

/-- The call for what was issued returns `Ok`, and its line begins with the rest of the other. -/
theorem cut_entry_spoils_the_next :
    cutOff.map (fun a => (a.writeEntry []).1) = [.error .noSpace, .ok ()] ∧
      (completeLines newline (logOf cutOff)).length = 1 ∧
      ∀ l ∈ completeLines newline (logOf cutOff), ∀ a ∈ cutOff, l ≠ json a.entry := by
  decide +kernel

end Jbuu.AuditLog
