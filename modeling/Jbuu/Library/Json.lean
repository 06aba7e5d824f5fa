/-
# Library.Json — flat JSON objects, read and written

A reader of JSON objects whose members are strings, numbers without sign or fraction, truth
values and `null`, with no blanks between tokens; it takes all escapes of JSON but surrogate
pairs. A writer is given by how it escapes one character. If the reader undoes that
(`Escapes`), it undoes the writer: `readObject_object`.
-/
import Mathlib.Data.List.Basic
import Mathlib.Tactic.Cases

namespace Jbuu.Library.Json

set_option autoImplicit false

abbrev Text := List Char

inductive Scalar where
  | string (s : Text)
  | number (n : Nat)
  | bool (b : Bool)
  | null
  deriving DecidableEq, Repr

/-! ## Reading -/

def hexValue (c : Char) : Option Nat :=
  if '0' ≤ c ∧ c ≤ '9' then some (c.toNat - '0'.toNat)
  else if 'a' ≤ c ∧ c ≤ 'f' then some (c.toNat - 'a'.toNat + 10)
  else if 'A' ≤ c ∧ c ≤ 'F' then some (c.toNat - 'A'.toNat + 10)
  else none

/-- The character of a `\u` escape. -/
def unicode (a b c d : Char) : Option Char := do
  let n := 4096 * (← hexValue a) + 256 * (← hexValue b) + 16 * (← hexValue c) + (← hexValue d)
  if n.isValidChar then some (Char.ofNat n) else none

/-- A character before the rest of a string that was read. -/
def push (c : Char) (rest : Option (Text × Text)) : Option (Text × Text) :=
  rest.map fun r => (c :: r.1, r.2)

/-- A string from behind its opening quote on, and what follows it. -/
def readString : Text → Option (Text × Text)
  | '"' :: rest => some ([], rest)
  | '\\' :: 'u' :: a :: b :: c :: d :: rest =>
      match unicode a b c d with
      | some x => push x (readString rest)
      | none => none
  | '\\' :: '"' :: rest => push '"' (readString rest)
  | '\\' :: '\\' :: rest => push '\\' (readString rest)
  | '\\' :: '/' :: rest => push '/' (readString rest)
  | '\\' :: 'b' :: rest => push '\x08' (readString rest)
  | '\\' :: 'f' :: rest => push '\x0c' (readString rest)
  | '\\' :: 'n' :: rest => push '\n' (readString rest)
  | '\\' :: 'r' :: rest => push '\r' (readString rest)
  | '\\' :: 't' :: rest => push '\t' (readString rest)
  | c :: rest => if c = '\\' ∨ c < ' ' then none else push c (readString rest)
  | [] => none

/-- A number: digits, the first of which is zero only if it is the only one. -/
def readNumber (text : Text) : Option (Scalar × Text) :=
  let digits := text.takeWhile Char.isDigit
  if digits = [] ∨ (digits.head? = some '0' ∧ digits ≠ ['0']) then none
  else some (.number (Nat.ofDigitChars 10 digits 0), text.dropWhile Char.isDigit)

def readScalar : Text → Option (Scalar × Text)
  | '"' :: rest => (readString rest).map fun r => (.string r.1, r.2)
  | 't' :: 'r' :: 'u' :: 'e' :: rest => some (.bool true, rest)
  | 'f' :: 'a' :: 'l' :: 's' :: 'e' :: rest => some (.bool false, rest)
  | 'n' :: 'u' :: 'l' :: 'l' :: rest => some (.null, rest)
  | text => readNumber text

/-- The members of an object from behind its opening brace on. The count bounds how many
there are. -/
def readMembers : Nat → Text → Option (List (Text × Scalar) × Text)
  | 0, _ => none
  | n + 1, '"' :: rest =>
      match readString rest with
      | some (key, ':' :: rest) =>
          match readScalar rest with
          | some (value, '\x7d' :: rest) => some ([(key, value)], rest)
          | some (value, ',' :: rest) =>
              (readMembers n rest).map fun r => ((key, value) :: r.1, r.2)
          | _ => none
      | _ => none
  | _ + 1, _ => none

/-- A text that is one object and nothing else. -/
def readObject : Text → Option (List (Text × Scalar))
  | '\x7b' :: rest =>
      match readMembers rest.length rest with
      | some (members, []) => some members
      | _ => none
  | _ => none

/-! ## Writing -/

section Writer

variable (escape : Char → Text)

def quoted (s : Text) : Text := '"' :: (s.flatMap escape ++ ['"'])

def scalar : Scalar → Text
  | .string s => quoted escape s
  | .number n => Nat.toDigits 10 n
  | .bool true => "true".toList
  | .bool false => "false".toList
  | .null => "null".toList

def member (m : Text × Scalar) : Text := quoted escape m.1 ++ ':' :: scalar escape m.2

/-- Members behind the first, each after its comma. -/
def more (members : List (Text × Scalar)) : Text := members.flatMap fun m => ',' :: member escape m

theorem more_cons (m : Text × Scalar) (members : List (Text × Scalar)) :
    more escape (m :: members) = ',' :: (member escape m ++ more escape members) := rfl

def object (first : Text × Scalar) (rest : List (Text × Scalar)) : Text :=
  '\x7b' :: (member escape first ++ (more escape rest ++ ['\x7d']))

/-- The reader undoes the escape of any one character. -/
def Escapes : Prop := ∀ c rest, readString (escape c ++ rest) = push c (readString rest)

end Writer

/-! ## The round trip -/

section RoundTrip

variable {escape : Char → Text}

theorem readString_unicode {a b c d x : Char} (decoded : unicode a b c d = some x) (rest : Text) :
    readString ('\\' :: 'u' :: a :: b :: c :: d :: rest) = push x (readString rest) := by
  rw [readString, decoded]

theorem readString_quoted (escapes : Escapes escape) (s rest : Text) :
    readString (s.flatMap escape ++ '"' :: rest) = some (s, rest) := by
  induction s with
  | nil => rfl
  | cons c s ih =>
      rw [List.flatMap_cons, List.append_assoc, escapes, ih]
      rfl

/-- Digits are read up to a character that is none. -/
theorem span_digits {digits : Text} (all : ∀ c ∈ digits, c.isDigit = true) {stop : Char}
    (other : stop.isDigit = false) (rest : Text) :
    (digits ++ stop :: rest).takeWhile Char.isDigit = digits ∧
      (digits ++ stop :: rest).dropWhile Char.isDigit = stop :: rest := by
  rw [List.takeWhile_append_of_pos all, List.dropWhile_append_of_pos all]
  simp [other]

/-- Only zero is written with a zero in front. -/
theorem head_toDigits (n : Nat) (zero : (Nat.toDigits 10 n).head? = some '0') : n = 0 := by
  induction n using Nat.strongRecOn with
  | ind n ih =>
      rcases Nat.lt_or_ge n 10 with small | big
      · rw [Nat.toDigits_of_lt_base small] at zero
        have only : ∀ m < 10, m.digitChar = '0' → m = 0 := by decide
        exact only n small (by simpa using zero)
      · rw [Nat.toDigits_of_base_le (by omega) big] at zero
        have front : (Nat.toDigits 10 (n / 10)).head? = some '0' := by
          rwa [List.head?_append_of_ne_nil _ Nat.toDigits_ne_nil] at zero
        have := ih (n / 10) (by omega) front
        omega

theorem readNumber_toDigits (n : Nat) {stop : Char} (other : stop.isDigit = false) (rest : Text) :
    readNumber (Nat.toDigits 10 n ++ stop :: rest) = some (.number n, stop :: rest) := by
  have digits : ∀ c ∈ Nat.toDigits 10 n, c.isDigit = true :=
    fun c mem => Nat.isDigit_of_mem_toDigits (by omega) (by omega) mem
  obtain ⟨front, back⟩ := span_digits digits other rest
  have proper : ¬(Nat.toDigits 10 n = [] ∨
      ((Nat.toDigits 10 n).head? = some '0' ∧ Nat.toDigits 10 n ≠ ['0'])) := by
    rintro (none_ | ⟨zero, longer⟩)
    · exact Nat.toDigits_ne_nil none_
    · obtain rfl := head_toDigits n zero
      exact longer (Nat.toDigits_zero 10)
  unfold readNumber
  dsimp only
  rw [front, back, if_neg proper, Nat.ofDigitChars_ten_toDigits]

/-- A text that starts with a digit is read as a number. -/
theorem readScalar_digit {c : Char} (digit : c.isDigit = true) (rest : Text) :
    readScalar (c :: rest) = readNumber (c :: rest) := by
  unfold readScalar
  split <;> first | rfl | (rename_i same; cases same; exact absurd digit (by decide))

theorem readScalar_scalar (escapes : Escapes escape) (value : Scalar) {stop : Char}
    (other : stop.isDigit = false) (rest : Text) :
    readScalar (scalar escape value ++ stop :: rest) = some (value, stop :: rest) := by
  cases value with
  | string s =>
      simp only [scalar, quoted, List.cons_append, List.append_assoc, List.nil_append, readScalar,
        readString_quoted escapes]
      rfl
  | number n =>
      have number := readNumber_toDigits n other rest
      rw [scalar]
      cases written : Nat.toDigits 10 n with
      | nil => exact absurd written Nat.toDigits_ne_nil
      | cons c digits =>
          have digit : c.isDigit = true :=
            Nat.isDigit_of_mem_toDigits (by omega) (by omega) (written ▸ List.mem_cons_self ..)
          rw [written] at number
          rw [List.cons_append, readScalar_digit digit]
          exact number
  | bool b => cases b <;> rfl
  | null => rfl

theorem readMembers_more (escapes : Escapes escape) (first : Text × Scalar)
    (rest : List (Text × Scalar)) (n : Nat) (enough : rest.length < n) :
    readMembers n (member escape first ++ (more escape rest ++ ['\x7d'])) =
      some (first :: rest, []) := by
  induction rest generalizing first n with
  | nil =>
      obtain ⟨n, rfl⟩ := Nat.exists_eq_succ_of_ne_zero (Nat.ne_of_gt enough)
      simp only [member, quoted, more, List.flatMap_nil, List.nil_append, List.cons_append,
        List.append_assoc, readMembers, readString_quoted escapes,
        readScalar_scalar escapes first.2 (show Char.isDigit '\x7d' = false from rfl)]
  | cons second rest ih =>
      obtain ⟨n, rfl⟩ := Nat.exists_eq_succ_of_ne_zero (Nat.ne_of_gt (Nat.zero_lt_of_lt enough))
      have later := ih second n (by simpa using enough)
      simp only [member, quoted, more, List.flatMap_cons, List.nil_append, List.cons_append,
        List.append_assoc, readMembers, readString_quoted escapes,
        readScalar_scalar escapes first.2 (show Char.isDigit ',' = false from rfl)]
      simp only [member, quoted, more, List.cons_append, List.append_assoc, List.nil_append] at later
      rw [later]
      rfl

theorem length_more (rest : List (Text × Scalar)) : rest.length ≤ (more escape rest).length := by
  induction rest with
  | nil => exact Nat.le_refl 0
  | cons m rest ih =>
      simp only [more, List.flatMap_cons, List.length_append, List.length_cons] at *
      omega

/-- **What was written is read back.** -/
theorem readObject_object (escapes : Escapes escape) (first : Text × Scalar)
    (rest : List (Text × Scalar)) :
    readObject (object escape first rest) = some (first :: rest) := by
  have long_ := @length_more escape rest
  have members := readMembers_more escapes first rest
    (member escape first ++ (more escape rest ++ ['\x7d'])).length (by simp; omega)
  show (match readMembers _ (member escape first ++ (more escape rest ++ ['\x7d'])) with
    | some (members, []) => some members
    | _ => none) = _
  rw [members]

end RoundTrip

end Jbuu.Library.Json
