/-
# Library.JsonTree — JSON documents

A reader of JSON as the standard has it: objects and arrays in any nesting, blanks between all
tokens, numbers with sign, fraction and exponent, and every escape. A `\u` escape is a code unit,
so that a pair of surrogates is one character and a surrogate alone is refused (`joinUnits`).

For texts that are put together by hand, `Reads` is what composes: a value whose text is read
inside any text that goes on behind it. A string that is written as it is comes back where it is
`Plain`, and only there: what is read of another one, up to the quote and comma that were meant to
end it, is not the string (`plain_of_readText`).
-/
import Jbuu.Library.Json

namespace Jbuu.Library.JsonTree

set_option autoImplicit false

open Jbuu.Library.Json (Text hexValue)

inductive Value where
  | string (s : Text)
  /-- a number without sign, fraction and exponent -/
  | number (n : Nat)
  /-- any other number, as it is written -/
  | literal (text : Text)
  | bool (b : Bool)
  | null
  | array (elements : List Value)
  | object (members : List (Text × Value))

/-! ## Strings -/

/-- A character, or the code unit of a `\u` escape. -/
inductive CodeUnit where
  | char (c : Char)
  | code (n : Nat)
  deriving DecidableEq, Repr

def codeUnit (a b c d : Char) : Option CodeUnit := do
  pure (.code (4096 * (← hexValue a) + 256 * (← hexValue b) + 16 * (← hexValue c) + (← hexValue d)))

/-- A unit before the rest of a string that was read. -/
def push (u : CodeUnit) (rest : Option (List CodeUnit × Text)) : Option (List CodeUnit × Text) :=
  rest.map fun r => (u :: r.1, r.2)

/-- The units of a string from behind its opening quote on, and what follows it. -/
def readUnits : Text → Option (List CodeUnit × Text)
  | '"' :: rest => some ([], rest)
  | '\\' :: 'u' :: a :: b :: c :: d :: rest =>
      match codeUnit a b c d with
      | some u => push u (readUnits rest)
      | none => none
  | '\\' :: '"' :: rest => push (.char '"') (readUnits rest)
  | '\\' :: '\\' :: rest => push (.char '\\') (readUnits rest)
  | '\\' :: '/' :: rest => push (.char '/') (readUnits rest)
  | '\\' :: 'b' :: rest => push (.char '\x08') (readUnits rest)
  | '\\' :: 'f' :: rest => push (.char '\x0c') (readUnits rest)
  | '\\' :: 'n' :: rest => push (.char '\n') (readUnits rest)
  | '\\' :: 'r' :: rest => push (.char '\r') (readUnits rest)
  | '\\' :: 't' :: rest => push (.char '\t') (readUnits rest)
  | c :: rest => if c = '\\' ∨ c < ' ' then none else push (.char c) (readUnits rest)
  | [] => none

/-- The character of a pair of surrogates. -/
def surrogates (high low : Nat) : Option Char :=
  if 0xd800 ≤ high ∧ high < 0xdc00 ∧ 0xdc00 ≤ low ∧ low < 0xe000 then
    some (Char.ofNat (0x10000 + 0x400 * (high - 0xd800) + (low - 0xdc00)))
  else none

/-- The characters of the units. -/
def joinUnits : List CodeUnit → Option Text
  | [] => some []
  | .char c :: rest => (joinUnits rest).map (c :: ·)
  | .code n :: .code m :: rest =>
      if n.isValidChar then (joinUnits (.code m :: rest)).map (Char.ofNat n :: ·)
      else
        match surrogates n m with
        | some c => (joinUnits rest).map (c :: ·)
        | none => none
  | .code n :: rest => if n.isValidChar then (joinUnits rest).map (Char.ofNat n :: ·) else none

/-- A string from behind its opening quote on, and what follows it. -/
def readText (text : Text) : Option (Text × Text) := do
  let (units, rest) ← readUnits text
  let s ← joinUnits units
  pure (s, rest)

/-! ## Numbers -/

/-- A fraction, if one follows. -/
def readFraction : Text → Option (Text × Text)
  | '.' :: rest =>
      if rest.takeWhile Char.isDigit = [] then none
      else some ('.' :: rest.takeWhile Char.isDigit, rest.dropWhile Char.isDigit)
  | rest => some ([], rest)

/-- The digits of an exponent behind its sign. -/
def readExponentDigits (front rest : Text) : Option (Text × Text) :=
  if rest.takeWhile Char.isDigit = [] then none
  else some (front ++ rest.takeWhile Char.isDigit, rest.dropWhile Char.isDigit)

/-- An exponent, if one follows. -/
def readExponent : Text → Option (Text × Text)
  | e :: rest =>
      if e = 'e' ∨ e = 'E' then
        match rest with
        | '+' :: rest => readExponentDigits [e, '+'] rest
        | '-' :: rest => readExponentDigits [e, '-'] rest
        | rest => readExponentDigits [e] rest
      else some ([], e :: rest)
  | [] => some ([], [])

/-- A number behind its sign. -/
def readUnsigned (minus : Bool) (text : Text) : Option (Value × Text) := do
  let digits := text.takeWhile Char.isDigit
  if digits = [] ∨ (digits.head? = some '0' ∧ digits ≠ ['0']) then none
  let (fraction, rest) ← readFraction (text.dropWhile Char.isDigit)
  let (exponent, rest) ← readExponent rest
  if !minus ∧ fraction = [] ∧ exponent = [] then pure (.number (Nat.ofDigitChars 10 digits 0), rest)
  else pure (.literal ((if minus then ['-'] else []) ++ digits ++ fraction ++ exponent), rest)

def readNumber : Text → Option (Value × Text)
  | '-' :: rest => readUnsigned true rest
  | text => readUnsigned false text

/-! ## Documents -/

def isBlank (c : Char) : Bool := c = ' ' || c = '\n' || c = '\r' || c = '\t'

def skip (text : Text) : Text := text.dropWhile isBlank

/-- What follows one character, behind blanks. -/
def expect (c : Char) (text : Text) : Option Text :=
  match skip text with
  | d :: rest => if d = c then some rest else none
  | [] => none

section Nested

variable (value : Text → Option (Value × Text))

/-- A key and its value. -/
def readMember (text : Text) : Option ((Text × Value) × Text) := do
  let rest ← expect '"' text
  let (key, rest) ← readText rest
  let rest ← expect ':' rest
  let (v, rest) ← value rest
  pure ((key, v), rest)

/-- Items up to the bracket that ends them; the count bounds how many there are. -/
def readItems {α : Type} (item : Text → Option (α × Text)) (close : Char) : Nat → Text → Option (List α × Text)
  | 0, _ => none
  | n + 1, text => do
      let (x, rest) ← item text
      match skip rest with
      | ',' :: rest => do
          let (xs, rest) ← readItems item close n rest
          pure (x :: xs, rest)
      | c :: rest => if c = close then pure ([x], rest) else none
      | [] => none

/-- What is between two brackets: nothing, or items. -/
def readBlock {α : Type} (item : Text → Option (α × Text)) (close : Char) (n : Nat) (text : Text) :
    Option (List α × Text) :=
  match expect close text with
  | some rest => some ([], rest)
  | none => readItems item close n text

end Nested

/-- A value behind blanks. The count bounds how deep it nests. -/
def readValue : Nat → Text → Option (Value × Text)
  | 0, _ => none
  | n + 1, text =>
      match skip text with
      | '"' :: rest => (readText rest).map fun r => (.string r.1, r.2)
      | '\x7b' :: rest => (readBlock (readMember (readValue n)) '\x7d' n rest).map fun r => (.object r.1, r.2)
      | '[' :: rest => (readBlock (readValue n) ']' n rest).map fun r => (.array r.1, r.2)
      | 't' :: 'r' :: 'u' :: 'e' :: rest => some (.bool true, rest)
      | 'f' :: 'a' :: 'l' :: 's' :: 'e' :: rest => some (.bool false, rest)
      | 'n' :: 'u' :: 'l' :: 'l' :: rest => some (.null, rest)
      | text => readNumber text

/-- A text that is one value and nothing else. -/
def readDocument (text : Text) : Option Value := do
  let (v, rest) ← readValue (text.length + 1) text
  if skip rest = [] then pure v else none

/-! ## A string that is written as it is -/

/-- Neither a quote nor a backslash nor a control character. -/
def Plain (s : Text) : Prop := ∀ c ∈ s, c ≠ '"' ∧ c ≠ '\\' ∧ ¬c < ' '

instance (s : Text) : Decidable (Plain s) := List.decidableBAll _ s

theorem readUnits_char {c : Char} (quote : c ≠ '"') (escape : c ≠ '\\') (visible : ¬c < ' ') (rest : Text) :
    readUnits (c :: rest) = push (.char c) (readUnits rest) := by
  rw [readUnits.eq_def]
  split <;> rename_i same <;> cases same <;> first
    | exact absurd rfl quote
    | exact absurd rfl escape
    | exact if_neg (not_or.mpr ⟨escape, visible⟩)

theorem readUnits_plain {s : Text} (plain : Plain s) (rest : Text) :
    readUnits (s ++ '"' :: rest) = some (s.map .char, rest) := by
  induction s with
  | nil => rfl
  | cons c s ih =>
      obtain ⟨quote, escape, visible⟩ := plain c (.head _)
      rw [List.cons_append, readUnits_char quote escape visible, ih fun d mem => plain d (.tail _ mem)]
      rfl

theorem joinUnits_chars (s : Text) : joinUnits (s.map .char) = some s := by
  induction s with
  | nil => rfl
  | cons c s ih => rw [List.map_cons, joinUnits, ih, Option.map_some]

/-- **A plain string is read as it is.** -/
theorem readText_plain {s : Text} (plain : Plain s) (rest : Text) : readText (s ++ '"' :: rest) = some (s, rest) := by
  rw [readText, readUnits_plain plain]
  show (joinUnits (s.map .char)).bind _ = _
  rw [joinUnits_chars]
  rfl

theorem length_joinUnits {units : List CodeUnit} {s : Text} (joined : joinUnits units = some s) :
    s.length ≤ units.length := by
  revert s
  fun_induction joinUnits units with
  | case1 =>
      rintro _ ⟨⟩
      exact Nat.le_refl 0
  | case2 c rest ih =>
      intro s joined
      obtain ⟨s, front, rfl⟩ := Option.map_eq_some_iff.mp joined
      exact Nat.succ_le_succ (ih front)
  | case3 n m rest _ ih =>
      intro s joined
      obtain ⟨s, front, rfl⟩ := Option.map_eq_some_iff.mp joined
      exact Nat.succ_le_succ (ih front)
  | case4 n m rest _ c _ ih =>
      intro s joined
      obtain ⟨s, front, rfl⟩ := Option.map_eq_some_iff.mp joined
      exact Nat.succ_le_succ (Nat.le_trans (ih front) (Nat.le_succ _))
  | case5 => nofun
  | case6 n rest _ _ ih =>
      intro s joined
      obtain ⟨s, front, rfl⟩ := Option.map_eq_some_iff.mp joined
      exact Nat.succ_le_succ (ih front)
  | case7 => nofun

theorem joinUnits_concat (units : List CodeUnit) (c : Char) :
    joinUnits (units ++ [.char c]) = (joinUnits units).map (· ++ [c]) := by
  have followed {rest : List CodeUnit} (alone : ∀ m more, rest = .code m :: more → False) :
      ∀ m more, rest ++ [.char c] = .code m :: more → False := by
    intro m more same
    cases rest with
    | nil => nomatch same
    | cons u rest =>
        rw [List.cons_append] at same
        exact alone m rest (by rw [(List.cons.inj same).1])
  fun_induction joinUnits units with
  | case1 => rfl
  | case2 d rest ih =>
      rw [List.cons_append, joinUnits, ih]
      cases joinUnits rest <;> rfl
  | case3 n m rest valid ih =>
      rw [List.cons_append, List.cons_append, joinUnits, if_pos valid, ← List.cons_append, ih]
      cases joinUnits (.code m :: rest) <;> rfl
  | case4 n m rest valid d pair ih =>
      rw [List.cons_append, List.cons_append, joinUnits, if_neg valid]
      simp only [pair, ih]
      cases joinUnits rest <;> rfl
  | case5 n m rest valid pair =>
      rw [List.cons_append, List.cons_append, joinUnits, if_neg valid]
      simp only [pair]
      rfl
  | case6 n rest alone valid ih =>
      rw [List.cons_append, joinUnits, if_pos valid, ih]
      · cases joinUnits rest <;> rfl
      · exact followed alone
  | case7 n rest alone valid =>
      rw [List.cons_append, joinUnits, if_neg valid]
      · rfl
      · exact followed alone

theorem getLast?_joinUnits {units : List CodeUnit} {s : Text} {c : Char} (joined : joinUnits units = some s)
    (last : units.getLast? = some (.char c)) : s.getLast? = some c := by
  obtain ⟨front, rfl⟩ := List.getLast?_eq_some_iff.mp last
  rw [joinUnits_concat] at joined
  obtain ⟨s, -, rfl⟩ := Option.map_eq_some_iff.mp joined
  exact List.getLast?_concat

/-! ### What is read of a string that was not escaped -/

/-- What is read of `s`, up to a quote and a comma behind it: the string itself, something shorter,
or, where a backslash at its end takes the quote, something that ends with the comma. -/
def Outcome (s : Text) (units : List CodeUnit) : Prop :=
  (Plain s ∧ units = s.map .char) ∨ units.length < s.length ∨
    (s.getLast? = some '\\' ∧ units.getLast? = some (.char ','))

theorem push_eq_some {u : CodeUnit} {r : Option (List CodeUnit × Text)} {units : List CodeUnit} {rest : Text}
    (pushed : push u r = some (units, rest)) : ∃ units', r = some (units', rest) ∧ units = u :: units' := by
  obtain ⟨⟨units', rest'⟩, read, same⟩ := Option.map_eq_some_iff.mp pushed
  cases same
  exact ⟨units', read, rfl⟩

theorem getLast?_cons_of_some {α : Type} {x y : α} {xs : List α} (last : xs.getLast? = some y) :
    (x :: xs).getLast? = some y := by
  obtain ⟨front, rfl⟩ := List.getLast?_eq_some_iff.mp last
  rw [← List.cons_append, List.getLast?_concat]

theorem getLast?_append_of_some {α : Type} {y : α} (front : List α) {xs : List α} (last : xs.getLast? = some y) :
    (front ++ xs).getLast? = some y := by
  induction front with
  | nil => exact last
  | cons x front ih => exact getLast?_cons_of_some ih

/-- An escape is longer than what it stands for. -/
theorem Outcome.escape {front s : Text} {u : CodeUnit} {units : List CodeUnit} (long : 2 ≤ front.length)
    (outcome : Outcome s units) : Outcome (front ++ s) (u :: units) := by
  rcases outcome with ⟨-, rfl⟩ | shorter | ⟨backslash, comma⟩
  · refine .inr (.inl ?_)
    rw [List.length_cons, List.length_map, List.length_append]
    omega
  · refine .inr (.inl ?_)
    rw [List.length_cons, List.length_append]
    omega
  · exact .inr (.inr ⟨getLast?_append_of_some front backslash, getLast?_cons_of_some comma⟩)

theorem Outcome.char {c : Char} {s : Text} {units : List CodeUnit} (plain : c ≠ '"' ∧ c ≠ '\\' ∧ ¬c < ' ')
    (outcome : Outcome s units) : Outcome (c :: s) (.char c :: units) := by
  rcases outcome with ⟨rest, rfl⟩ | shorter | ⟨backslash, comma⟩
  · exact .inl ⟨List.forall_mem_cons.mpr ⟨plain, rest⟩, rfl⟩
  · exact .inr (.inl (Nat.succ_lt_succ shorter))
  · exact .inr (.inr ⟨getLast?_cons_of_some backslash, getLast?_cons_of_some comma⟩)

/-- What has no quote in it and stands in front lies in `s`. -/
theorem split_front {s tail front rest : Text} (clean : '"' ∉ front) (same : s ++ '"' :: tail = front ++ rest) :
    ∃ s', s = front ++ s' ∧ rest = s' ++ '"' :: tail := by
  rcases List.append_eq_append_iff.mp same with ⟨beyond, rfl, tail_⟩ | ⟨s', rfl, rest_⟩
  · cases beyond with
    | nil => exact ⟨[], by simp, tail_.symm⟩
    | cons c beyond =>
        obtain ⟨quote, -⟩ := List.cons.inj tail_
        exact absurd (List.mem_append_right s (quote ▸ List.mem_cons_self ..)) clean
  · exact ⟨s', rfl, rest_⟩

theorem quote_not_mem_codeUnit {a b c d : Char} {u : CodeUnit} (unit : codeUnit a b c d = some u) :
    '"' ∉ ['\\', 'u', a, b, c, d] := by
  have none_ : hexValue '"' = none := rfl
  have digit {x : Char} {n : Nat} (hex : hexValue x = some n) : '"' ≠ x := by
    rintro rfl
    nomatch none_.symm.trans hex
  simp only [codeUnit, bind, pure, Option.bind_eq_some_iff] at unit
  obtain ⟨_, ha, _, hb, _, hc, _, hd, -⟩ := unit
  simp [digit ha, digit hb, digit hc, digit hd]

/-- **What may be read of a string that was not escaped.** -/
theorem outcome_of_readUnits {s tail rest : Text} {units : List CodeUnit}
    (read : readUnits (s ++ '"' :: ',' :: '"' :: tail) = some (units, rest)) : Outcome s units := by
  induction len : s.length using Nat.strongRecOn generalizing s units with
  | ind n ih =>
      subst len
      -- an escape that has no quote in it
      have escaped (front : Text) {rest' : Text} {u : CodeUnit} (clean : '"' ∉ front) (long : 2 ≤ front.length)
          (same : s ++ '"' :: ',' :: '"' :: tail = front ++ rest')
          (read : push u (readUnits rest') = some (units, rest)) : Outcome s units := by
        obtain ⟨s', rfl, rfl⟩ := split_front clean same
        obtain ⟨units', later, rfl⟩ := push_eq_some read
        exact Outcome.escape long (ih _ (by rw [List.length_append]; omega) later rfl)
      rw [readUnits.eq_def] at read
      split at read
      · -- the closing quote
        rename_i same
        cases read
        cases s with
        | nil => exact .inl ⟨nofun, rfl⟩
        | cons c s => exact .inr (.inl (Nat.succ_pos _))
      · rename_i a b c d rest' same
        split at read
        · rename_i u unit
          exact escaped _ (quote_not_mem_codeUnit unit) (by simp) same read
        · nomatch read
      · -- an escaped quote: one of `s`, or the one behind it
        rename_i rest' same
        cases s with
        | nil => exact absurd (List.cons.inj same).1 (by decide)
        | cons c s =>
            obtain ⟨rfl, behind⟩ : c = '\\' ∧ s ++ '"' :: ',' :: '"' :: tail = '"' :: rest' := List.cons.inj same
            cases s with
            | nil =>
                obtain rfl : ',' :: '"' :: tail = rest' := (List.cons.inj behind).2
                cases read
                exact .inr (.inr ⟨rfl, rfl⟩)
            | cons d s =>
                obtain ⟨rfl, rfl⟩ : d = '"' ∧ s ++ '"' :: ',' :: '"' :: tail = rest' := List.cons.inj behind
                obtain ⟨units', later, rfl⟩ := push_eq_some read
                exact @Outcome.escape ['\\', '"'] s _ _ (by decide)
                  (ih _ (by rw [List.length_cons, List.length_cons]; omega) later rfl)
      · rename_i rest' same
        exact escaped ['\\', '\\'] (by decide) (by decide) same read
      · rename_i rest' same
        exact escaped ['\\', '/'] (by decide) (by decide) same read
      · rename_i rest' same
        exact escaped ['\\', 'b'] (by decide) (by decide) same read
      · rename_i rest' same
        exact escaped ['\\', 'f'] (by decide) (by decide) same read
      · rename_i rest' same
        exact escaped ['\\', 'n'] (by decide) (by decide) same read
      · rename_i rest' same
        exact escaped ['\\', 'r'] (by decide) (by decide) same read
      · rename_i rest' same
        exact escaped ['\\', 't'] (by decide) (by decide) same read
      · rename_i c rest' notQuote _ _ _ _ _ _ _ _ _ same
        split at read
        · nomatch read
        · rename_i visible
          obtain ⟨notEscape, visible⟩ := not_or.mp visible
          obtain ⟨s', rfl, rfl⟩ := @split_front s _ [c] rest' (by simpa using Ne.symm notQuote) same
          obtain ⟨units', later, rfl⟩ := push_eq_some read
          exact Outcome.char ⟨notQuote, notEscape, visible⟩ (ih _ (by simp) later rfl)
      · rename_i none_
        exact absurd none_ (by simp)

/-- **A string that was not escaped is read back only if it is plain.** -/
theorem plain_of_readText {s tail rest : Text}
    (read : readText (s ++ '"' :: ',' :: '"' :: tail) = some (s, rest)) : Plain s := by
  simp only [readText, bind, pure, Option.bind_eq_some_iff] at read
  obtain ⟨⟨units, rest'⟩, units_, s', joined, same⟩ := read
  cases same
  rcases outcome_of_readUnits units_ with ⟨plain, -⟩ | shorter | ⟨backslash, comma⟩
  · exact plain
  · exact absurd (length_joinUnits joined) (Nat.not_le.mpr shorter)
  · rw [getLast?_joinUnits joined comma] at backslash
    exact absurd (Option.some.inj backslash) (by decide)

/-! ## Texts that are put together -/

/-- What may follow a value inside a document. -/
def Stops (rest : Text) : Prop := ∀ c ∈ rest.head?, c = ',' ∨ c = ']' ∨ c = '\x7d'

/-- The text of a value, wherever it stands. -/
def Reads (v : Value) (text : Text) : Prop :=
  ∀ n rest, text.length ≤ n → Stops rest → readValue n (text ++ rest) = some (v, rest)

theorem skip_cons {c : Char} (visible : isBlank c = false) (rest : Text) : skip (c :: rest) = c :: rest := by
  rw [skip, List.dropWhile_cons, visible]
  rfl

theorem skip_blank {c : Char} (blank : isBlank c = true) (rest : Text) : skip (c :: rest) = skip rest := by
  rw [skip, List.dropWhile_cons, blank]
  rfl

theorem expect_cons {c : Char} (visible : isBlank c = false) (rest : Text) : expect c (c :: rest) = some rest := by
  rw [expect, skip_cons visible]
  exact if_pos rfl

theorem expect_other {c d : Char} (visible : isBlank d = false) (other : d ≠ c) (rest : Text) :
    expect c (d :: rest) = none := by
  rw [expect, skip_cons visible]
  exact if_neg other

theorem expect_blank {b : Char} (blank : isBlank b = true) (c : Char) (rest : Text) :
    expect c (b :: rest) = expect c rest := by
  rw [expect, skip_blank blank, ← expect]

theorem readValue_blank {b : Char} (blank : isBlank b = true) (n : Nat) (rest : Text) :
    readValue (n + 1) (b :: rest) = readValue (n + 1) rest := by
  rw [readValue, skip_blank blank, ← readValue]

theorem readMember_blank {b : Char} (blank : isBlank b = true) (value : Text → Option (Value × Text)) (rest : Text) :
    readMember value (b :: rest) = readMember value rest := by
  rw [readMember, expect_blank blank, ← readMember]

theorem readValue_string (n : Nat) (text : Text) :
    readValue (n + 1) ('"' :: text) = (readText text).map fun r => (.string r.1, r.2) := by
  rw [readValue, skip_cons rfl]
  rfl

theorem readValue_object (n : Nat) (text : Text) : readValue (n + 1) ('\x7b' :: text) =
    (readBlock (readMember (readValue n)) '\x7d' n text).map fun r => (.object r.1, r.2) := by
  rw [readValue, skip_cons rfl]
  rfl

theorem Reads.string {s : Text} (plain : Plain s) : Reads (.string s) ('"' :: (s ++ ['"'])) := by
  intro n rest enough _
  obtain ⟨n, rfl⟩ := Nat.exists_eq_succ_of_ne_zero (Nat.ne_of_gt (Nat.lt_of_lt_of_le (Nat.succ_pos _) enough))
  rw [List.cons_append, List.append_assoc, readValue_string, List.singleton_append, readText_plain plain]
  rfl

/-- A text that starts with a digit is read as a number. -/
theorem readValue_digit {c : Char} (digit : c.isDigit = true) (n : Nat) (rest : Text) :
    readValue (n + 1) (c :: rest) = readUnsigned false (c :: rest) := by
  have visible : isBlank c = false := by
    simp only [isBlank, Bool.or_eq_false_iff, decide_eq_false_iff_not]
    refine ⟨⟨⟨?_, ?_⟩, ?_⟩, ?_⟩ <;> rintro rfl <;> exact absurd digit (by decide)
  rw [readValue, skip_cons visible]
  split <;> rename_i same
  case h_7 =>
    rw [readNumber]
    rintro rest' same
    cases same
    exact absurd digit (by decide)
  all_goals
    cases same
    exact absurd digit (by decide)

theorem Reads.number (m : Nat) : Reads (.number m) (Nat.toDigits 10 m) := by
  intro n rest enough stops
  have digits : ∀ c ∈ Nat.toDigits 10 m, c.isDigit = true :=
    fun c mem => Nat.isDigit_of_mem_toDigits (by omega) (by omega) mem
  have none_ : rest.takeWhile Char.isDigit = [] ∧ rest.dropWhile Char.isDigit = rest := by
    cases rest with
    | nil => exact ⟨rfl, rfl⟩
    | cons c rest =>
        have other : c.isDigit = false := by
          rcases stops c rfl with rfl | rfl | rfl <;> rfl
        simp [other]
  have proper : ¬(Nat.toDigits 10 m = [] ∨
      ((Nat.toDigits 10 m).head? = some '0' ∧ Nat.toDigits 10 m ≠ ['0'])) := by
    rintro (none_ | ⟨zero, longer⟩)
    · exact Nat.toDigits_ne_nil none_
    · obtain rfl := Json.head_toDigits m zero
      exact longer (Nat.toDigits_zero 10)
  have fraction : readFraction rest = some ([], rest) := by
    cases rest with
    | nil => rfl
    | cons c rest => rcases stops c rfl with rfl | rfl | rfl <;> rfl
  have exponent : readExponent rest = some ([], rest) := by
    cases rest with
    | nil => rfl
    | cons c rest => rcases stops c rfl with rfl | rfl | rfl <;> rfl
  have unsigned : readUnsigned false (Nat.toDigits 10 m ++ rest) = some (.number m, rest) := by
    unfold readUnsigned
    rw [List.takeWhile_append_of_pos digits, List.dropWhile_append_of_pos digits, none_.1, none_.2, List.append_nil]
    simp only [if_neg proper, fraction, exponent, bind, Option.bind_some, pure, Nat.ofDigitChars_ten_toDigits]
    rfl
  cases written : Nat.toDigits 10 m with
  | nil => exact absurd written Nat.toDigits_ne_nil
  | cons c more =>
      have digit : c.isDigit = true := digits c (written ▸ List.mem_cons_self ..)
      rw [written] at enough unsigned
      obtain ⟨n, rfl⟩ := Nat.exists_eq_succ_of_ne_zero (Nat.ne_of_gt (Nat.lt_of_lt_of_le (Nat.succ_pos _) enough))
      rw [List.cons_append, readValue_digit digit]
      exact unsigned

/-! ### Objects -/

/-- A member of an object: its key, and a value with its text. -/
structure Field where
  key : Text
  value : Value
  text : Text

namespace Field

def member (f : Field) : Text × Value := (f.key, f.value)

/-- The member as it is written. -/
def written (f : Field) : Text := '"' :: (f.key ++ '"' :: ':' :: f.text)

/-- The members of an object up to the last, each before its comma. -/
def front (fields : List Field) : Text := fields.flatMap fun f => f.written ++ [',']

def Ok (n : Nat) (f : Field) : Prop := Plain f.key ∧ Reads f.value f.text ∧ f.text.length ≤ n

end Field

section Objects

variable {n k : Nat} {f : Field} {fields : List Field} {rest text : Text}

/-- A member with a plain key is its value. -/
theorem readMember_key (value : Text → Option (Value × Text)) {key : Text} (plain : Plain key) :
    readMember value ('"' :: (key ++ '"' :: ':' :: text)) = (value text).map fun r => ((key, r.1), r.2) := by
  have quote := @expect_cons '"' rfl (key ++ '"' :: ':' :: text)
  have colon := @expect_cons ':' rfl text
  simp only [readMember, quote, bind, Option.bind_some, readText_plain plain, colon, pure]
  cases value text <;> rfl

theorem readMember_written (ok : f.Ok n) (stops : Stops rest) :
    readMember (readValue n) (f.written ++ rest) = some (f.member, rest) := by
  obtain ⟨plain, reads, enough⟩ := ok
  rw [Field.written, List.cons_append, List.append_assoc, List.cons_append, List.cons_append, readMember_key _ plain,
    reads n rest enough stops]
  rfl

/-- Members in front, each with its comma, are read before the rest. -/
theorem readItems_front (ok : ∀ f ∈ fields, f.Ok n) :
    readItems (readMember (readValue n)) '\x7d' (k + fields.length) (Field.front fields ++ text) =
      (readItems (readMember (readValue n)) '\x7d' k text).map fun r => (fields.map Field.member ++ r.1, r.2) := by
  induction fields with
  | nil =>
      cases read : readItems (readMember (readValue n)) '\x7d' k text <;> simp [Field.front, read]
  | cons f fields ih =>
      have first := @readMember_written n f (',' :: (Field.front fields ++ text)) (ok f (.head _))
        (by simp [Stops])
      rw [List.length_cons, ← Nat.add_assoc, Field.front, List.flatMap_cons, List.append_assoc, List.append_assoc,
        List.singleton_append, ← Field.front, readItems, first]
      simp only [bind, Option.bind_some, skip_cons (show isBlank ',' = false from rfl)]
      rw [ih fun f mem => ok f (.tail _ mem)]
      cases readItems (readMember (readValue n)) '\x7d' k text <;> rfl

/-- The object of these members, the last of which has no comma. -/
def objectText (fields : List Field) (last : Field) : Text :=
  '\x7b' :: (Field.front fields ++ (last.written ++ ['\x7d']))

theorem length_front (fields : List Field) : fields.length ≤ (Field.front fields).length := by
  induction fields with
  | nil => exact Nat.le_refl 0
  | cons f fields ih =>
      simp only [Field.front, List.flatMap_cons, List.length_append, List.length_cons] at ih ⊢
      omega

/-- A member's value is shorter than the object. -/
theorem length_text_le {fields : List Field} {f : Field} (mem : f ∈ fields) :
    f.text.length ≤ (Field.front fields).length := by
  induction fields with
  | nil => nomatch mem
  | cons g fields ih =>
      simp only [Field.front, List.flatMap_cons, List.length_append] at ih ⊢
      rcases List.mem_cons.mp mem with rfl | mem
      · simp only [Field.written, List.length_cons, List.length_append]
        omega
      · have := ih mem
        omega

/-- A block that starts with a member is not empty. -/
theorem readBlock_quote (item : Text → Option ((Text × Value) × Text)) (fields : List Field) (text : Text) :
    readBlock item '\x7d' n (Field.front fields ++ '"' :: text) =
      readItems item '\x7d' n (Field.front fields ++ '"' :: text) := by
  have quote : ∃ more, Field.front fields ++ '"' :: text = '"' :: more := by
    cases fields with
    | nil => exact ⟨text, rfl⟩
    | cons f fields => exact ⟨_, rfl⟩
  obtain ⟨more, same⟩ := quote
  rw [same, readBlock, expect_other rfl (by decide)]

/-- **An object is read back** where its members are. -/
theorem Reads.object {last : Field} (ok : ∀ f ∈ fields ++ [last], Plain f.key ∧ Reads f.value f.text) :
    Reads (.object ((fields ++ [last]).map Field.member)) (objectText fields last) := by
  intro n rest enough _
  obtain ⟨n, rfl⟩ := Nat.exists_eq_succ_of_ne_zero (Nat.ne_of_gt (Nat.lt_of_lt_of_le (Nat.succ_pos _) enough))
  have few := length_front fields
  simp only [objectText, Field.written, List.length_cons, List.length_append, List.length_nil] at enough
  have fits : ∀ f ∈ fields, f.Ok n := fun f mem => by
    have inside := length_text_le mem
    exact ⟨(ok f (List.mem_append_left _ mem)).1, (ok f (List.mem_append_left _ mem)).2, by omega⟩
  have lastFits : last.Ok n := ⟨(ok last (by simp)).1, (ok last (by simp)).2, by omega⟩
  obtain ⟨k, count⟩ : ∃ k, n = k + 1 + fields.length := ⟨n - 1 - fields.length, by omega⟩
  have end_ := @readMember_written n last ('\x7d' :: rest) lastFits (by simp [Stops])
  have items : readItems (readMember (readValue n)) '\x7d' (k + 1) (last.written ++ '\x7d' :: rest) =
      some ([last.member], rest) := by
    rw [readItems, end_]
    rfl
  have whole : objectText fields last ++ rest =
      '\x7b' :: (Field.front fields ++ '"' :: (last.key ++ '"' :: ':' :: (last.text ++ '\x7d' :: rest))) := by
    simp [objectText, Field.written]
  have back : '"' :: (last.key ++ '"' :: ':' :: (last.text ++ '\x7d' :: rest)) = last.written ++ '\x7d' :: rest := by
    simp [Field.written]
  rw [whole, readValue_object, readBlock_quote, back]
  have front := @readItems_front n (k + 1) fields (last.written ++ '\x7d' :: rest) fits
  rw [← count, items] at front
  rw [front]
  simp

/-- The first item comes first. -/
theorem readItems_cons {α : Type} {item : Text → Option (α × Text)} {close : Char} {x : α} {xs : List α}
    {after : Text} (first : item text = some (x, after)) (read : readItems item close (k + 1) text = some (xs, rest)) :
    ∃ more, xs = x :: more := by
  rw [readItems, first] at read
  simp only [bind, Option.bind_some] at read
  split at read
  · obtain ⟨⟨more, rest'⟩, -, same⟩ := Option.bind_eq_some_iff.mp read
    cases same
    exact ⟨more, rfl⟩
  · split at read
    · cases read
      exact ⟨[], rfl⟩
    · nomatch read
  · nomatch read

/-- What is read behind members in front: the next member has the value that is read there. -/
theorem readValue_object_behind {key : Text} {v : Value} (plain : Plain key) (ok : ∀ f ∈ fields, f.Ok n)
    (few : fields.length < n)
    (read : readValue (n + 1) ('\x7b' :: (Field.front fields ++ '"' :: (key ++ '"' :: ':' :: text))) = some (v, rest)) :
    ∃ v' rest' more, v = .object (fields.map Field.member ++ (key, v') :: more) ∧ readValue n text = some (v', rest') := by
  obtain ⟨k, count⟩ : ∃ k, n = k + 1 + fields.length := ⟨n - 1 - fields.length, by omega⟩
  have front := @readItems_front n (k + 1) fields ('"' :: (key ++ '"' :: ':' :: text)) ok
  rw [← count] at front
  rw [readValue_object, readBlock_quote, front, Option.map_map] at read
  obtain ⟨⟨members, rest'⟩, items, same⟩ := Option.map_eq_some_iff.mp read
  cases same
  have member := @readMember_key text (readValue n) key plain
  cases behind : readValue n text with
  | none =>
      rw [behind] at member
      rw [readItems, member] at items
      nomatch items
  | some r =>
      rw [behind] at member
      obtain ⟨more, rfl⟩ := readItems_cons member items
      exact ⟨r.1, r.2, more, rfl, rfl⟩

end Objects

end Jbuu.Library.JsonTree
